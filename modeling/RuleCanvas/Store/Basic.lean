import RuleCanvas.Journal
import RuleCanvas.Graph.Basic

/-! # Stores

A store is a graph together with the catalog that types its variables and the listeners that hear of
its changes. An operation runs at a desk, which holds the store and the journal; it answers with a
result or a fault and with the desk as it left it.
-/

namespace RuleCanvas

structure Store (α : Type) where
  catalog : Catalog
  graph : Graph α
  listeners : List Listener
  /-- Whether a connection is checked for closing a cycle. -/
  guarded : Bool

def Store.new {α : Type} (catalog : Catalog) : Store α := ⟨catalog, Graph.empty, [], true⟩

/-- A store and the journal of what was done to it. -/
structure Desk (α : Type) where
  store : Store α
  journal : Journal α

/-- An operation at a desk. What was written before a fault stays written. -/
abbrev Edit (α β : Type) := ExceptT Fault (StateM (Desk α)) β

namespace Desk

variable {α : Type}

def graph (d : Desk α) : Graph α := d.store.graph

def catalog (d : Desk α) : Catalog := d.store.catalog

def setGraph (d : Desk α) (g : Graph α) : Desk α := { d with store := { d.store with graph := g } }

def log (d : Desk α) (l : LogLine) : Desk α := { d with journal := d.journal.log l }

def count (d : Desk α) (m : Measure) : Desk α := { d with journal := d.journal.count m }

/-- Tells every listener of a change, with the graph as it is now. -/
def announce (d : Desk α) (change : Change) : Desk α :=
  let heard := d.store.listeners.map fun l => Entry.heard l change d.graph
  { d with journal := d.journal.addAll heard }

def fail {β : Type} (d : Desk α) (fault : Fault) : Except Fault β × Desk α := (.error fault, d)

def refuse {β : Type} (d : Desk α) (refusal : Refusal) : Except Fault β × Desk α :=
  d.fail (.refused refusal)

def done {β : Type} (d : Desk α) (result : β) : Except Fault β × Desk α := (.ok result, d)

end Desk

/-! ## Looking up by a given id

An id given from outside may be any value. Texts are looked up; another value that can be a key is
not found; lists and objects are of the wrong kind. -/

namespace Graph

variable {α : Type}

def findNode (g : Graph α) (id : Json) : Except Fault (Node α) :=
  match id with
  | .str s =>
    match g.node? s with
    | some n => .ok n
    | none => .error (.refused (.noNode id))
  | v => if v.isKey then .error (.refused (.noNode v)) else .error .wrongKind

def findEdge (g : Graph α) (id : Json) : Except Fault Edge :=
  match id with
  | .str s =>
    match g.edge? s with
    | some e => .ok e
    | none => .error (.refused (.noEdge id))
  | v => if v.isKey then .error (.refused (.noEdge v)) else .error .wrongKind

def containsNode (g : Graph α) (id : Json) : Except Fault Bool :=
  match id with
  | .str s => .ok (g.hasNode s)
  | v => if v.isKey then .ok false else .error .wrongKind

/-- The edge at an input that is given by any two values; whole numbers of every
kind are indexes. -/
def findIncoming (g : Graph α) (node index : Json) : Except Fault (Option Edge) :=
  if node.isKey && index.isKey then
    match node, index.whole? with
    | .str s, some i => .ok (if i < 0 then none else g.incoming? ⟨s, i.toNat⟩)
    | _, _ => .ok none
  else .error .wrongKind

end Graph

namespace Store

variable {α : Type}

/-- Whether an edge between two given ids would close a cycle; a store that is not guarded always
says no. -/
def wouldCycle (s : Store α) (source target : Json) : Except Fault Bool :=
  if !s.guarded then .ok false
  else
    match target, source with
    | .str t, .str u => .ok (s.graph.closesCycle u t)
    | target, source =>
      if target.sameValue source then .ok true
      else if target.isKey then .ok false
      else .error .wrongKind

/-- The type of an output that is given by any two values. -/
def outputType (s : Store α) (node index : Json) : Except Fault ValueType := do
  let n ← s.graph.findNode node
  n.payload.portType s.catalog .output index

def inputType (s : Store α) (node index : Json) : Except Fault ValueType := do
  let n ← s.graph.findNode node
  n.payload.portType s.catalog .input index

/-! ## Listeners -/

def subscribe (s : Store α) (listener : Listener) : Store α :=
  { s with listeners := s.listeners ++ [listener] }

/-- Ends the earliest subscription of a listener, if it has one. -/
def unsubscribe (s : Store α) (listener : Listener) : Store α :=
  { s with listeners := s.listeners.erase listener }

end Store

end RuleCanvas
