import RuleCanvas.Node

/-! # Graphs

Nodes and edges in the order in which they were added, and the index from an occupied input to the
edge that occupies it. The operations here keep the three in step but check nothing; what may be
added is decided by the store.
-/

namespace RuleCanvas

/-- The nodes, the edges, and the edge at each occupied input. -/
structure Graph (α : Type) where
  nodes : List (Node α)
  edges : List Edge
  occupants : List (PortRef × String)
  deriving DecidableEq, Repr

namespace Graph

variable {α : Type}

def empty : Graph α := ⟨[], [], []⟩

/-! ## Reads -/

def node? (g : Graph α) (id : String) : Option (Node α) := g.nodes.find? fun n => n.id == id

def payload? (g : Graph α) (id : String) : Option Payload := (g.node? id).map (·.payload)

def edge? (g : Graph α) (id : String) : Option Edge := g.edges.find? fun e => e.id == id

def hasNode (g : Graph α) (id : String) : Bool := (g.node? id).isSome

def hasEdge (g : Graph α) (id : String) : Bool := (g.edge? id).isSome

def incoming? (g : Graph α) (target : PortRef) : Option Edge :=
  (g.occupants.lookup target).bind g.edge?

def outgoing (g : Graph α) (id : String) : List Edge := g.edges.filter fun e => e.source.node == id

def touching (g : Graph α) (id : String) : List Edge := g.edges.filter fun e => e.touches id

def ofKind (g : Graph α) (kind : NodeKind) : List (Node α) := g.nodes.filter fun n => n.kind == kind

/-! ## Writes -/

def addNode (g : Graph α) (n : Node α) : Graph α := { g with nodes := g.nodes ++ [n] }

/-- The graph with the node of the same id replaced. -/
def setNode (g : Graph α) (n : Node α) : Graph α :=
  { g with nodes := g.nodes.map fun m => if m.id == n.id then n else m }

def insertEdge (g : Graph α) (e : Edge) : Graph α :=
  { g with
    edges := g.edges ++ [e]
    occupants := (e.target, e.id) :: g.occupants }

def dropEdge (g : Graph α) (e : Edge) : Graph α :=
  { g with
    edges := g.edges.filter fun f => f.id != e.id
    occupants := g.occupants.filter fun o => !(o.1 == e.target && o.2 == e.id) }

/-- The graph without the edge at an input, if there is one. -/
def vacate (g : Graph α) (target : PortRef) : Graph α :=
  match g.incoming? target with
  | some e => g.dropEdge e
  | none => g

/-- The graph without a node and all edges at it. -/
def removeNode (g : Graph α) (id : String) : Graph α :=
  let cut := (g.touching id).foldl dropEdge g
  { cut with nodes := cut.nodes.filter fun n => n.id != id }

def toDocument (g : Graph Double) : Json :=
  .obj [("nodes", .arr (g.nodes.map Node.toDocument)),
    ("edges", .arr (g.edges.map Edge.toDocument))]

/-! ## Reachability

Whether one node can be reached from another by following edges forward. The search keeps a stack of
nodes to look at and a list of those looked at. Each turn takes a node off the stack, and one that
is new puts the targets of its edges there. As no edge is followed twice, a search from one node is
over within two turns more than there are edges, whatever the graph. -/

/-- A search on its way: the nodes to look at, the next one first, and those behind it. -/
structure Search where
  stack : List String
  seen : List String

/-- One turn of a search for `goal`: its answer, or the search as it goes on. -/
def turn (g : Graph α) (goal : String) : Search → Bool ⊕ Search
  | ⟨[], _⟩ => .inl false
  | ⟨current :: stack, seen⟩ =>
    if current = goal then .inl true
    else if seen.contains current then .inr ⟨stack, seen⟩
    else .inr ⟨((g.outgoing current).map (·.target.node)).reverse ++ stack, current :: seen⟩

/-- The answer of a search, if it comes to one within the given number of turns. -/
def search (g : Graph α) (goal : String) : Nat → Search → Option Bool
  | 0, _ => none
  | turns + 1, s =>
    match g.turn goal s with
    | .inl answer => some answer
    | .inr next => search g goal turns next

/-- Whether `goal` can be reached from `start`; every node reaches itself. -/
def reaches (g : Graph α) (start goal : String) : Bool :=
  (g.search goal (g.edges.length + 2) ⟨[start], []⟩).getD false

/-- Whether an edge from `source` to `target` would close a cycle. -/
def closesCycle (g : Graph α) (source target : String) : Bool := g.reaches target source

end Graph

end RuleCanvas
