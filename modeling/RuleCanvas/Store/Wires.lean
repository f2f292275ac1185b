import RuleCanvas.Store.Nodes

/-! # Connecting and disconnecting

A connection is accepted when both ends exist, lie on different nodes, have types that fit, and
close no cycle. It takes the place of an edge that occupies the input already.
-/

namespace RuleCanvas

namespace Store

variable {α : Type}

/-- Whether two ports can be connected; the answer is the types at both ends. -/
def check (s : Store α) (source target : PortRef) : Except Refusal (ValueType × ValueType) :=
  match s.graph.node? source.node, s.graph.node? target.node with
  | some sourceNode, some targetNode =>
    match sourceNode.payload.outputType? s.catalog source.port with
    | none => .error (.noSuchOutput source.node sourceNode.kind source.port)
    | some sourceType =>
      if sourceNode.kind.outputCount ≤ source.port then
        .error (.noSuchOutput source.node sourceNode.kind source.port)
      else
        match targetNode.kind.inputType? target.port with
        | none => .error (.noSuchInput target.node targetNode.kind target.port)
        | some targetType =>
          if source.node = target.node then .error (.selfLoop source.node)
          else if !ValueType.compatible sourceType targetType then
            .error (.typeMismatch sourceType targetType source.node target.node)
          else if s.guarded && s.graph.closesCycle source.node target.node then
            .error (.cycle source.node target.node)
          else .ok (sourceType, targetType)
  | _, _ => .error (.missingEnd source.node target.node)

/-- A port reference given as a document, for the role that it plays. -/
def readRef (role : String) (v : Json) : Except Refusal PortRef :=
  match PortRef.read .modelType v with
  | .ok r => .ok r
  | .error issues => .error (.badReference role issues)

/-- The ends of a connection that are given as documents, if they can be connected. -/
def checkGiven (s : Store α) (source target : Json) : Except Refusal (PortRef × PortRef) := do
  let source ← readRef "from" source
  let target ← readRef "to" target
  let _ ← s.check source target
  return (source, target)

def canConnect (s : Store α) (source target : Json) : Bool :=
  match s.checkGiven source target with
  | .ok _ => true
  | .error _ => false

end Store

namespace Desk

variable {α : Type}

/-- Connects two ports that passed the check. The id is chosen and compared first; then the edge at
the input makes room. -/
def wire (d : Desk α) (source target : PortRef) (given : Json) : Except Fault String × Desk α :=
  let (id, d) := d.chooseId given
  match id with
  | .str id =>
    if d.graph.hasEdge id then d.refuse (.edgeTaken (.str id))
    else
      let outcome :=
        if (d.graph.incoming? target).isSome then WireOutcome.replaced else WireOutcome.connected
      let wired := d.setGraph ((d.graph.vacate target).insertEdge ⟨id, source, target⟩)
      ((wired.count (.wire outcome)).announce (.edgeAdded id)).done id
  | id =>
    if id.isKey then (d.setGraph (d.graph.vacate target)).fail (.invalid Form.idIssue)
    else d.fail .wrongKind

def refuseWire {β : Type} (d : Desk α) (refusal : Refusal) : Except Fault β × Desk α :=
  (d.count (.wire (.ofRefusal refusal))).refuse refusal

/-- Connects an output to an input; the answer is the id of the edge. -/
def connectRefs (d : Desk α) (source target : PortRef) (id : Json) : Except Fault String × Desk α :=
  match d.store.check source target with
  | .error refusal => d.refuseWire refusal
  | .ok _ => d.wire source target id

/-- Connects two ports that are given as documents. -/
def connect (d : Desk α) (source target id : Json) : Except Fault String × Desk α :=
  match d.store.checkGiven source target with
  | .error refusal => d.refuseWire refusal
  | .ok (source, target) => d.wire source target id

/-- Removes an edge; the answer is the edge. -/
def disconnect (d : Desk α) (id : Json) : Except Fault Edge × Desk α :=
  match d.graph.findEdge id with
  | .error fault => d.fail fault
  | .ok e => ((d.setGraph (d.graph.dropEdge e)).announce (.edgeRemoved e.id)).done e

def clear (d : Desk α) : Desk α := (d.setGraph Graph.empty).announce .cleared

end Desk

end RuleCanvas
