import RuleCanvas.Catalog
import RuleCanvas.Payload

/-! # Ports

The ports of a node follow from its kind. Their types are fixed, except that the output of a
Variable has the type its key has in the catalog and the output of a Constant that of its literal.
-/

namespace RuleCanvas

structure Port where
  name : String
  type : ValueType
  deriving DecidableEq, Repr

namespace NodeKind

def inputs : NodeKind → List Port
  | logic => [⟨"A", .boolean⟩, ⟨"B", .boolean⟩]
  | compare => [⟨"A", .any⟩, ⟨"B", .any⟩]
  | var => []
  | constant => []
  | choice => [⟨"Condition", .boolean⟩, ⟨"True", .any⟩, ⟨"False", .any⟩]
  | result => [⟨"Rule", .any⟩]

/-- The outputs of a node; those of variables and constants stand for a type of their own. -/
def outputs : NodeKind → List Port
  | logic => [⟨"Result", .boolean⟩]
  | compare => [⟨"Result", .boolean⟩]
  | var => [⟨"Value", .any⟩]
  | constant => [⟨"Value", .any⟩]
  | choice => [⟨"Result", .any⟩]
  | result => []

def ports (kind : NodeKind) : PortDirection → List Port
  | .input => kind.inputs
  | .output => kind.outputs

def inputCount (kind : NodeKind) : Nat := kind.inputs.length

def outputCount (kind : NodeKind) : Nat := kind.outputs.length

def inputType? (kind : NodeKind) (index : Nat) : Option ValueType :=
  kind.inputs[index]?.map (·.type)

end NodeKind

namespace Payload

/-- The type of output `index`. -/
def outputType? (catalog : Catalog) (p : Payload) (index : Nat) : Option ValueType :=
  match p with
  | var key => some (catalog.typeOf key)
  | constant l => some l.type
  | p => p.kind.outputs[index]?.map (·.type)

end Payload

/-! ## Ports by a given index

An index given from outside may be any value. A negative one counts from the last port, and a
boolean counts as `0` or `1`. -/

/-- The port at an index counted from the front, or from the back if it is negative. -/
def Port.at? (ports : List Port) (index : Int) : Option Port :=
  if 0 ≤ index then ports[index.toNat]?
  else if -(ports.length : Int) ≤ index then ports[(index + ports.length).toNat]?
  else none

def Port.typeAt (ports : List Port) (index : Json) : Except Fault ValueType :=
  let at? (i : Int) : Except Fault ValueType :=
    match Port.at? ports i with
    | some port => .ok port.type
    | none => .error .indexOutOfRange
  match index with
  | .int i => at? i
  | .bool b => at? (if b then 1 else 0)
  | _ => .error .wrongKind

/-- The type of the port of a payload's node in a direction, at a given index. The single output of
a variable or a constant answers to every index. -/
def Payload.portType (catalog : Catalog) (p : Payload) (direction : PortDirection) (index : Json) :
    Except Fault ValueType :=
  match direction, p with
  | .output, .var key => .ok (catalog.typeOf key)
  | .output, .constant l => .ok l.type
  | direction, p => Port.typeAt (p.kind.ports direction) index

end RuleCanvas
