import RuleCanvas.Port
import RuleCanvas.Number.Double

/-! # Nodes, port references and edges

A node has an id, the position of the top left corner of its card, and a payload. An edge runs from
an output of one node to an input of another; both ends are named by node id and port index.
-/

namespace RuleCanvas

open Form

structure Node (α : Type) where
  id : String
  x : α
  y : α
  payload : Payload
  deriving DecidableEq, Repr

namespace Node

variable {α : Type}

def kind (n : Node α) : NodeKind := n.payload.kind

def position (n : Node α) : Point α := ⟨n.x, n.y⟩

def toDocument (n : Node Double) : Json :=
  .obj [("id", .str n.id), ("kind", .str n.kind.name), ("x", .float n.x), ("y", .float n.y),
    ("payload", .obj n.payload.fields)]

end Node

/-- One port of a node: the index counts within one direction. -/
structure PortRef where
  node : String
  port : Nat
  deriving DecidableEq, Repr

namespace PortRef

def toDocument (r : PortRef) : Json :=
  .obj [("nodeId", .str r.node), ("portIndex", .int r.port)]

/-- A reference as a document holds it; a value that is no object is reported as `otherwise`. -/
def read (otherwise : Cause) : Reader PortRef := model otherwise fun members =>
  (both (required "nodeId" "node_id" string members)
    (required "portIndex" "port_index" natural members)).map fun (node, port) => ⟨node, port⟩

end PortRef

structure Edge where
  id : String
  source : PortRef
  target : PortRef
  deriving DecidableEq, Repr

namespace Edge

def touches (e : Edge) (node : String) : Bool := e.source.node == node || e.target.node == node

def toDocument (e : Edge) : Json :=
  .obj [("id", .str e.id), ("from", e.source.toDocument), ("to", e.target.toDocument)]

def read : Reader Edge := model .modelType fun members =>
  (both (both (required "id" "id" string members)
      (required "from" "source" (PortRef.read .modelType) members))
    (required "to" "target" (PortRef.read .modelType) members)).map
      fun ((id, source), target) => ⟨id, source, target⟩

end Edge

/-! ## Reading documents -/

namespace Json

/-- A member that a document has to have. -/
def demand (name : String) : Json → Except Fault Json
  | obj members =>
    match find? name members with
    | some v => .ok v
    | none => .error (.missingMember name)
  | _ => .error .wrongKind

def ask (name : String) : Json → Except Fault (Option Json)
  | obj members => .ok (find? name members)
  | _ => .error .notDocument

end Json

def NodeKind.read (v : Json) : Except Fault NodeKind :=
  match v.text?.bind NodeKind.ofName? with
  | some kind => .ok kind
  | none => .error (.notA "NodeKind" v)

/-- The fields of a payload given as a document; a value that counts as missing has none. -/
def Payload.givenFields (data : Json) : Except Fault Json.Members :=
  match data with
  | .obj members => .ok members
  | v => if v.isTruthy then .error .wrongKind else .ok []

def Payload.ofDocument (kind data : Json) : Except Fault Payload := do
  let members ← Payload.givenFields data
  let kind ← NodeKind.read kind
  match Payload.read kind members with
  | .ok payload => .ok payload
  | .error issues => .error (.invalid issues)

/-- A node as a document holds it, taken as it is: nothing is compared with a catalog. -/
def Node.ofDocument (document : Json) : Except Fault (Node Double) := do
  let id ← document.demand "id"
  let x ← document.ask "x"
  let y ← document.ask "y"
  let kind ← document.demand "kind"
  let data ← document.ask "payload"
  let payload ← Payload.ofDocument kind (data.getD .null)
  let coordinate (name : String) (given : Option Json) : Checked Double :=
    match given with
    | some v => within (.name name) (number v)
    | none => .ok (Double.zero false)
  match both (both (within (.name "id") (string id)) (coordinate "x" x)) (coordinate "y" y) with
  | .ok ((id, x), y) => .ok ⟨id, x, y, payload⟩
  | .error issues => .error (.invalid issues)

end RuleCanvas
