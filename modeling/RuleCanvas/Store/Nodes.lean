import RuleCanvas.Store.Basic
import RuleCanvas.Store.Position

/-! # Editing nodes

Adding, removing and moving nodes and changing their payloads. Each operation checks everything
before it writes. A change of a payload that changes the type of the node's output cuts the outgoing
edges that no longer fit.
-/

namespace RuleCanvas

namespace Store

def logger : String := "policy_graph.graph.store"

/-- The payload fields of a new node before those that are given. -/
def defaultFields (catalog : Catalog) (kind : NodeKind) : Json.Members :=
  match kind, catalog.defaultKey? with
  | .var, some key => [("key", .str key)]
  | _, _ => []

/-- What a checked payload comes with: a line for the log where an unknown variable was let in. -/
structure Vetted where
  payload : Payload
  warning : Option LogLine

def lenientLine (key : String) : LogLine :=
  ⟨.warning, logger, "Unknown variable '" ++ key ++ "' accepted in lenient mode", none, none⟩

/-- Checks that the catalog has the variable of a payload; `lenient` lets unknown variables in. -/
def accept (catalog : Catalog) (payload : Payload) (lenient : Bool) : Except Refusal Vetted :=
  match payload with
  | .var key =>
    if catalog.contains key then .ok ⟨payload, none⟩
    else if lenient then .ok ⟨payload, some (lenientLine key)⟩
    else .error (.unknownVariable key)
  | _ => .ok ⟨payload, none⟩

/-- Checks the fields of a payload, and its variable. -/
def vet (catalog : Catalog) (kind : NodeKind) (fields : Json.Members) (lenient : Bool) :
    Except Refusal Vetted :=
  match Payload.read kind fields with
  | .error issues => .error (.badPayload kind issues)
  | .ok payload => accept catalog payload lenient

/-- Checks fields of which some may have names that are no texts, as no payload has. -/
def vetNamed (catalog : Catalog) (kind : NodeKind) (fields : Json.Members) (misnamed : List Json)
    (lenient : Bool) : Except Refusal Vetted :=
  match misnamed with
  | [] => vet catalog kind fields lenient
  | _ => .error (.badPayload kind (Payload.misnamedIssues kind fields misnamed))

end Store

def Form.idIssue : List Form.Issue := [⟨[.name "id"], .stringType⟩]

namespace Desk

open Store

variable {α : Type}

def logOptional (d : Desk α) : Option LogLine → Desk α
  | some l => d.log l
  | none => d

/-- The given id, or a fresh one where the given value counts as missing. -/
def chooseId (d : Desk α) (given : Json) : Json × Desk α :=
  let (id, journal) := d.journal.choose given
  (id, { d with journal })

/-- Puts a checked payload into the graph as a new node. The id is chosen before the position is
looked at. -/
def placeNode (d : Desk α) (payload : Payload) (position : Except Fault (Point α)) (given : Json) :
    Except Fault String × Desk α :=
  let (id, d) := d.chooseId given
  match d.graph.containsNode id with
  | .error fault => d.fail fault
  | .ok true => d.refuse (.nodeTaken id)
  | .ok false =>
    match position with
    | .error fault => d.fail fault
    | .ok p =>
      match id with
      | .str id =>
        ((d.setGraph (d.graph.addNode ⟨id, p.x, p.y, payload⟩)).announce (.nodeAdded id)).done id
      | _ => d.fail (.invalid Form.idIssue)

/-- Adds a node with a payload that is right by itself. -/
def addPayload (d : Desk α) (payload : Payload) (position : Except Fault (Point α)) (id : Json)
    (lenient : Bool) : Except Fault String × Desk α :=
  match accept d.catalog payload lenient with
  | .error refusal => d.refuse refusal
  | .ok vetted => (d.logOptional vetted.warning).placeNode vetted.payload position id

/-- Adds a node of a kind. The fields that are not given have the defaults of the kind. -/
def addNodeOfKind (d : Desk α) (kind : NodeKind) (position : Except Fault (Point α))
    (fields : Json.Members) (id : Json) (lenient : Bool) : Except Fault String × Desk α :=
  match vet d.catalog kind (Json.putAll (defaultFields d.catalog kind) fields) lenient with
  | .error refusal => d.refuse refusal
  | .ok vetted => (d.logOptional vetted.warning).placeNode vetted.payload position id

/-- Adds a node whose kind and payload are given as documents. -/
def addNode (d : Desk α) (kind : Json) (position : Except Fault (Point α)) (payload id : Json)
    (lenient : Bool) : Except Fault String × Desk α :=
  match kind.text?.bind NodeKind.ofName? with
  | none => d.refuse (.unknownKind kind)
  | some kind =>
    match Payload.givenFields payload with
    | .error fault => d.fail fault
    | .ok fields => d.addNodeOfKind kind position fields id lenient

/-- Removes a node and every edge at it; the answer is the removed edges. -/
def removeNode (d : Desk α) (id : Json) : Except Fault (List Edge) × Desk α :=
  match d.graph.findNode id with
  | .error fault => d.fail fault
  | .ok n =>
    ((d.setGraph (d.graph.removeNode n.id)).announce (.nodeRemoved n.id)).done
      (d.graph.touching n.id)

def moveNode (d : Desk α) (id : Json) (position : Except Fault (Point α)) :
    Except Fault Unit × Desk α :=
  match d.graph.findNode id with
  | .error fault => d.fail fault
  | .ok n =>
    match position with
    | .error fault => d.fail fault
    | .ok p =>
      ((d.setGraph (d.graph.setNode { n with x := p.x, y := p.y })).announce
        (.nodeMoved n.id)).done ()

/-! ## Payload updates -/

/-- What is given for a change: fields by name, and the names that are no texts. -/
structure PartialFields where
  members : Json.Members
  misnamed : List Json

/-- One more field, in the place of an earlier one of the same name. -/
def PartialFields.put (given : PartialFields) : Json × Json → PartialFields
  | (.str name, v) => { given with members := Json.put name v given.members }
  | (name, _) =>
    if given.misnamed.any name.sameValue then given
    else { given with misnamed := given.misnamed ++ [name] }

/-- The name and the value that the item at `index` of a list of pairs is. -/
def pairOf (index : Nat) (item : Json) : Except Fault (Json × Json) :=
  let badLength (length : Nat) : Except Fault (Json × Json) :=
    .error (.badValue ("dictionary update sequence element #" ++ toString index ++ " has length " ++
      toString length ++ "; 2 is required"))
  match item with
  | .arr [name, v] => if name.isKey then .ok (name, v) else .error .wrongKind
  | .arr items => badLength items.length
  | .obj [(name, _), (v, _)] => .ok (.str name, .str v)
  | .obj members => badLength members.length
  | .str s =>
    match s.toList with
    | [name, v] => .ok (.str (String.ofList [name]), .str (String.ofList [v]))
    | cs => badLength cs.length
  | _ => .error .wrongKind

/-- The fields that are given; a list of pairs will do as well. -/
def partialFields (given : Json) : Except Fault PartialFields :=
  let ofPairs (items : List Json) : Except Fault PartialFields :=
    (items.zipIdx.mapM fun (item, index) => pairOf index item).map
      (List.foldl PartialFields.put ⟨[], []⟩)
  match given with
  | .obj members => .ok ⟨members, []⟩
  | .arr items => ofPairs items
  | .str s => ofPairs (s.toList.map fun c => .str (String.ofList [c]))
  | _ => .error .wrongKind

/-- The given fields with the value type under its first name. -/
def useFieldNames (kind : NodeKind) (given : Json.Members) : Json.Members :=
  match kind, Json.find? "value_type" given with
  | .constant, some v => Json.put "valueType" v (Json.remove "value_type" given)
  | _, _ => given

/-- The value that a constant takes when its type is changed and no value is given. -/
def defaultValue (type : Json) : Except Fault Json :=
  match type.text?.bind ValueType.ofName? with
  | none => .error (.notA "ValueType" type)
  | some t =>
    match Literal.default? t with
    | some l => .ok l.toJson
    | none => .error (.missingMember t.name)

/-- The fields to merge into a payload: those given, and the default value of a constant whose type
changes without one. -/
def completeFields (payload : Payload) (given : Json.Members) : Except Fault Json.Members :=
  match payload, Json.find? "valueType" given, Json.find? "value" given with
  | .constant l, some type, none =>
    if type.text? = some l.type.name then .ok given
    else (defaultValue type).map fun v => Json.put "value" v given
  | _, _, _ => .ok given

/-- Drops the given outgoing edges of a node that do not fit its output type any more. -/
def cutMisfits (node : Node α) (type : ValueType) : List Edge → Desk α → Desk α
  | [], d => d
  | e :: rest, d =>
    match (d.graph.node? e.target.node).bind fun n => n.kind.inputType? e.target.port with
    | some expected =>
      if ValueType.compatible type expected then cutMisfits node type rest d
      else
        let line : LogLine := ⟨.warning, logger,
          "Removed edge " ++ e.id ++ ": " ++ node.id ++ " output is now " ++ type.name ++
            ", input expects " ++ expected.name, none, none⟩
        cutMisfits node type rest <|
          ((d.setGraph (d.graph.dropEdge e)).log line).announce (.edgeRemoved e.id)
    | none => cutMisfits node type rest d

/-- Writes a checked payload and cuts the edges that it leaves without a fitting type. -/
def writePayload (d : Desk α) (node : Node α) (payload : Payload) : Desk α :=
  let before := node.payload.outputType? d.catalog 0
  let after := payload.outputType? d.catalog 0
  let written := d.setGraph (d.graph.setNode { node with payload })
  let cut :=
    match before, after with
    | some old, some new =>
      if new = old then written
      else cutMisfits node new (written.graph.outgoing node.id) written
    | _, _ => written
  cut.announce (.payloadUpdated node.id)

/-- Merges given fields into the payload of a node; the answer is the node as it is then. A variable
whose key is not given keeps it, known or not. -/
def updatePayload (d : Desk α) (id given : Json) : Except Fault (Node α) × Desk α :=
  match d.graph.findNode id with
  | .error fault => d.fail fault
  | .ok node =>
    match partialFields given with
    | .error fault => d.fail fault
    | .ok ⟨given, misnamed⟩ =>
      let given := useFieldNames node.kind given
      let renamed := (Json.find? "kind" given).any fun k => k.text? != some node.kind.name
      if renamed then d.refuse (.kindChange node.id node.kind)
      else
        match completeFields node.payload given with
        | .error fault => d.fail fault
        | .ok fields =>
          let lenient := node.kind == .var && (Json.find? "key" fields).isNone
          let merged := Json.putAll node.payload.fields fields
          match vetNamed d.catalog node.kind merged misnamed lenient with
          | .error refusal => d.refuse refusal
          | .ok vetted =>
            ((d.logOptional vetted.warning).writePayload node vetted.payload).done
              { node with payload := vetted.payload }

end Desk

end RuleCanvas
