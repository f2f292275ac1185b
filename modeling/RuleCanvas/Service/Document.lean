import RuleCanvas.Node
import RuleCanvas.Rule.Document

/-! # Documents of requests

The bodies that the service reads. A graph document is read field by field and written again as the
document that a store loads; a rule document has to keep the limits of size. A part that should be
an object and is none is reported as having no attributes.
-/

namespace RuleCanvas.Service

open Form

def anyObject : Reader Json
  | .obj members => .ok (.obj members)
  | _ => fail .dictType

def pairOf {β γ : Type} (first : Json.Members → Checked β) (second : Json.Members → Checked γ)
    (members : Json.Members) : Checked (β × γ) := both (first members) (second members)

def readNode : Reader Json := model .modelAttributesType fun members =>
  let labels := pairOf (required "id" "id" string)
    (required "kind" "kind" (word NodeKind.ofName?)) members
  let zero := Double.zero false
  let place := pairOf (defaulted "x" "x" zero number) (defaulted "y" "y" zero number) members
  let payload := defaulted "payload" "payload" (.obj []) anyObject members
  (both (both labels place) payload).map fun (((id, kind), (x, y)), payload) =>
    .obj [("id", .str id), ("kind", .str kind.name), ("x", .float x), ("y", .float y),
      ("payload", payload)]

/-- An edge of a graph document; its id may be missing. -/
def readEdge : Reader Json := model .modelAttributesType fun members =>
  let id := defaulted "id" "id" none (optional string) members
  let ends := pairOf (required "from" "source" (PortRef.read .modelAttributesType))
    (required "to" "target" (PortRef.read .modelAttributesType)) members
  (both id ends).map fun (id, (source, target)) =>
    .obj [("id", Json.ofOption .str id), ("from", source.toDocument), ("to", target.toDocument)]

def readGraph : Reader Json := model .modelAttributesType fun members =>
  (pairOf (defaulted "nodes" "nodes" [] (list readNode))
    (defaulted "edges" "edges" [] (list readEdge)) members).map fun (nodes, edges) =>
      .obj [("nodes", .arr nodes), ("edges", .arr edges)]

def readRules (limits : Rule.Limits) : Reader (List Json)
  | .arr rules =>
    match Rule.tooDeep? limits.maxDepth rules <|> Rule.tooLarge? limits.maxNodes rules with
    | some excess => fail (.ruleBroken excess.message)
    | none => .ok rules
  | _ => fail .listType

def readRuleDocument (limits : Rule.Limits) : Reader Json :=
  model .modelAttributesType fun members =>
    (required "status_rules" "status_rules" (readRules limits) members).map fun rules =>
      .obj [("status_rules", .arr rules)]

end RuleCanvas.Service
