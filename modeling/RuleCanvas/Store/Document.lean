import RuleCanvas.Store.Wires

/-! # Reading graph documents

A graph is rebuilt from a document by adding its nodes and then connecting its edges, so that every
check of the store is made again.
-/

namespace RuleCanvas

/-- The parts that a value is walked through by: the items of a list, the characters of a text, the
names of an object. -/
def Json.parts : Json → Except Fault (List Json)
  | .arr items => .ok items
  | .str s => .ok (s.toList.map fun c => .str (String.ofList [c]))
  | .obj members => .ok (members.map fun m => .str m.1)
  | _ => .error .wrongKind

namespace Desk

def fresh {α : Type} (catalog : Catalog) (journal : Journal α) : Desk α := ⟨.new catalog, journal⟩

def loadNode (lenient : Bool) (document : Json) : Edit Double Unit := fun d =>
  let given : Except Fault (Json × GivenPosition × Json × Json) := do
    let kind ← document.demand "kind"
    let x ← document.ask "x"
    let y ← document.ask "y"
    let payload ← document.ask "payload"
    let id ← document.demand "id"
    let origin := Json.float (Double.zero false)
    return (kind, .pair (x.getD origin) (y.getD origin), payload.getD .null, id)
  match given with
  | .error fault => d.fail fault
  | .ok (kind, position, payload, id) =>
    let (result, d) := d.addNode kind position.read payload id lenient
    (result.map fun _ => (), d)

def loadEdge (document : Json) : Edit Double Unit := fun d =>
  let ends : Except Fault (Json × Json × Json) := do
    let source ← document.demand "from"
    let target ← document.demand "to"
    let id ← document.ask "id"
    return (source, target, id.getD .null)
  match ends with
  | .error fault => d.fail fault
  | .ok (source, target, id) =>
    let (result, d) := d.connect source target id
    (result.map fun _ => (), d)

def loadAll (load : Json → Edit Double Unit) : List Json → Edit Double Unit
  | [] => return
  | document :: rest => do
    load document
    loadAll load rest

/-- The parts of a member, none where it is missing. -/
def memberParts (name : String) (document : Json) : Except Fault (List Json) := do
  match ← document.ask name with
  | some v => v.parts
  | none => return []

/-- Adds the nodes and edges of a graph document. -/
def load (document : Json) (lenient : Bool) : Edit Double Unit := fun d =>
  match memberParts "nodes" document with
  | .error fault => d.fail fault
  | .ok nodes =>
    match loadAll (loadNode lenient) nodes d with
    | (.error fault, d) => d.fail fault
    | (.ok (), d) =>
      match memberParts "edges" document with
      | .error fault => d.fail fault
      | .ok edges => loadAll loadEdge edges d

end Desk

end RuleCanvas
