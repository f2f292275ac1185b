import RuleCanvas.Rule.Plan
import RuleCanvas.Store.Wires
import RuleCanvas.Journal

/-! # Importing rules

A rule document becomes a graph in two passes: every rule is planned, then the plans are placed. A
planned node stands in a band of rows, one column to the left of what it feeds, in the middle of the
bands of its inputs; the inputs take consecutive bands in their order and are made before the node.
Every rule ends in a Result of its own, and one empty row separates two rules.
-/

namespace RuleCanvas.Rule

variable {α : Type} [Scalar α]

open Scalar (ofInt)

/-- The distances of the layout: between columns, between rows, and the column of the Results. -/
structure Spacing (α : Type) where
  column : α
  row : α
  resultX : α

namespace Spacing

def usual : Spacing α := ⟨ofInt 250, ofInt 100, ofInt 900⟩

def top : α := ofInt 100

/-- The column that is `depth` columns to the left of the Results. -/
def x (s : Spacing α) (depth : Nat) : α := s.resultX - ofInt depth * s.column

/-- The middle of a band of `rows` rows. -/
def y (s : Spacing α) (top : α) (rows : Nat) : α :=
  top + ofInt ((rows : Int) - 1) * s.row / ofInt 2

/-- The top of what follows a band of `rows` rows. -/
def below (s : Spacing α) (top : α) (rows : Nat) : α := top + ofInt rows * s.row

end Spacing

structure Importer (α : Type) where
  context : Context
  spacing : Spacing α

/-- A placed input of a node: its index, the id of the node that feeds it, and the path of its
fragment. -/
structure Feed where
  index : Nat
  id : String
  path : String

/-- What an import answers: the fragments that were not imported as written, the ids of the Results
in the order of the rules, and the notice for the user. -/
structure Imported where
  issues : List ImportIssue
  results : List String
  notice : Option Notice

namespace Importer

/-- Wires a placed node to an input. A refused connection leaves the input unwired. -/
def wire (target : String) (feed : Feed) : Edit α (List ImportIssue) := fun d =>
  match d.connectRefs ⟨feed.id, 0⟩ ⟨target, feed.index⟩ .null with
  | (.ok _, d) => d.done []
  | (.error (.refused refusal), d) =>
    if refusal.family.isConnection then
      d.done [⟨feed.path, refusal.message ++ "; operand left unwired"⟩]
    else d.refuse refusal
  | (.error fault, d) => d.fail fault

def wireAll (target : String) : List Feed → Edit α (List ImportIssue)
  | [] => return []
  | feed :: rest => do
    let issues ← wire target feed
    return issues ++ (← wireAll target rest)

def make (i : Importer α) (depth : Nat) (y : α) (payload : Payload) : Edit α String := fun d =>
  d.addPayload payload (.ok ⟨i.spacing.x depth, y⟩) .null i.context.lenient

mutual

/-- Places a plan in the band that starts at `top`; the answer is the id of its node. -/
def place (i : Importer α) (depth : Nat) (top : α) : Plan → Edit α (String × List ImportIssue)
  | .node payload _ inputs => do
    let (feeds, issues) ← placeInputs i (depth + 1) top 0 inputs
    let id ← i.make depth (i.spacing.y top (max 1 inputs.rows)) payload
    return (id, issues ++ (← wireAll id feeds))

/-- Places the inputs of a node from `index` on in consecutive bands. -/
def placeInputs (i : Importer α) (depth : Nat) (top : α) (index : Nat) :
    Inputs → Edit α (List Feed × List ImportIssue)
  | .done => return ([], [])
  | .unwired rest => placeInputs i depth top (index + 1) rest
  | .wired plan rest => do
    let (id, issues) ← place i depth top plan
    let (feeds, more) ← placeInputs i depth (i.spacing.below top plan.rows) (index + 1) rest
    return (⟨index, id, plan.path⟩ :: feeds, issues ++ more)

end

/-- Places a rule with its Result; a rule that is `null` leaves the Result unwired. -/
def placeRule (i : Importer α) (top : α) : Option Plan → Edit α (String × List ImportIssue)
  | none => return (← i.make 0 top .result, [])
  | some plan => do
    let (root, issues) ← i.place 1 top plan
    let result ← i.make 0 (i.spacing.y top plan.rows) .result
    return (result, issues ++ (← wire result ⟨0, root, plan.path⟩))

def ruleRows : Option Plan → Nat
  | some plan => plan.rows
  | none => 1

/-- Places rules below each other; the answer is the ids of their Results. -/
def placeRules (i : Importer α) (top : α) :
    List (Option Plan) → Edit α (List String × List ImportIssue)
  | [] => return ([], [])
  | plan :: rest => do
    let (result, issues) ← i.placeRule top plan
    let (results, more) ← i.placeRules (i.spacing.below top (ruleRows plan + 1)) rest
    return (result :: results, issues ++ more)

/-- The notice for the user where fragments were not imported as written. -/
def notice? (issues : List ImportIssue) : Option Notice :=
  if issues.isEmpty then none
  else some <| Notice.warning "rule_tree_import_recovered"
    (toString issues.length ++ " rule fragment(s) could not be imported as written")
    [("issues", .arr (issues.map fun issue => .str issue.path))]

/-- Counts a finished import and tells the log of its notice. -/
def finish (issues : List ImportIssue) (results : List String) : Edit α Imported := fun d =>
  let d := d.count .imported
  match notice? issues with
  | none => d.done ⟨issues, results, none⟩
  | some notice =>
    ((d.count (.importIssues issues.length)).log notice.line).done ⟨issues, results, some notice⟩

/-- The plans of the rules of a document, in order. -/
def plans (i : Importer α) (rules : List Json) : List Plan.Draft :=
  rules.zipIdx.map fun (rule, index) => Plan.ofRule i.context rule (rulePath index)

/-- Replaces the graph by one imported from a document. Only a document without a list of rules is
refused, and then the graph stays as it was. -/
def run (i : Importer α) (document : Json) : Edit α Imported := fun d =>
  match rulesOf document with
  | .error cause => (d.count .importRejected).refuse (.malformed cause)
  | .ok rules =>
    let drafts := i.plans rules
    let placed : Edit α Imported := do
      let (results, issues) ← i.placeRules Spacing.top (drafts.map (·.1))
      finish (drafts.flatMap (·.2) ++ issues) results
    placed d.clear

end Importer

end RuleCanvas.Rule
