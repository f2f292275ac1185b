import RuleCanvas.Catalog
import RuleCanvas.Payload

/-! # Rule documents

A rule document is an object with a list of rules under `status_rules`. A fragment of a rule is
located by a path that starts at the document and names the operators on the way. A document from
outside has to keep limits on the depth of its rules and on the number of their nodes.
-/

namespace RuleCanvas.Rule

/-- What reading a rule depends on: the catalog, and whether unknown variables are let in. -/
structure Context where
  catalog : Catalog
  lenient : Bool

def kindWord : Json → String
  | .null => "NoneType"
  | .bool _ => "bool"
  | .int _ => "int"
  | .float _ => "float"
  | .str _ => "str"
  | .arr _ => "list"
  | .obj _ => "dict"

def rulesOf : Json → Except Malformation (List Json)
  | .obj members =>
    match Json.find? "status_rules" members with
    | some (.arr rules) => .ok rules
    | some v => .error (.rulesNotList (kindWord v))
    | none => .error (.noRules (members.map (·.1)))
  | v => .error (.notObject (kindWord v))

def rulePath (index : Nat) : String := "$.status_rules[" ++ toString index ++ "]"

/-- The path of an item of an operator's operand list. -/
def itemPath (path operator : String) (index : Nat) : String :=
  path ++ "." ++ operator ++ "[" ++ toString index ++ "]"

/-- The key that the operand of `var` names, by itself or as the first of a list. -/
def variableKey? (args : Json) : Option String :=
  let given :=
    match args with
    | .arr (first :: _) => first
    | other => other
  match given with
  | .str key => if key = "" then none else some key
  | _ => none

/-! ## Size limits -/

mutual

/-- The depth of a rule: literals and variables have depth one, an operator is one deeper than the
deepest of its operands. -/
def depth : Json → Nat
  | .obj members =>
    if members.isEmpty || (Json.find? "var" members).isSome then 1 else 1 + memberDepth members
  | .arr items => itemDepth items
  | _ => 1

def itemDepth : List Json → Nat
  | [] => 0
  | x :: xs => max (depth x) (itemDepth xs)

def memberDepth : List (String × Json) → Nat
  | [] => 0
  | (_, x) :: ms => max (depth x) (memberDepth ms)

end

mutual

/-- The number of nodes: every object and every literal counts as one. -/
def nodeCount : Json → Nat
  | .obj members => 1 + memberCount members
  | .arr items => itemCount items
  | _ => 1

def itemCount : List Json → Nat
  | [] => 0
  | x :: xs => nodeCount x + itemCount xs

def memberCount : List (String × Json) → Nat
  | [] => 0
  | (_, x) :: ms => nodeCount x + memberCount ms

end

structure Limits where
  maxDepth : Int
  maxNodes : Int

def Limits.usual : Limits := ⟨32, 2000⟩

inductive Excess where
  | depth (index : Nat) (limit : Int) (found : Nat)
  | nodes (limit : Int) (found : Nat)

def Excess.message : Excess → String
  | depth index limit found =>
    "status_rules[" ++ toString index ++ "] exceeds maximum depth of " ++ toString limit ++
      " (got " ++ toString found ++ ")"
  | nodes limit found =>
    "Rule tree exceeds maximum node count of " ++ toString limit ++ " (got " ++ toString found ++
      " nodes)"

def tooDeep? (limit : Int) (rules : List Json) : Option Excess :=
  (rules.zipIdx.find? fun (rule, _) => limit < depth rule).map fun (rule, index) =>
    .depth index limit (depth rule)

/-- Whether the rules have too many nodes together. -/
def tooLarge? (limit : Int) (rules : List Json) : Option Excess :=
  let found := itemCount rules
  if limit < found then some (.nodes limit found) else none

end RuleCanvas.Rule
