import RuleCanvas.Rule.Document
import RuleCanvas.Journal

/-! # Checking rules

The strict check of a rule document. Every rule has a recognised shape, every variable is in the
catalog, and operands of logic and conditions are boolean; the answer is the type of every rule. The
first thing wrong ends the check. In lenient mode a variable outside the catalog has the type `any`
and leaves a line in the log.
-/

namespace RuleCanvas.Rule

def expectBoolean (type : ValueType) (path : String) : Except Malformation Unit :=
  if type = .boolean ∨ type = .any then .ok () else .error (.notBoolean path type)

/-- The type of the variable that the operand of `var` names. -/
def variableType (c : Context) (args : Json) (path : String) : Except Malformation ValueType :=
  match variableKey? args with
  | none => .error (.unnamedVariable path args)
  | some key =>
    if c.catalog.contains key || c.lenient then .ok (c.catalog.typeOf key)
    else .error (.unknownVariable path key)

/-- The malformation of an operator whose operands are not a list of the right length. -/
def wrongCount (path operator : String) (expected : Nat) (args : Json) : Malformation :=
  .operandCount path operator expected <|
    match args with
    | .arr items => some items.length
    | _ => none

/-- The malformation of a value that is neither a literal nor an object of one operator. -/
def shapeless (path : String) (rule : Json) : Malformation :=
  .badShape path (kindWord rule) <|
    match rule with
    | .obj members => some (members.map (·.1))
    | _ => none

/-- The type of a choice with branches of the given types. -/
def joinType (whenTrue whenFalse : ValueType) : ValueType :=
  if whenTrue = whenFalse then whenTrue else .any

mutual

def infer (c : Context) (rule : Json) (path : String) : Except Malformation ValueType :=
  match rule with
  | .null => .error (.missingOperand path)
  | .bool _ => .ok .boolean
  | .int _ => .ok .number
  | .float _ => .ok .number
  | .str _ => .ok .string
  | .obj [(operator, args)] =>
    if operator = "var" then variableType c args path
    else if operator = "not" then
      match args with
      | .arr [x] => do
        expectBoolean (← infer c x (path ++ ".not")) (path ++ ".not")
        return .boolean
      | x => do
        expectBoolean (← infer c x (path ++ ".not")) (path ++ ".not")
        return .boolean
    else if operator = "and" ∨ operator = "or" then
      match args with
      | .arr [x, y] => do
        let left ← infer c x (itemPath path operator 0)
        let right ← infer c y (itemPath path operator 1)
        expectBoolean left (itemPath path operator 0)
        expectBoolean right (itemPath path operator 1)
        return .boolean
      | _ => .error (wrongCount path operator 2 args)
    else if (CompareOperator.ofSymbol? operator).isSome then
      match args with
      | .arr [x, y] => do
        let _ ← infer c x (itemPath path operator 0)
        let _ ← infer c y (itemPath path operator 1)
        return .boolean
      | _ => .error (wrongCount path operator 2 args)
    else if operator = "if" then
      match args with
      | .arr [condition, whenTrue, whenFalse] => do
        expectBoolean (← infer c condition (itemPath path operator 0)) (itemPath path operator 0)
        let first ← inferBranch c whenTrue (itemPath path operator 1)
        let second ← inferBranch c whenFalse (itemPath path operator 2)
        return joinType first second
      | _ => .error (wrongCount path operator 3 args)
    else .error (.unknownOperator path operator)
  | rule => .error (shapeless path rule)

/-- The type of a branch of a choice, which may be `null`. -/
def inferBranch (c : Context) (rule : Json) (path : String) : Except Malformation ValueType :=
  match rule with
  | .null => .ok .any
  | rule => infer c rule path

end

/-- The types of the rules of a document, or the first thing that is wrong with it. -/
def check (c : Context) (document : Json) : Except Malformation (List ValueType) := do
  let rules ← rulesOf document
  rules.zipIdx.mapM fun (rule, index) => infer c rule (rulePath index)

/-! ## What a check tells the log -/

def checkLogger : String := "policy_graph.compiler.validator"

/-- The line for a variable that is let in. -/
def letIn (c : Context) (args : Json) (path : String) : List LogLine :=
  match variableKey? args with
  | some key =>
    if c.lenient && !c.catalog.contains key then
      [⟨.warning, checkLogger, "Unknown variable '" ++ key ++ "' at " ++ path ++ " - typed as any",
        none, none⟩]
    else []
  | none => []

/-- The later lines, if the check got that far. -/
def andThen {β : Type} (earlier : List LogLine) (reached : Except Malformation β)
    (later : List LogLine) : List LogLine :=
  match reached with
  | .ok _ => earlier ++ later
  | .error _ => earlier

mutual

def lines (c : Context) (rule : Json) (path : String) : List LogLine :=
  match rule with
  | .obj [(operator, args)] =>
    if operator = "var" then letIn c args path
    else if operator = "not" then
      match args with
      | .arr [x] => lines c x (path ++ ".not")
      | x => lines c x (path ++ ".not")
    else if operator = "and" ∨ operator = "or" ∨ (CompareOperator.ofSymbol? operator).isSome then
      match args with
      | .arr [x, y] =>
        andThen (lines c x (itemPath path operator 0)) (infer c x (itemPath path operator 0))
          (lines c y (itemPath path operator 1))
      | _ => []
    else if operator = "if" then
      match args with
      | .arr [condition, whenTrue, whenFalse] =>
        andThen (lines c condition (itemPath path operator 0))
          (do expectBoolean (← infer c condition (itemPath path operator 0)) path)
          (andThen (lines c whenTrue (itemPath path operator 1))
            (inferBranch c whenTrue (itemPath path operator 1))
            (lines c whenFalse (itemPath path operator 2)))
      | _ => []
    else []
  | _ => []

end

def lineList (c : Context) (index : Nat) : List Json → List LogLine
  | [] => []
  | rule :: rest =>
    andThen (lines c rule (rulePath index)) (infer c rule (rulePath index))
      (lineList c (index + 1) rest)

/-- The lines that checking a document leaves in the log. -/
def checkLines (c : Context) (document : Json) : List LogLine :=
  match rulesOf document with
  | .ok rules => lineList c 0 rules
  | .error _ => []

end RuleCanvas.Rule
