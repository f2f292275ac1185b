import RuleCanvas.Rule.Document

/-! # Planning an import

A rule is planned as a tree of nodes before any node is made. Nothing makes planning fail: what is
no rule becomes a string constant that holds its canonical text, and every such repair is reported
as an issue with the path of the fragment. Logic over more than two operands nests to the left, and
an else-if chain nests on the false branch.
-/

namespace RuleCanvas

/-- A fragment that was not imported as written. -/
structure ImportIssue where
  path : String
  message : String
  deriving DecidableEq, Repr

mutual

/-- A planned node with what feeds its inputs. -/
inductive Plan where
  | node (payload : Payload) (path : String) (inputs : Inputs)

/-- The inputs of a planned node from the first on; those after the last listed stay unwired. -/
inductive Inputs where
  | done
  | unwired (rest : Inputs)
  | wired (plan : Plan) (rest : Inputs)

end

namespace Plan

def payload : Plan → Payload
  | node payload _ _ => payload

def path : Plan → String
  | node _ path _ => path

def inputs : Plan → Inputs
  | node _ _ inputs => inputs

def leaf (payload : Payload) (path : String) : Plan := node payload path .done

end Plan

/-- Inputs in order, an absent one left unwired. -/
def Inputs.ofList : List (Option Plan) → Inputs
  | [] => .done
  | none :: rest => .unwired (ofList rest)
  | some plan :: rest => .wired plan (ofList rest)

mutual

/-- The number of rows that a planned node takes: one, or those of its inputs. -/
def Plan.rows : Plan → Nat
  | .node _ _ inputs => max 1 inputs.rows

def Inputs.rows : Inputs → Nat
  | .done => 0
  | .unwired rest => rest.rows
  | .wired plan rest => plan.rows + rest.rows

end

namespace Plan

open Rule

/-- What planning a rule gives: a plan, or none for `null`, and the issues in order. -/
abbrev Draft := Option Plan × List ImportIssue

/-- The stand-in for a fragment that is no rule. -/
def placeholder (rule : Json) (path message : String) : Draft :=
  (some (leaf (.constant (.str rule.canonicalText)) path), [⟨path, message⟩])

/-- The plan of a variable; `args` names it, perhaps as the first of a list. -/
def ofVariable (c : Context) (args : Json) (path : String) : Draft :=
  let rule := Json.obj [("var", args)]
  match variableKey? args with
  | none => placeholder rule path "'var' must name a variable"
  | some key =>
    let dropped :=
      match args with
      | .arr (_ :: _ :: _) =>
        [ImportIssue.mk path ("Default value of variable '" ++ key ++ "' dropped")]
      | _ => []
    if c.catalog.contains key then (some (leaf (.var key) path), dropped)
    else if c.lenient then
      (some (leaf (.var key) path),
        dropped ++ [⟨path, "Unknown variable '" ++ key ++ "' imported with type any"⟩])
    else
      let (plan, issues) := placeholder rule path ("Unknown variable '" ++ key ++ "'")
      (plan, dropped ++ issues)

def ofNegation (operand : Draft) (path : String) : Draft :=
  (some (node (.logic .not) path (Inputs.ofList [operand.1])), operand.2)

/-- Folds the operands of a logic node to the left. -/
def fold (operator : LogicOperator) (path : String) (first : Plan) : List (Option Plan) → Plan
  | [] => first
  | operand :: rest =>
    fold operator path
      (node (.logic operator) path (Inputs.ofList [some first, operand])) rest

def ofLogic (operator : LogicOperator) (args : Json) (operands : List Draft) (path : String) :
    Draft :=
  let issues := operands.flatMap (·.2)
  let symbol := operator.symbol
  match operands.map (·.1) with
  | [] =>
    placeholder (.obj [(symbol, args)]) path ("'" ++ symbol ++ "' requires a list of operands")
  | [none] =>
    (some (node (.logic operator) path (Inputs.ofList [none, none])),
      issues ++ [⟨path, "Single null operand of '" ++ symbol ++ "' left unwired"⟩])
  | [some operand] =>
    (some operand, issues ++ [⟨path, "Single-operand '" ++ symbol ++ "' unwrapped"⟩])
  | a :: b :: rest =>
    let folded :=
      if rest.isEmpty then []
      else [ImportIssue.mk path (toString (rest.length + 2) ++ "-operand '" ++ symbol ++
        "' folded into binary nodes")]
    (some (fold operator path (node (.logic operator) path (Inputs.ofList [a, b])) rest),
      issues ++ folded)

/-- The issues of `null` where a choice has a default of its own. -/
def nullIssues (condition whenTrue : Json) (path : String) : List ImportIssue :=
  (match condition with
    | .null => [⟨itemPath path "if" 0, "Null condition left unwired (compiles to true)"⟩]
    | _ => []) ++
  (match whenTrue with
    | .null =>
      [⟨itemPath path "if" 1, "Null true-branch left unwired (compiles to \"PRESENT\")"⟩]
    | _ => [])

mutual

def ofRule (c : Context) (rule : Json) (path : String) : Draft :=
  match rule with
  | .null => (none, [])
  | .bool b => (some (leaf (.constant (.bool b)) path), [])
  | .int n => (some (leaf (.constant (.int n)) path), [])
  | .float x => (some (leaf (.constant (.float x)) path), [])
  | .str s => (some (leaf (.constant (.str s)) path), [])
  | .obj [(operator, args)] =>
    if operator = "var" then ofVariable c args path
    else if operator = "not" then
      match args with
      | .arr [x] => ofNegation (ofRule c x (path ++ ".not")) path
      | .arr _ => placeholder (.obj [(operator, args)]) path "'not' requires exactly 1 operand"
      | x => ofNegation (ofRule c x (path ++ ".not")) path
    else if operator = "and" then
      match args with
      | .arr items => ofLogic .and args (ofItems c items path operator 0) path
      | _ => ofLogic .and args [] path
    else if operator = "or" then
      match args with
      | .arr items => ofLogic .or args (ofItems c items path operator 0) path
      | _ => ofLogic .or args [] path
    else
      match CompareOperator.ofSymbol? operator with
      | some o =>
        match args with
        | .arr [x, y] =>
          let (left, leftIssues) := ofRule c x (itemPath path operator 0)
          let (right, rightIssues) := ofRule c y (itemPath path operator 1)
          (some (node (.compare o) path (Inputs.ofList [left, right])), leftIssues ++ rightIssues)
        | _ =>
          placeholder (.obj [(operator, args)]) path
            ("'" ++ operator ++ "' requires exactly 2 operands")
      | none =>
        if operator = "if" then
          match args with
          | .arr items => ofChoice c items path
          | _ => placeholder (.obj [(operator, args)]) path "'if' requires at least 2 operands"
        else placeholder (.obj [(operator, args)]) path ("Unknown operator '" ++ operator ++ "'")
  | rule => placeholder rule path "Unrecognized rule shape"

/-- The plans of the operands of an operator, from `index` on. -/
def ofItems (c : Context) (items : List Json) (path operator : String) (index : Nat) :
    List Draft :=
  match items with
  | [] => []
  | x :: xs =>
    ofRule c x (itemPath path operator index) :: ofItems c xs path operator (index + 1)

/-- The plan of a choice. A chain of more than three operands is planned from its end: the rest of
the chain first, then the condition and the true branch in front of it. -/
def ofChoice (c : Context) (items : List Json) (path : String) : Draft :=
  match items with
  | [condition, whenTrue] =>
    let (i0, issues0) := ofRule c condition (itemPath path "if" 0)
    let (i1, issues1) := ofRule c whenTrue (itemPath path "if" 1)
    (some (node .choice path (Inputs.ofList [i0, i1, none])),
      issues0 ++ issues1 ++ nullIssues condition whenTrue path)
  | [condition, whenTrue, whenFalse] =>
    let (i0, issues0) := ofRule c condition (itemPath path "if" 0)
    let (i1, issues1) := ofRule c whenTrue (itemPath path "if" 1)
    let (i2, issues2) := ofRule c whenFalse (itemPath path "if" 2)
    (some (node .choice path (Inputs.ofList [i0, i1, i2])),
      issues0 ++ issues1 ++ issues2 ++ nullIssues condition whenTrue path)
  | condition :: whenTrue :: rest =>
    let folded := ImportIssue.mk path
      (toString (rest.length + 2) ++ "-operand 'if' folded into nested if nodes")
    let (i2, issues2) := ofChoice c rest (path ++ ".if[2:]")
    let (i0, issues0) := ofRule c condition (itemPath path "if" 0)
    let (i1, issues1) := ofRule c whenTrue (itemPath path "if" 1)
    (some (node .choice path (Inputs.ofList [i0, i1, i2])),
      folded :: issues2 ++ issues0 ++ issues1 ++ nullIssues condition whenTrue path)
  | items => placeholder (.obj [("if", .arr items)]) path "'if' requires at least 2 operands"

end

end Plan

end RuleCanvas
