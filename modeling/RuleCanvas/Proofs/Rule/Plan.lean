import RuleCanvas.Proofs.Graph.Wired
import RuleCanvas.Rule.Compile
import RuleCanvas.Rule.Import

/-! # What a plan stands for

A plan says which graph an import makes. Here the same is read off it without a graph: the rule that
the graph compiles to, where a feed whose type does not fit its input is left out, and the issues
that those feeds cause.
-/

namespace RuleCanvas

/-! ## Types -/

/-- The type of the single output of a payload's node. -/
def Payload.type (c : Catalog) (p : Payload) : ValueType := (p.outputType? c 0).getD .any

/-- The type that an input asks for. -/
def NodeKind.expected (kind : NodeKind) (index : Nat) : ValueType :=
  (kind.inputType? index).getD .any

theorem NodeKind.inputType?_of_lt {kind : NodeKind} {index : Nat} (hlt : index < kind.inputCount) :
    kind.inputType? index = some (kind.expected index) := by
  have hport : kind.inputs[index]? = some kind.inputs[index] := List.getElem?_eq_getElem hlt
  rw [expected, inputType?, hport]
  rfl

/-- Booleans are asked for by the operands of logic and the condition of a choice. -/
theorem NodeKind.expected_eq_boolean_iff {kind : NodeKind} {index : Nat} :
    kind.expected index = .boolean ↔ kind = .logic ∧ index < 2 ∨ kind = .choice ∧ index = 0 := by
  rcases index with _ | _ | _ | index <;> cases kind <;> simp [expected, inputType?, inputs]

/-- Inputs ask for a boolean or for anything. -/
theorem NodeKind.expected_eq_boolean_or_any (kind : NodeKind) (index : Nat) :
    kind.expected index = .boolean ∨ kind.expected index = .any := by
  rcases index with _ | _ | _ | index <;> cases kind <;> simp [expected, inputType?, inputs]

theorem Payload.outputType?_of_ne {p : Payload} (hp : p ≠ .result) (c : Catalog) :
    p.outputType? c 0 = some (p.type c) := by
  cases p with
  | result => exact absurd rfl hp
  | _ => rfl

/-- What feeds an input has an output of a type that the input accepts. -/
theorem Graph.Wired.source_of_incoming? {α : Type} {c : Catalog} {g : Graph α} (hg : g.Wired c)
    {id : String} {index : Nat} {p : Payload} (hpayload : g.payload? id = some p) {e : Edge}
    (hin : g.incoming? ⟨id, index⟩ = some e) :
    ∃ source, g.payload? e.source.node = some source ∧ source ≠ .result ∧
      ValueType.compatible (source.type c) (p.kind.expected index) = true := by
  obtain ⟨he, htarget⟩ := (hg.incoming?_eq_some_iff _ e).mp hin
  obtain ⟨source, q, hsource, hq, hlt, sourceType, targetType, hsourceType, htargetType, hfits⟩ :=
    hg.fits e he
  rw [htarget, hpayload] at hq
  cases hq
  have hresult : source ≠ .result := by
    rintro rfl
    exact Nat.not_lt_zero _ hlt
  have hport : e.source.port = 0 := by
    have := source.kind.outputCount_le_one
    omega
  rw [hport, Payload.outputType?_of_ne hresult] at hsourceType
  rw [htarget, NodeKind.inputType?_of_lt (NodeKind.inputType?_eq_some_lt htargetType)]
    at htargetType
  cases hsourceType
  cases htargetType
  exact ⟨source, hsource, hresult, hfits⟩

namespace Rule

/-- The type of the node that compiles to a rule. -/
def typeOf (c : Catalog) : Json → ValueType
  | .bool _ => .boolean
  | .int _ => .number
  | .float _ => .number
  | .str _ => .string
  | .obj [(operator, args)] =>
    if operator = "var" then
      match args with
      | .str key => c.typeOf key
      | _ => .any
    else if operator = "if" then .any
    else .boolean
  | _ => .any

theorem typeOf_rule {p : Payload} (hp : p ≠ .result) (c : Catalog) (input : Nat → Option Json) :
    typeOf c (p.rule input) = p.type c := by
  cases p with
  | logic o => cases o <;> simp [Payload.rule, typeOf, LogicOperator.symbol] <;> rfl
  | compare o => cases o <;> simp [Payload.rule, typeOf, CompareOperator.symbol] <;> rfl
  | var key => simp [Payload.rule, typeOf, Payload.type, Payload.outputType?]
  | constant l => cases l <;> rfl
  | choice => simp [Payload.rule, typeOf]; rfl
  | result => exact absurd rfl hp

theorem rule_ne_null {p : Payload} (hp : p ≠ .result) (input : Nat → Option Json) :
    p.rule input ≠ .null := by
  cases p with
  | logic o => cases o <;> simp [Payload.rule]
  | constant l => cases l <;> simp [Payload.rule, Literal.toJson]
  | result => exact absurd rfl hp
  | _ => simp [Payload.rule]

theorem rule_ne_arr (p : Payload) (input : Nat → Option Json) (items : List Json) :
    p.rule input ≠ .arr items := by
  cases p with
  | logic o => cases o <;> simp [Payload.rule]
  | constant l => cases l <;> simp [Payload.rule, Literal.toJson]
  | _ => simp [Payload.rule]

end Rule

/-! ## The rule of a plan -/

mutual

/-- The rule that a plan compiles to once it is placed. -/
def Plan.rule (c : Catalog) : Plan → Json
  | .node payload _ inputs => payload.rule fun index => (inputs.rules c payload.kind 0)[index]?.join

/-- The rules at the inputs from `index` on, none where an input is left unwired. -/
def Inputs.rules (c : Catalog) (kind : NodeKind) (index : Nat) : Inputs → List (Option Json)
  | .done => []
  | .unwired rest => none :: rest.rules c kind (index + 1)
  | .wired plan rest =>
    (if ValueType.compatible (plan.payload.type c) (kind.expected index) then some (plan.rule c)
      else none) :: rest.rules c kind (index + 1)

end

/-- The issue of a feed whose type does not fit its input. -/
def Rule.misfit (path : String) (source target : ValueType) : List ImportIssue :=
  if ValueType.compatible source target then []
  else [⟨path, "Type mismatch: cannot connect " ++ source.name ++ " to " ++ target.name ++
    "; operand left unwired"⟩]

/-- Whether a message says, in the end, that an operand was left unwired. -/
def Rule.saysUnwired (message : String) : Bool :=
  "operand left unwired".toList.isSuffixOf message.toList

/-- The last part of a message decides that it does not say so, if neither of it and the words is
the end of the other. -/
theorem Rule.saysUnwired_append (start : String) {tail : String}
    (htail : ("operand left unwired".toList.isSuffixOf tail.toList ||
      tail.toList.isSuffixOf "operand left unwired".toList) = false) :
    saysUnwired (start ++ tail) = false := by
  rw [Bool.or_eq_false_iff] at htail
  rw [saysUnwired, ← Bool.not_eq_true, List.isSuffixOf_iff_suffix, String.toList_append]
  intro hend
  rcases List.suffix_or_suffix_of_suffix hend (List.suffix_append _ _) with hshort | hlong
  · rw [← List.isSuffixOf_iff_suffix, htail.1] at hshort
    cases hshort
  · rw [← List.isSuffixOf_iff_suffix, htail.2] at hlong
    cases hlong

/-- The issues of the feeds of one node, from `index` on. -/
def Inputs.misfits (c : Catalog) (kind : NodeKind) (index : Nat) : Inputs → List ImportIssue
  | .done => []
  | .unwired rest => rest.misfits c kind (index + 1)
  | .wired plan rest =>
    Rule.misfit plan.path (plan.payload.type c) (kind.expected index) ++
      rest.misfits c kind (index + 1)

mutual

/-- The issues of all feeds in a plan, those further up first. -/
def Plan.allMisfits (c : Catalog) : Plan → List ImportIssue
  | .node payload _ inputs => inputs.allMisfits c ++ inputs.misfits c payload.kind 0

def Inputs.allMisfits (c : Catalog) : Inputs → List ImportIssue
  | .done => []
  | .unwired rest => rest.allMisfits c
  | .wired plan rest => plan.allMisfits c ++ rest.allMisfits c

end

/-! ## Plans that can be placed -/

/-- A payload that may stand in a plan: no Result, and no variable without a name or one that would
be refused. -/
structure Payload.Placeable (c : Rule.Context) (p : Payload) : Prop where
  ne_result : p ≠ .result
  named : ∀ key, p = .var key → key ≠ ""
  known : ∀ key, p = .var key → c.catalog.contains key = true ∨ c.lenient = true

def Inputs.length : Inputs → Nat
  | .done => 0
  | .unwired rest => rest.length + 1
  | .wired _ rest => rest.length + 1

mutual

/-- A plan whose payloads may stand in it and that has no more inputs listed than there are. -/
def Plan.Proper (c : Rule.Context) : Plan → Prop
  | .node payload _ inputs =>
    payload.Placeable c ∧ inputs.length ≤ payload.kind.inputCount ∧ inputs.Proper c

def Inputs.Proper (c : Rule.Context) : Inputs → Prop
  | .done => True
  | .unwired rest => rest.Proper c
  | .wired plan rest => plan.Proper c ∧ rest.Proper c

end

namespace Plan

variable {c : Rule.Context}

theorem Proper.placeable {plan : Plan} (hplan : plan.Proper c) : plan.payload.Placeable c := by
  cases plan with
  | node payload path inputs => exact hplan.1

theorem typeOf_rule {plan : Plan} (hplan : plan.Proper c) :
    Rule.typeOf c.catalog (plan.rule c.catalog) = plan.payload.type c.catalog := by
  cases plan with
  | node payload path inputs =>
      rw [rule]
      exact Rule.typeOf_rule hplan.1.ne_result _ _

theorem rule_ne_null {plan : Plan} (hplan : plan.Proper c) : plan.rule c.catalog ≠ .null := by
  cases plan with
  | node payload path inputs =>
      rw [rule]
      exact Rule.rule_ne_null hplan.1.ne_result _

/-! ## Planning by operator -/

open Rule

/-- The operators that rules are written with, and any other. -/
inductive OperatorView : String → Prop
  | var : OperatorView "var"
  | not : OperatorView "not"
  | logic (o : LogicOperator) (ho : o ≠ .not) : OperatorView o.symbol
  | compare (o : CompareOperator) : OperatorView o.symbol
  | choice : OperatorView "if"
  | unknown (operator : String) (hvar : operator ≠ "var") (hnot : operator ≠ "not")
      (hand : operator ≠ "and") (hor : operator ≠ "or") (hchoice : operator ≠ "if")
      (hcompare : CompareOperator.ofSymbol? operator = none) : OperatorView operator

theorem operatorView (operator : String) : OperatorView operator := by
  by_cases hvar : operator = "var"
  · exact hvar ▸ .var
  by_cases hnot : operator = "not"
  · exact hnot ▸ .not
  by_cases hand : operator = "and"
  · exact hand ▸ .logic .and (by decide)
  by_cases hor : operator = "or"
  · exact hor ▸ .logic .or (by decide)
  by_cases hchoice : operator = "if"
  · exact hchoice ▸ .choice
  cases hcompare : CompareOperator.ofSymbol? operator with
  | none => exact .unknown operator hvar hnot hand hor hchoice hcompare
  | some o =>
      have hsymbol : o.symbol = operator := by
        unfold CompareOperator.ofSymbol? at hcompare
        split at hcompare <;> cases hcompare <;> rfl
      exact hsymbol ▸ .compare o

variable (c) (path : String)

theorem ofRule_null : ofRule c .null path = (none, []) := by
  rw [ofRule]

theorem ofRule_var (args : Json) :
    ofRule c (.obj [("var", args)]) path = ofVariable c args path := by
  unfold ofRule
  simp

theorem ofRule_not_single (x : Json) :
    ofRule c (.obj [("not", .arr [x])]) path = ofNegation (ofRule c x (path ++ ".not")) path := rfl

theorem ofRule_not_value {args : Json} (hargs : ∀ items, args ≠ .arr items) :
    ofRule c (.obj [("not", args)]) path = ofNegation (ofRule c args (path ++ ".not")) path := by
  cases args with
  | arr items => exact absurd rfl (hargs items)
  | _ => rfl

theorem ofRule_logic {o : LogicOperator} (ho : o ≠ .not) (items : List Json) :
    ofRule c (.obj [(o.symbol, .arr items)]) path =
      ofLogic o (.arr items) (ofItems c items path o.symbol 0) path := by
  cases o with
  | not => exact absurd rfl ho
  | _ =>
      unfold ofRule
      simp [LogicOperator.symbol]

theorem ofRule_compare (o : CompareOperator) (x y : Json) :
    ofRule c (.obj [(o.symbol, .arr [x, y])]) path =
      (some (node (.compare o) path (Inputs.ofList
        [(ofRule c x (itemPath path o.symbol 0)).1, (ofRule c y (itemPath path o.symbol 1)).1])),
        (ofRule c x (itemPath path o.symbol 0)).2 ++
          (ofRule c y (itemPath path o.symbol 1)).2) := by
  cases o <;> rfl

theorem ofRule_choice (items : List Json) :
    ofRule c (.obj [("if", .arr items)]) path = ofChoice c items path := by
  unfold ofRule
  simp [CompareOperator.ofSymbol?]

theorem ofChoice_pair (condition whenTrue : Json) :
    ofChoice c [condition, whenTrue] path =
      (some (node .choice path (Inputs.ofList [(ofRule c condition (itemPath path "if" 0)).1,
        (ofRule c whenTrue (itemPath path "if" 1)).1, none])),
        (ofRule c condition (itemPath path "if" 0)).2 ++
          (ofRule c whenTrue (itemPath path "if" 1)).2 ++
          nullIssues condition whenTrue path) := by
  rw [ofChoice]

theorem ofChoice_triple (condition whenTrue whenFalse : Json) :
    ofChoice c [condition, whenTrue, whenFalse] path =
      (some (node .choice path (Inputs.ofList [(ofRule c condition (itemPath path "if" 0)).1,
        (ofRule c whenTrue (itemPath path "if" 1)).1,
        (ofRule c whenFalse (itemPath path "if" 2)).1])),
        (ofRule c condition (itemPath path "if" 0)).2 ++
          (ofRule c whenTrue (itemPath path "if" 1)).2 ++
          (ofRule c whenFalse (itemPath path "if" 2)).2 ++ nullIssues condition whenTrue path) := by
  rw [ofChoice]

end Plan

end RuleCanvas
