import Mathlib.Data.List.Forall2
import RuleCanvas.Proofs.Rule.Placement

/-! # Normal forms of rules

What an import makes of a rule can be said without a graph, as a recursion from JSON to JSON. What
is no rule becomes its canonical text, logic becomes binary, an else-if chain becomes nested, and an
operand that is no boolean where one is asked for is dropped. Importing a document and compiling the
graph is the same as taking the normal forms of its rules.
-/

namespace RuleCanvas.Rule

/-! ## The recursion -/

/-- A rule where a boolean is asked for: itself if its type fits, else `null`. -/
def operand (c : Catalog) (rule : Json) : Json :=
  if ValueType.compatible (typeOf c rule) .boolean then rule else .null

/-- A rule, or a default in place of `null`. -/
def orElse (default : Json) : Json → Json
  | .null => default
  | rule => rule

/-- What stands for a fragment that is no rule. -/
def asText (fragment : Json) : Json := .str fragment.canonicalText

/-- A binary logic operator over a first rule and more, nested to the left. -/
def chain (c : Catalog) (symbol : String) : Json → List Json → Json
  | first, [] => first
  | first, next :: rest =>
    chain c symbol (.obj [(symbol, .arr [operand c first, operand c next])]) rest

/-- A binary logic operator over any number of rules. One rule stands for itself. -/
def joined (c : Catalog) (symbol : String) (args : Json) : List Json → Json
  | [] => asText (.obj [(symbol, args)])
  | [rule] => orElse (.obj [(symbol, .arr [.null, .null])]) rule
  | first :: second :: rest => chain c symbol first (second :: rest)

/-- A choice with the defaults that it has in place of `null`. -/
def chosen (c : Catalog) (condition whenTrue whenFalse : Json) : Json :=
  .obj [("if", .arr [orElse (.bool true) (operand c condition), orElse (.str "PRESENT") whenTrue,
    whenFalse])]

mutual

/-- The normal form of a rule. -/
def normal (c : Context) : Json → Json
  | .obj [(operator, args)] =>
    if operator = "var" then
      match variableKey? args with
      | some key =>
        if c.catalog.contains key || c.lenient then .obj [("var", .str key)]
        else asText (.obj [(operator, args)])
      | none => asText (.obj [(operator, args)])
    else if operator = "not" then
      match args with
      | .arr [x] => .obj [("not", operand c.catalog (normal c x))]
      | .arr _ => asText (.obj [(operator, args)])
      | x => .obj [("not", operand c.catalog (normal c x))]
    else if operator = "and" ∨ operator = "or" then
      match args with
      | .arr items => joined c.catalog operator args (normalItems c items)
      | _ => asText (.obj [(operator, args)])
    else if (CompareOperator.ofSymbol? operator).isSome then
      match args with
      | .arr [x, y] => .obj [(operator, .arr [normal c x, normal c y])]
      | _ => asText (.obj [(operator, args)])
    else if operator = "if" then
      match args with
      | .arr items => normalChoice c items
      | _ => asText (.obj [(operator, args)])
    else asText (.obj [(operator, args)])
  | .obj members => asText (.obj members)
  | .arr items => asText (.arr items)
  | literal => literal

def normalItems (c : Context) : List Json → List Json
  | [] => []
  | x :: xs => normal c x :: normalItems c xs

/-- The normal form of a choice over its operands; what follows the first two is its false branch,
as a choice of its own if there is more than one operand left. -/
def normalChoice (c : Context) : List Json → Json
  | [condition, whenTrue] => chosen c.catalog (normal c condition) (normal c whenTrue) .null
  | [condition, whenTrue, whenFalse] =>
    chosen c.catalog (normal c condition) (normal c whenTrue) (normal c whenFalse)
  | condition :: whenTrue :: rest =>
    chosen c.catalog (normal c condition) (normal c whenTrue) (normalChoice c rest)
  | items => asText (.obj [("if", .arr items)])

end

/-! ## Plans of normal forms -/

/-- A plan compiles to a rule; there is none for `null`. -/
def Stands (c : Context) : Option Plan → Json → Prop
  | none, rule => rule = .null
  | some plan, rule => plan.Proper c ∧ plan.rule c.catalog = rule

/-- What an input of a type reads from a plan. -/
def fed (c : Catalog) (plan : Option Plan) (expected : ValueType) : Option Json :=
  plan.bind fun p =>
    if ValueType.compatible (p.payload.type c) expected then some (p.rule c) else none

variable {c : Context}

theorem rules_ofList_cons (c : Catalog) (kind : NodeKind) (index : Nat) (plan : Option Plan)
    (rest : List (Option Plan)) :
    (Inputs.ofList (plan :: rest)).rules c kind index =
      fed c plan (kind.expected index) :: (Inputs.ofList rest).rules c kind (index + 1) := by
  cases plan <;> rfl

theorem length_ofList (plans : List (Option Plan)) :
    (Inputs.ofList plans).length = plans.length := by
  induction plans with
  | nil => rfl
  | cons plan rest ih => cases plan <;> simp [Inputs.ofList, Inputs.length, ih]

theorem proper_ofList {plans : List (Option Plan)}
    (hplans : ∀ plan ∈ plans, ∀ p ∈ plan, p.Proper c) :
    (Inputs.ofList plans).Proper c := by
  induction plans with
  | nil => trivial
  | cons plan rest ih =>
      have hrest := ih fun p hp => hplans p (List.mem_cons_of_mem _ hp)
      cases plan with
      | none => exact hrest
      | some plan => exact ⟨hplans _ List.mem_cons_self plan rfl, hrest⟩

theorem Stands.proper {plan : Option Plan} {rule : Json} (hstands : Stands c plan rule) :
    ∀ p ∈ plan, p.Proper c := by
  rintro p hp
  cases hp
  exact hstands.1

theorem orElse_of_ne {default rule : Json} (hrule : rule ≠ .null) : orElse default rule = rule := by
  cases rule <;> first | rfl | exact absurd rfl hrule

/-- An input of any type reads the rule that a plan stands for. -/
theorem Stands.fed_any {plan : Option Plan} {rule : Json} (hstands : Stands c plan rule)
    (default : Json) : (fed c.catalog plan .any).getD default = orElse default rule := by
  cases plan with
  | none =>
      rw [show rule = .null from hstands]
      rfl
  | some plan =>
      obtain ⟨hproper, rfl⟩ := hstands
      have hfits : ValueType.compatible (plan.payload.type c.catalog) .any = true := by
        cases plan.payload.type c.catalog <;> rfl
      rw [orElse_of_ne (Plan.rule_ne_null hproper), fed, Option.bind_some, if_pos hfits]
      rfl

/-- A boolean input reads the operand that it is. -/
theorem Stands.fed_boolean {plan : Option Plan} {rule : Json} (hstands : Stands c plan rule)
    (default : Json) :
    (fed c.catalog plan .boolean).getD default = orElse default (operand c.catalog rule) := by
  cases plan with
  | none =>
      rw [show rule = .null from hstands]
      rfl
  | some plan =>
      obtain ⟨hproper, rfl⟩ := hstands
      rw [operand, Plan.typeOf_rule hproper, fed, Option.bind_some]
      split
      · rw [orElse_of_ne (Plan.rule_ne_null hproper)]
        rfl
      · rfl

theorem orElse_null (rule : Json) : orElse .null rule = rule := by cases rule <;> rfl

/-- The rule of a planned node over what its inputs read. -/
theorem rule_ofList (payload : Payload) (path : String) (plans : List (Option Plan)) :
    (Plan.node payload path (Inputs.ofList plans)).rule c.catalog =
      payload.rule fun index =>
        ((Inputs.ofList plans).rules c.catalog payload.kind 0)[index]?.join := rfl

/-- A planned node over plans that may be placed. -/
theorem Stands.node {payload : Payload} {path : String} {plans : List (Option Plan)} {rule : Json}
    (hpayload : payload.Placeable c) (hlength : plans.length ≤ payload.kind.inputCount)
    (hplans : ∀ plan ∈ plans, ∀ p ∈ plan, p.Proper c)
    (hrule : (Plan.node payload path (Inputs.ofList plans)).rule c.catalog = rule) :
    Stands c (some (.node payload path (Inputs.ofList plans))) rule := by
  refine ⟨⟨hpayload, ?_, proper_ofList hplans⟩, hrule⟩
  rw [length_ofList]
  exact hlength

theorem stands_literal (c : Context) (l : Literal) (path : String) :
    Stands c (some (.leaf (.constant l) path)) l.toJson :=
  ⟨⟨⟨by simp, by simp, by simp⟩, Nat.zero_le _, trivial⟩, rfl⟩

theorem stands_placeholder (c : Context) (fragment : Json) (path message : String) :
    Stands c (Plan.placeholder fragment path message).1 (asText fragment) :=
  stands_literal c (.str fragment.canonicalText) path

theorem stands_variable {key : String} (path : String) (hkey : key ≠ "")
    (hknown : c.catalog.contains key = true ∨ c.lenient = true) :
    Stands c (some (.leaf (.var key) path)) (.obj [("var", .str key)]) := by
  refine ⟨⟨⟨by simp, ?_, ?_⟩, Nat.zero_le _, trivial⟩, rfl⟩
  · intro other hother
    rwa [← Payload.var.inj hother]
  · intro other hother
    rwa [← Payload.var.inj hother]

theorem Stands.not {plan : Option Plan} {rule : Json} (hstands : Stands c plan rule)
    (path : String) :
    Stands c (some (.node (.logic .not) path (Inputs.ofList [plan])))
      (.obj [("not", operand c.catalog rule)]) := by
  have hlength : [plan].length ≤ (Payload.logic .not).kind.inputCount := by
    simp [Payload.kind, NodeKind.inputCount, NodeKind.inputs]
  refine .node ⟨by simp, by simp, by simp⟩ hlength ?_ ?_
  · simpa using hstands.proper
  · have hfed := hstands.fed_boolean .null
    rw [orElse_null] at hfed
    rw [← hfed, rule_ofList, rules_ofList_cons]
    rfl

theorem Stands.logic {o : LogicOperator} (ho : o ≠ .not) {a b : Option Plan} {r s : Json}
    (ha : Stands c a r) (hb : Stands c b s) (path : String) :
    Stands c (some (.node (.logic o) path (Inputs.ofList [a, b])))
      (.obj [(o.symbol, .arr [operand c.catalog r, operand c.catalog s])]) := by
  refine .node ⟨by simp, by simp, by simp⟩ (Nat.le_refl 2) ?_ ?_
  · simpa using ⟨ha.proper, hb.proper⟩
  · have hfirst := ha.fed_boolean .null
    have hsecond := hb.fed_boolean .null
    rw [orElse_null] at hfirst hsecond
    rw [← hfirst, ← hsecond, rule_ofList, rules_ofList_cons, rules_ofList_cons]
    cases o with
    | not => exact absurd rfl ho
    | _ => rfl

theorem Stands.compare (o : CompareOperator) {a b : Option Plan} {r s : Json}
    (ha : Stands c a r) (hb : Stands c b s) (path : String) :
    Stands c (some (.node (.compare o) path (Inputs.ofList [a, b])))
      (.obj [(o.symbol, .arr [r, s])]) := by
  refine .node ⟨by simp, by simp, by simp⟩ (Nat.le_refl 2) ?_ ?_
  · simpa using ⟨ha.proper, hb.proper⟩
  · have hfirst := ha.fed_any .null
    have hsecond := hb.fed_any .null
    rw [orElse_null] at hfirst hsecond
    rw [← hfirst, ← hsecond, rule_ofList, rules_ofList_cons, rules_ofList_cons]
    rfl

theorem Stands.choice {condition whenTrue whenFalse : Option Plan} {r s t : Json}
    (hcondition : Stands c condition r) (htrue : Stands c whenTrue s)
    (hfalse : Stands c whenFalse t) (path : String) :
    Stands c (some (.node .choice path (Inputs.ofList [condition, whenTrue, whenFalse])))
      (chosen c.catalog r s t) := by
  refine .node ⟨by simp, by simp, by simp⟩ (Nat.le_refl 3) ?_ ?_
  · simpa using ⟨hcondition.proper, htrue.proper, hfalse.proper⟩
  · have hthird := hfalse.fed_any .null
    rw [orElse_null] at hthird
    rw [chosen, ← hcondition.fed_boolean, ← htrue.fed_any, ← hthird, rule_ofList, rules_ofList_cons,
      rules_ofList_cons, rules_ofList_cons]
    rfl

/-! ## Folding -/

theorem Stands.fold {o : LogicOperator} (ho : o ≠ .not) (path : String) {first : Plan} {r : Json}
    (hfirst : Stands c (some first) r) {plans : List (Option Plan)} {rules : List Json}
    (hrest : List.Forall₂ (Stands c) plans rules) :
    Stands c (some (Plan.fold o path first plans)) (chain c.catalog o.symbol r rules) := by
  induction hrest generalizing first r with
  | nil => exact hfirst
  | cons hnext _ ih => exact ih (hfirst.logic ho hnext path)

theorem ofLogic_stands {o : LogicOperator} (ho : o ≠ .not) (args : Json)
    {operands : List Plan.Draft} {rules : List Json} (path : String)
    (hoperands : List.Forall₂ (Stands c) (operands.map (·.1)) rules) :
    Stands c (Plan.ofLogic o args operands path).1 (joined c.catalog o.symbol args rules) := by
  rw [Plan.ofLogic]
  generalize operands.map (·.1) = plans at hoperands
  cases hoperands with
  | nil => exact stands_placeholder c _ path _
  | cons hfirst hrest =>
      rename_i first r plans rules
      -- A single operand stands for itself, more of them are folded to the left.
      cases hrest with
      | nil =>
          cases first with
          | none =>
              have hnone : Stands c none .null := rfl
              rw [show r = .null from hfirst]
              exact hnone.logic ho hnone path
          | some plan =>
              have hrule := Plan.rule_ne_null hfirst.1
              rw [hfirst.2] at hrule
              rw [joined, orElse_of_ne hrule]
              exact hfirst
      | cons hsecond hrest =>
          have hfolded := (hfirst.logic ho hsecond path).fold ho path hrest
          cases first <;> exact hfolded

/-! ## Planning -/

theorem variableKey?_ne_empty {args : Json} {key : String} (hkey : variableKey? args = some key) :
    key ≠ "" := by
  unfold variableKey? at hkey
  dsimp only at hkey
  split at hkey
  · split at hkey
    · cases hkey
    next hne =>
      cases hkey
      exact hne
  · cases hkey

theorem ofVariable_stands (c : Context) (args : Json) (path : String) :
    Stands c (Plan.ofVariable c args path).1 (normal c (.obj [("var", args)])) := by
  unfold Plan.ofVariable normal
  simp only [if_true]
  cases hnamed : variableKey? args with
  | none => exact stands_placeholder c _ path _
  | some key =>
      have hkey := variableKey?_ne_empty hnamed
      dsimp only
      by_cases hcontains : c.catalog.contains key = true
      · simp only [hcontains, if_true, Bool.true_or]
        exact stands_variable path hkey (.inl hcontains)
      · by_cases hlenient : c.lenient = true
        · simp only [hcontains, hlenient, if_true, Bool.or_true]
          exact stands_variable path hkey (.inr hlenient)
        · simp only [hcontains, hlenient, Bool.or_self]
          exact stands_placeholder c _ path ("Unknown variable '" ++ key ++ "'")

theorem normal_not_single (c : Context) (x : Json) :
    normal c (.obj [("not", .arr [x])]) = .obj [("not", operand c.catalog (normal c x))] := rfl

theorem normal_not_value (c : Context) {args : Json} (hargs : ∀ items, args ≠ .arr items) :
    normal c (.obj [("not", args)]) = .obj [("not", operand c.catalog (normal c args))] := by
  cases args with
  | arr items => exact absurd rfl (hargs items)
  | _ => rfl

theorem normal_logic (c : Context) {o : LogicOperator} (ho : o ≠ .not) (items : List Json) :
    normal c (.obj [(o.symbol, .arr items)]) =
      joined c.catalog o.symbol (.arr items) (normalItems c items) := by
  cases o with
  | not => exact absurd rfl ho
  | _ =>
      unfold normal
      simp [LogicOperator.symbol]

theorem normal_compare (c : Context) (o : CompareOperator) (x y : Json) :
    normal c (.obj [(o.symbol, .arr [x, y])]) =
      .obj [(o.symbol, .arr [normal c x, normal c y])] := by
  cases o <;> rfl

theorem normal_choice (c : Context) (items : List Json) :
    normal c (.obj [("if", .arr items)]) = normalChoice c items := by
  unfold normal
  simp [CompareOperator.ofSymbol?]

/-! ## Fragments that are no rules -/

/-- An operator with operands that it does not take, or a name that is no operator. -/
inductive NoRule : Json → Prop
  | not (items : List Json) (hitems : items.length ≠ 1) : NoRule (.obj [("not", .arr items)])
  | logic (o : LogicOperator) (ho : o ≠ .not) (args : Json) (hargs : ∀ items, args ≠ .arr items) :
      NoRule (.obj [(o.symbol, args)])
  | compare (o : CompareOperator) (args : Json) (hargs : ∀ x y, args ≠ .arr [x, y]) :
      NoRule (.obj [(o.symbol, args)])
  | choice (args : Json) (hargs : ∀ items, args ≠ .arr items) : NoRule (.obj [("if", args)])
  | unknown (operator : String) (args : Json) (hvar : operator ≠ "var") (hnot : operator ≠ "not")
      (hand : operator ≠ "and") (hor : operator ≠ "or") (hchoice : operator ≠ "if")
      (hcompare : CompareOperator.ofSymbol? operator = none) : NoRule (.obj [(operator, args)])

theorem NoRule.plan_eq {rule : Json} (hrule : NoRule rule) (c : Context) (path : String) :
    ∃ message, Plan.ofRule c rule path = Plan.placeholder rule path message ∧
      saysUnwired message = false := by
  unfold Plan.ofRule
  cases hrule with
  | not items hitems =>
      refine ⟨"'not' requires exactly 1 operand", ?_, by decide +kernel⟩
      cases items with
      | nil => rfl
      | cons x rest =>
          cases rest with
          | nil => exact absurd rfl hitems
          | cons y rest => rfl
  | logic o ho args hargs =>
      refine ⟨"'" ++ o.symbol ++ "' requires a list of operands", ?_,
        saysUnwired_append _ (by decide +kernel)⟩
      cases args with
      | arr items => exact absurd rfl (hargs items)
      | _ =>
          cases o with
          | not => exact absurd rfl ho
          | _ => rfl
  | compare o args hargs =>
      refine ⟨"'" ++ o.symbol ++ "' requires exactly 2 operands", ?_,
        saysUnwired_append _ (by decide +kernel)⟩
      cases o <;> simp [CompareOperator.symbol, CompareOperator.ofSymbol?]
  | choice args hargs =>
      refine ⟨"'if' requires at least 2 operands", ?_, by decide +kernel⟩
      cases args with
      | arr items => exact absurd rfl (hargs items)
      | _ => rfl
  | unknown operator args hvar hnot hand hor hchoice hcompare =>
      refine ⟨"Unknown operator '" ++ operator ++ "'", ?_,
        saysUnwired_append _ (by decide +kernel)⟩
      simp [hvar, hnot, hand, hor, hchoice, hcompare]

theorem NoRule.normal_eq {rule : Json} (hrule : NoRule rule) (c : Context) :
    normal c rule = asText rule := by
  unfold normal
  cases hrule with
  | not items hitems =>
      cases items with
      | nil => rfl
      | cons x rest =>
          cases rest with
          | nil => exact absurd rfl hitems
          | cons y rest => rfl
  | logic o ho args hargs =>
      cases args with
      | arr items => exact absurd rfl (hargs items)
      | _ =>
          cases o with
          | not => exact absurd rfl ho
          | _ => rfl
  | compare o args hargs => cases o <;> simp [CompareOperator.symbol, CompareOperator.ofSymbol?]
  | choice args hargs =>
      cases args with
      | arr items => exact absurd rfl (hargs items)
      | _ => rfl
  | unknown operator args hvar hnot hand hor hchoice hcompare =>
      simp [hvar, hnot, hand, hor, hchoice, hcompare]

theorem NoRule.stands {rule : Json} (hrule : NoRule rule) (c : Context) (path : String) :
    Stands c (Plan.ofRule c rule path).1 (normal c rule) := by
  obtain ⟨message, hplan, _⟩ := hrule.plan_eq c path
  rw [hplan, hrule.normal_eq c]
  exact stands_placeholder c rule path message

/-! ## Rules -/

mutual

/-- The plan of a rule compiles to its normal form. -/
theorem ofRule_stands (c : Context) (rule : Json) (path : String) :
    Stands c (Plan.ofRule c rule path).1 (normal c rule) := by
  match rule with
  | .null => exact rfl
  | .bool b => exact stands_literal c (.bool b) path
  | .int n => exact stands_literal c (.int n) path
  | .float x => exact stands_literal c (.float x) path
  | .str s => exact stands_literal c (.str s) path
  | .arr items => exact stands_placeholder c (.arr items) path _
  | .obj [] => exact stands_placeholder c (.obj []) path _
  | .obj (m :: n :: rest) => exact stands_placeholder c (.obj (m :: n :: rest)) path _
  | .obj [(operator, args)] =>
      -- One case for each shape of operands that an operator takes or refuses.
      cases Plan.operatorView operator with
      | var =>
          rw [Plan.ofRule_var]
          exact ofVariable_stands c args path
      | not =>
          match args with
          | .arr [x] =>
              rw [Plan.ofRule_not_single, normal_not_single]
              exact (ofRule_stands c x _).not path
          | .arr [] => exact (NoRule.not _ (by simp)).stands c path
          | .arr (x :: y :: rest) => exact (NoRule.not _ (by simp)).stands c path
          | .null => exact (show Stands c none .null from rfl).not path
          | .bool b => exact (stands_literal c (.bool b) _).not path
          | .int n => exact (stands_literal c (.int n) _).not path
          | .float x => exact (stands_literal c (.float x) _).not path
          | .str s => exact (stands_literal c (.str s) _).not path
          | .obj members =>
              rw [Plan.ofRule_not_value _ _ (by simp), normal_not_value _ (by simp)]
              exact (ofRule_stands c (.obj members) _).not path
      | logic o ho =>
          match args with
          | .arr items =>
              rw [Plan.ofRule_logic _ _ ho, normal_logic _ ho]
              exact ofLogic_stands ho (.arr items) path (ofItems_stands c items path o.symbol 0)
          | .null | .bool _ | .int _ | .float _ | .str _ | .obj _ =>
              exact (NoRule.logic o ho _ (by simp)).stands c path
      | compare o =>
          match args with
          | .arr [x, y] =>
              rw [Plan.ofRule_compare, normal_compare]
              exact (ofRule_stands c x _).compare o (ofRule_stands c y _) path
          | .arr [] | .arr [_] | .arr (_ :: _ :: _ :: _)
          | .null | .bool _ | .int _ | .float _ | .str _
          | .obj _ => exact (NoRule.compare o _ (by simp)).stands c path
      | choice =>
          match args with
          | .arr items =>
              rw [Plan.ofRule_choice, normal_choice]
              exact ofChoice_stands c items path
          | .null | .bool _ | .int _ | .float _ | .str _ | .obj _ =>
              exact (NoRule.choice _ (by simp)).stands c path
      | unknown _ hvar hnot hand hor hchoice hcompare =>
          exact (NoRule.unknown _ args hvar hnot hand hor hchoice hcompare).stands c path

theorem ofItems_stands (c : Context) (items : List Json) (path operator : String) (index : Nat) :
    List.Forall₂ (Stands c) ((Plan.ofItems c items path operator index).map (·.1))
      (normalItems c items) := by
  match items with
  | [] => rw [Plan.ofItems, normalItems]; exact .nil
  | x :: xs =>
      rw [Plan.ofItems, normalItems]
      exact .cons (ofRule_stands c x _) (ofItems_stands c xs path operator (index + 1))

theorem ofChoice_stands (c : Context) (items : List Json) (path : String) :
    Stands c (Plan.ofChoice c items path).1 (normalChoice c items) := by
  match items with
  | [] => exact stands_placeholder c (.obj [("if", .arr [])]) path _
  | [x] => exact stands_placeholder c (.obj [("if", .arr [x])]) path _
  | [condition, whenTrue] =>
      exact (ofRule_stands c condition _).choice (ofRule_stands c whenTrue _)
        (show Stands c none .null from rfl) path
  | [condition, whenTrue, whenFalse] =>
      exact (ofRule_stands c condition _).choice (ofRule_stands c whenTrue _)
        (ofRule_stands c whenFalse _) path
  | condition :: whenTrue :: x :: y :: rest =>
      exact (ofRule_stands c condition _).choice (ofRule_stands c whenTrue _)
        (ofChoice_stands c (x :: y :: rest) _) path

end

/-! ## Documents -/

def isNull : Json → Bool
  | .null => true
  | _ => false

/-- The normal forms of all rules but `null`, in order. -/
def normalRules (c : Context) (rules : List Json) : List Json :=
  (rules.filter fun rule => !isNull rule).map (normal c)

theorem Stands.map_rule {plan : Option Plan} {rule : Json} (hstands : Stands c plan rule) :
    plan.map (·.rule c.catalog) = if isNull rule then none else some rule := by
  cases plan with
  | none => rw [show rule = .null from hstands]; rfl
  | some plan =>
      obtain ⟨hproper, rfl⟩ := hstands
      have hne := Plan.rule_ne_null hproper
      cases hrule : plan.rule c.catalog <;> simp_all [isNull]

theorem chain_ne_null (c : Catalog) (symbol : String) {first : Json} (hfirst : first ≠ .null)
    (rest : List Json) : chain c symbol first rest ≠ .null := by
  induction rest generalizing first with
  | nil => exact hfirst
  | cons next rest ih => exact ih (by simp)

theorem joined_ne_null (c : Catalog) (symbol : String) (args : Json) (rules : List Json) :
    joined c symbol args rules ≠ .null := by
  match rules with
  | [] => simp [joined, asText]
  | [rule] => cases rule <;> simp [joined, orElse]
  | first :: second :: rest => exact chain_ne_null c symbol (by simp) rest

theorem normalChoice_ne_null (c : Context) (items : List Json) : normalChoice c items ≠ .null := by
  unfold normalChoice
  split <;> simp [chosen, asText]

theorem normal_ne_null (c : Context) {rule : Json} (hrule : rule ≠ .null) :
    normal c rule ≠ .null := by
  unfold normal
  repeat' split
  all_goals first
    | exact hrule
    | exact joined_ne_null _ _ _ _
    | exact normalChoice_ne_null _ _
    | simp [asText]

theorem isNull_of_ne {rule : Json} (hrule : rule ≠ .null) : isNull rule = false := by
  cases rule <;> first | rfl | exact absurd rfl hrule

/-- Only `null` has the normal form `null`. -/
theorem isNull_normal (c : Context) (rule : Json) : isNull (normal c rule) = isNull rule := by
  by_cases hrule : rule = .null
  · rw [hrule]
    rfl
  · rw [isNull_of_ne hrule, isNull_of_ne (normal_ne_null c hrule)]

theorem normalRules_eq_filterMap (c : Context) (rules : List Json) :
    normalRules c rules = rules.filterMap fun rule =>
      if isNull rule then none else some (normal c rule) := by
  induction rules with
  | nil => rfl
  | cons rule rest ih =>
      rw [normalRules] at ih
      cases hnull : isNull rule <;> simp [normalRules, hnull, ih]

/-- The plans of a document compile to the normal forms of its rules. -/
theorem compiledRules_plans {α : Type} (i : Importer α) (rules : List Json) :
    i.compiledRules ((i.plans rules).map (·.1)) = normalRules i.context rules := by
  have hrule : ∀ r ∈ rules.zipIdx, ((Plan.ofRule i.context r.1 (rulePath r.2)).1.map
      (·.rule i.context.catalog)) = if isNull r.1 then none else some (normal i.context r.1) := by
    intro r _
    rw [(ofRule_stands i.context r.1 (rulePath r.2)).map_rule, isNull_normal]
  calc i.compiledRules ((i.plans rules).map (·.1))
      = rules.zipIdx.filterMap fun r => (Plan.ofRule i.context r.1 (rulePath r.2)).1.map
          (·.rule i.context.catalog) := by
        rw [Importer.compiledRules, Importer.plans, List.map_map, List.filterMap_map]
        rfl
    _ = rules.zipIdx.filterMap fun r =>
          if isNull r.1 then none else some (normal i.context r.1) := List.filterMap_congr hrule
    _ = (rules.zipIdx.map Prod.fst).filterMap fun rule =>
          if isNull rule then none else some (normal i.context rule) := by
        rw [List.filterMap_map]
        rfl
    _ = normalRules i.context rules := by
        rw [List.zipIdx_map_fst, normalRules_eq_filterMap]

theorem plans_proper {α : Type} (i : Importer α) (rules : List Json) :
    ∀ draft ∈ i.plans rules, ∀ p ∈ draft.1, p.Proper i.context := by
  intro draft hdraft
  obtain ⟨r, _, rfl⟩ := List.mem_map.mp hdraft
  exact (ofRule_stands i.context r.1 (rulePath r.2)).proper

/-- Results that are fed as the rules of a document are planned compile to their normal forms. -/
theorem ruleTree_of_holdsRules {α : Type} {i : Importer α} {g : Graph α} {rules : List Json}
    (hwired : g.Wired i.context.catalog)
    (hholds : g.HoldsRules i.context.catalog (g.ofKind .result) ((i.plans rules).map (·.1))) :
    g.ruleTree = .obj [("status_rules", .arr (normalRules i.context rules))] := by
  rw [Graph.ruleTree, Graph.rules, hholds.compileRules hwired]
  exact congrArg (fun compiled => Json.obj [("status_rules", .arr compiled)])
    (compiledRules_plans i rules)

/-- The import of a document with a list of rules succeeds at every desk with the catalog of the
importer. Its graph compiles to the normal forms of the rules. -/
theorem run_normal (i : Importer Double) {d : Desk Double}
    (hcatalog : d.catalog = i.context.catalog)
    (hguarded : d.store.guarded = true) (hnames : Function.Injective d.journal.ids.name)
    {document : Json} {rules : List Json} (hrules : rulesOf document = .ok rules) :
    ∃ imported d', i.run document d = (.ok imported, d') ∧
      imported.issues =
        (i.plans rules).flatMap (·.2) ++ i.rulesMisfits ((i.plans rules).map (·.1)) ∧
      d'.graph.ruleTree = .obj [("status_rules", .arr (normalRules i.context rules))] := by
  obtain ⟨imported, d', hrun, hissues, hwired, hholds⟩ :=
    i.run_spec hcatalog hguarded hnames hrules (plans_proper i rules)
  exact ⟨imported, d', hrun, hissues, ruleTree_of_holdsRules hwired hholds⟩

theorem rulesOf_of_member? {document : Json} {rules : List Json}
    (hrules : document.member? "status_rules" = some (.arr rules)) :
    rulesOf document = .ok rules := by
  cases document with
  | obj members =>
      rw [rulesOf, show Json.find? "status_rules" members = some (.arr rules) from hrules]
  | _ => cases hrules

theorem member?_of_rulesOf {document : Json} {rules : List Json}
    (hrules : rulesOf document = .ok rules) :
    document.member? "status_rules" = some (.arr rules) := by
  cases document with
  | obj members =>
      rw [rulesOf] at hrules
      split at hrules
      next hfound =>
        cases hrules
        exact hfound
      next => cases hrules
      next => cases hrules
  | _ => cases hrules

/-- Importing a document whose rules are a list succeeds, and the graph that is made compiles to the
normal forms of all its rules but `null`, in order, whatever the rules are. -/
theorem import_compiles_to_normal_rules (i : Importer Double) (journal : Journal Double)
    (hnames : Function.Injective journal.ids.name) {document : Json} {rules : List Json}
    (hrules : document.member? "status_rules" = some (.arr rules)) :
    ∃ imported d, i.run document (Desk.fresh i.context.catalog journal) = (.ok imported, d) ∧
      d.graph.ruleTree = .obj [("status_rules", .arr (normalRules i.context rules))] := by
  have hfresh : (Desk.fresh i.context.catalog journal).catalog = i.context.catalog := rfl
  obtain ⟨imported, d, hrun, _, htree⟩ :=
    run_normal i hfresh rfl hnames (rulesOf_of_member? hrules)
  exact ⟨imported, d, hrun, htree⟩

/-- An operand that is no boolean is dropped from a conjunction of three, and an else-if chain is
nested with its defaults. -/
theorem import_compiles_to_normal_rules_sample :
    let i : Importer Double := ⟨⟨.attendance, false⟩, .usual⟩
    let rules : List Json := [.null,
      .obj [("and", .arr [.bool true, .int 5, .obj [("not", .bool false)]])],
      .obj [("if", .arr [.int 7, .null, .bool true, .int 1])]]
    let document : Json := .obj [("status_rules", .arr rules)]
    ∃ imported d,
      i.run document (Desk.fresh i.context.catalog ⟨.counting, []⟩) = (.ok imported, d) ∧
      d.graph.ruleTree = .obj [("status_rules", .arr [
        .obj [("and", .arr [.obj [("and", .arr [.bool true, .null])],
          .obj [("not", .bool false)]])],
        .obj [("if", .arr [.bool true, .str "PRESENT",
          .obj [("if", .arr [.bool true, .int 1, .null])]])]])] := by
  intro i rules document
  have hrules : document.member? "status_rules" = some (.arr rules) := by
    simp [document, Json.member?, Json.find?]
  obtain ⟨imported, d, hrun, hcompiled⟩ :=
    import_compiles_to_normal_rules i ⟨.counting, []⟩ Importer.counting_injective hrules
  refine ⟨imported, d, hrun, hcompiled.trans ?_⟩
  simp [rules, i, normalRules, isNull, normal, normalItems, normalChoice, joined, chain, chosen,
    operand, orElse, typeOf, ValueType.compatible, CompareOperator.ofSymbol?]

end RuleCanvas.Rule
