import RuleCanvas.Proofs.Rule.RoundTrip

/-! # Imports without a report

Importing repairs what is no rule and drops what does not fit, and it reports every such change. So
where nothing is reported, the graph compiles to the rules as they were written, but for three ways
of writing that mean the same: an operand of `not` or `var` in a list of its own, and a choice
without its last operand.
-/

namespace RuleCanvas.Rule

/-! ## Rewriting at every depth -/

mutual

/-- A value in which the operands of every operator are rewritten, from the inside out; `root` is
given the operator and its operands. -/
def rewritten (root : String → Json → Json) : Json → Json
  | .obj [(operator, args)] => .obj [(operator, root operator (rewritten root args))]
  | .arr items => .arr (rewrittenItems root items)
  | rule => rule

def rewrittenItems (root : String → Json → Json) : List Json → List Json
  | [] => []
  | x :: xs => rewritten root x :: rewrittenItems root xs

end

/-- The operands as they are written in the end: the single operand of `not` and the key of a
variable by themselves, and a choice with all three operands. -/
def plain : String → Json → Json
  | "not", .arr [x] => x
  | "var", .arr [key] => key
  | "if", .arr [condition, whenTrue] => .arr [condition, whenTrue, .null]
  | _, args => args

theorem rewritten_literal (root : String → Json → Json) (l : Literal) :
    rewritten root l.toJson = l.toJson := by
  cases l <;> rfl

/-- What is no list is not rewritten to one. -/
theorem rewritten_ne_arr (root : String → Json → Json) {rule : Json}
    (hrule : ∀ items, rule ≠ .arr items) (items : List Json) :
    rewritten root rule ≠ .arr items := by
  unfold rewritten
  split
  · simp
  next xs => exact absurd rfl (hrule xs)
  next rule _ _ => exact hrule items

theorem plain_not {args : Json} (hargs : ∀ items, args ≠ .arr items) : plain "not" args = args := by
  cases args with
  | arr items => exact absurd rfl (hargs items)
  | null | bool _ | int _ | float _ | str _ | obj _ => rfl

/-! ## Plans in silence -/

variable {c : Context}

/-- A draft of which nothing is reported, neither when it is made nor when it is placed. -/
structure Silent (c : Catalog) (draft : Plan.Draft) : Prop where
  issues : draft.2 = []
  fits : ∀ p ∈ draft.1, p.allMisfits c = []

theorem not_silent_placeholder (catalog : Catalog) (rule : Json) (path message : String) :
    ¬ Silent catalog (Plan.placeholder rule path message) := by
  intro hsilent
  cases hsilent.issues

theorem compatible_of_misfit {path : String} {source target : ValueType}
    (hmisfit : misfit path source target = []) : ValueType.compatible source target = true := by
  unfold misfit at hmisfit
  split at hmisfit
  next hfits => exact hfits
  next => cases hmisfit

theorem Quiet.of_cons {catalog : Catalog} {kind : NodeKind} {index : Nat} {plan : Option Plan}
    {rest : List (Option Plan)}
    (hquiet : Quiet catalog kind index (Inputs.ofList (plan :: rest))) :
    Accepted catalog (kind.expected index) plan ∧
      Quiet catalog kind (index + 1) (Inputs.ofList rest) := by
  obtain ⟨hall, hown⟩ := hquiet
  cases plan with
  | none => exact ⟨nofun, hall, hown⟩
  | some plan =>
      rw [Inputs.ofList, Inputs.allMisfits, List.append_eq_nil_iff] at hall
      rw [Inputs.ofList, Inputs.misfits, List.append_eq_nil_iff] at hown
      refine ⟨?_, hall.2, hown.2⟩
      rintro p hp
      cases hp
      exact ⟨hall.1, compatible_of_misfit hown.1⟩

theorem Silent.quiet {catalog : Catalog} {payload : Payload} {path : String} {inputs : Inputs}
    {issues : List ImportIssue}
    (hsilent : Silent catalog (some (.node payload path inputs), issues)) :
    Quiet catalog payload.kind 0 inputs := by
  have hnone := hsilent.fits _ rfl
  rwa [Plan.allMisfits, List.append_eq_nil_iff] at hnone

/-- What feeds an input in silence has a type that the input takes. -/
theorem Accepted.serves {rule : Json} {path : String} {expected : ValueType}
    (haccepted : Accepted c.catalog expected (Plan.ofRule c rule path).1) :
    Serves c.catalog (normal c rule) expected := by
  have hstands := ofRule_stands c rule path
  cases hplan : (Plan.ofRule c rule path).1 with
  | none =>
      rw [hplan] at hstands
      rw [show normal c rule = .null from hstands]
      exact serves_null _ _
  | some p =>
      rw [hplan] at hstands haccepted
      rw [Serves, ← hstands.2, Plan.typeOf_rule hstands.1]
      exact (haccepted p rfl).2

theorem Accepted.silent {draft : Plan.Draft} {expected : ValueType} {catalog : Catalog}
    (haccepted : Accepted catalog expected draft.1) (hissues : draft.2 = []) :
    Silent catalog draft := ⟨hissues, fun p hp => (haccepted p hp).1⟩

/-! ## Rules planned in silence -/

theorem args_of_variableKey? {args : Json} {key : String} (hkey : variableKey? args = some key) :
    args = .str key ∨ ∃ rest, args = .arr (.str key :: rest) := by
  unfold variableKey? at hkey
  dsimp only at hkey
  split at hkey
  next given hgiven =>
    split at hkey
    · cases hkey
    · cases hkey
      split at hgiven
      next first rest =>
        rw [hgiven]
        exact .inr ⟨rest, rfl⟩
      next => exact .inl hgiven
  next => cases hkey

theorem normal_var (c : Context) {args : Json} {key : String} (hkey : variableKey? args = some key)
    (hknown : c.catalog.contains key = true ∨ c.lenient = true) :
    normal c (.obj [("var", args)]) = .obj [("var", .str key)] := by
  unfold normal
  simp [hkey, hknown]

theorem ofVariable_of_silent {args : Json} {path : String}
    (hsilent : Silent c.catalog (Plan.ofVariable c args path)) :
    normal c (.obj [("var", args)]) = rewritten plain (.obj [("var", args)]) := by
  unfold Plan.ofVariable at hsilent
  cases hkey : variableKey? args with
  | none =>
      rw [hkey] at hsilent
      exact (not_silent_placeholder _ _ _ _ hsilent).elim
  | some key =>
      rw [hkey] at hsilent
      dsimp only at hsilent
      by_cases hcontains : c.catalog.contains key = true
      · rw [if_pos hcontains] at hsilent
        rw [normal_var c hkey (.inl hcontains)]
        rcases args_of_variableKey? hkey with rfl | ⟨rest, rfl⟩
        · rfl
        · cases rest with
          | nil => rfl
          | cons _ _ => cases hsilent.issues
      · rw [if_neg hcontains] at hsilent
        split at hsilent
        · cases (List.append_eq_nil_iff.mp hsilent.issues).2
        · cases (List.append_eq_nil_iff.mp hsilent.issues).2

theorem NoRule.not_silent {rule : Json} (hrule : NoRule rule) (path : String) :
    ¬ Silent c.catalog (Plan.ofRule c rule path) := by
  obtain ⟨message, hplan, _⟩ := hrule.plan_eq c path
  rw [hplan]
  exact not_silent_placeholder _ _ _ _

/-- A choice is planned in silence over two or three operands only. -/
theorem length_of_ofChoice_silent {items : List Json} {path : String}
    (hsilent : Silent c.catalog (Plan.ofChoice c items path)) :
    items.length = 2 ∨ items.length = 3 := by
  match items with
  | [] => exact (not_silent_placeholder _ (.obj [("if", .arr [])]) _ _ hsilent).elim
  | [x] => exact (not_silent_placeholder _ (.obj [("if", .arr [x])]) _ _ hsilent).elim
  | [_, _] => exact .inl rfl
  | [_, _, _] => exact .inr rfl
  | _ :: _ :: _ :: _ :: _ => cases hsilent.issues

theorem ne_null_of_nullIssues {condition whenTrue : Json} {path : String}
    (hissues : Plan.nullIssues condition whenTrue path = []) :
    condition ≠ .null ∧ whenTrue ≠ .null := by
  constructor
  · rintro rfl
    cases hissues
  · rintro rfl
    cases (List.append_eq_nil_iff.mp hissues).2

/-- A choice of which no default is reported has none. -/
theorem chosen_of_serves {condition whenTrue whenFalse : Json} {path : String}
    (hserves : Serves c.catalog (normal c condition) .boolean)
    (hnull : Plan.nullIssues condition whenTrue path = []) :
    chosen c.catalog (normal c condition) (normal c whenTrue) whenFalse =
      .obj [("if", .arr [normal c condition, normal c whenTrue, whenFalse])] := by
  obtain ⟨hcondition, htrue⟩ := ne_null_of_nullIssues hnull
  rw [chosen, operand_of_serves hserves, orElse_of_ne (normal_ne_null c hcondition),
    orElse_of_ne (normal_ne_null c htrue)]

/-- The operand of a negation planned in silence is accepted, and planned in silence itself. -/
theorem ofNegation_silent {draft : Plan.Draft} {path : String}
    (hsilent : Silent c.catalog (Plan.ofNegation draft path)) :
    Accepted c.catalog .boolean draft.1 ∧ Silent c.catalog draft := by
  obtain ⟨haccepted, _⟩ := (Silent.quiet hsilent).of_cons
  exact ⟨haccepted, haccepted.silent hsilent.issues⟩

/-- A node over two operands that is planned in silence. -/
theorem Silent.pair {catalog : Catalog} {payload : Payload} {path : String} {a b : Plan.Draft}
    (hsilent : Silent catalog
      (some (.node payload path (Inputs.ofList [a.1, b.1])), a.2 ++ b.2)) :
    (Accepted catalog (payload.kind.expected 0) a.1 ∧ Silent catalog a) ∧
      Accepted catalog (payload.kind.expected 1) b.1 ∧ Silent catalog b := by
  obtain ⟨hfirst, hquiet⟩ := hsilent.quiet.of_cons
  obtain ⟨hsecond, _⟩ := hquiet.of_cons
  obtain ⟨ha, hb⟩ := List.append_eq_nil_iff.mp hsilent.issues
  exact ⟨⟨hfirst, hfirst.silent ha⟩, hsecond, hsecond.silent hb⟩

/-- Logic is planned in silence over two operands only. -/
theorem two_of_ofLogic_silent {o : LogicOperator} {args : Json} {operands : List Plan.Draft}
    {path : String} (hsilent : Silent c.catalog (Plan.ofLogic o args operands path)) :
    operands.length = 2 := by
  match operands with
  | [] => exact (not_silent_placeholder _ _ _ _ hsilent).elim
  | [(none, _)] | [(some _, _)] => cases (List.append_eq_nil_iff.mp hsilent.issues).2
  | [_, _] => rfl
  | (a, _) :: _ :: _ :: _ =>
      cases a <;> cases (List.append_eq_nil_iff.mp hsilent.issues).2

theorem length_ofItems (c : Context) (items : List Json) (path operator : String) (index : Nat) :
    (Plan.ofItems c items path operator index).length = items.length := by
  induction items generalizing index with
  | nil =>
      rw [Plan.ofItems]
      rfl
  | cons x xs ih => rw [Plan.ofItems, List.length_cons, List.length_cons, ih]

/-! ## Silence by operator -/

theorem silent_not {args : Json} {path : String}
    (hsilent : Silent c.catalog (Plan.ofRule c (.obj [("not", args)]) path)) :
    ∃ x, (args = .arr [x] ∨ args = x ∧ ∀ items, x ≠ .arr items) ∧
      Accepted c.catalog .boolean (Plan.ofRule c x (path ++ ".not")).1 ∧
      Silent c.catalog (Plan.ofRule c x (path ++ ".not")) := by
  by_cases hlist : ∃ items, args = .arr items
  · obtain ⟨items, rfl⟩ := hlist
    by_cases hsingle : items.length = 1
    · obtain ⟨x, rfl⟩ := List.length_eq_one_iff.mp hsingle
      exact ⟨x, .inl rfl, ofNegation_silent hsilent⟩
    · exact ((NoRule.not items hsingle).not_silent path hsilent).elim
  · have hvalue : ∀ items, args ≠ .arr items := fun items hargs => hlist ⟨items, hargs⟩
    rw [Plan.ofRule_not_value c path hvalue] at hsilent
    exact ⟨args, .inr ⟨rfl, hvalue⟩, ofNegation_silent hsilent⟩

theorem silent_logic {o : LogicOperator} (ho : o ≠ .not) {args : Json} {path : String}
    (hsilent : Silent c.catalog (Plan.ofRule c (.obj [(o.symbol, args)]) path)) :
    ∃ x y left right, args = .arr [x, y] ∧
      (Accepted c.catalog .boolean (Plan.ofRule c x left).1 ∧
        Silent c.catalog (Plan.ofRule c x left)) ∧
      Accepted c.catalog .boolean (Plan.ofRule c y right).1 ∧
      Silent c.catalog (Plan.ofRule c y right) := by
  by_cases hlist : ∃ items, args = .arr items
  · obtain ⟨items, rfl⟩ := hlist
    rw [Plan.ofRule_logic c path ho] at hsilent
    have htwo := two_of_ofLogic_silent hsilent
    rw [length_ofItems] at htwo
    obtain ⟨x, y, rfl⟩ := List.length_eq_two.mp htwo
    rw [Plan.ofItems, Plan.ofItems, Plan.ofItems, ofLogic_pair] at hsilent
    exact ⟨x, y, _, _, rfl, Silent.pair hsilent⟩
  · exact ((NoRule.logic o ho args fun items hargs => hlist ⟨items, hargs⟩).not_silent path
      hsilent).elim

theorem silent_compare {o : CompareOperator} {args : Json} {path : String}
    (hsilent : Silent c.catalog (Plan.ofRule c (.obj [(o.symbol, args)]) path)) :
    ∃ x y left right, args = .arr [x, y] ∧ Silent c.catalog (Plan.ofRule c x left) ∧
      Silent c.catalog (Plan.ofRule c y right) := by
  by_cases hpair : ∃ x y, args = .arr [x, y]
  · obtain ⟨x, y, rfl⟩ := hpair
    rw [Plan.ofRule_compare] at hsilent
    obtain ⟨⟨_, hx⟩, _, hy⟩ := Silent.pair hsilent
    exact ⟨x, y, _, _, rfl, hx, hy⟩
  · exact ((NoRule.compare o args fun x y hargs => hpair ⟨x, y, hargs⟩).not_silent path
      hsilent).elim

/-- What is said in silence of a choice: its condition is accepted, neither it nor the true branch
is `null`, and all its operands are planned in silence. -/
theorem silent_choice {args : Json} {path : String}
    (hsilent : Silent c.catalog (Plan.ofRule c (.obj [("if", args)]) path)) :
    ∃ condition whenTrue test first, (Accepted c.catalog .boolean (Plan.ofRule c condition test).1 ∧
      Silent c.catalog (Plan.ofRule c condition test)) ∧
      Silent c.catalog (Plan.ofRule c whenTrue first) ∧
      Plan.nullIssues condition whenTrue path = [] ∧
      (args = .arr [condition, whenTrue] ∨ ∃ whenFalse second,
        args = .arr [condition, whenTrue, whenFalse] ∧
        Silent c.catalog (Plan.ofRule c whenFalse second)) := by
  by_cases hlist : ∃ items, args = .arr items
  · obtain ⟨items, rfl⟩ := hlist
    rw [Plan.ofRule_choice] at hsilent
    rcases length_of_ofChoice_silent hsilent with htwo | hthree
    · obtain ⟨condition, whenTrue, rfl⟩ := List.length_eq_two.mp htwo
      rw [Plan.ofChoice_pair] at hsilent
      obtain ⟨hissues, hnull⟩ := List.append_eq_nil_iff.mp hsilent.issues
      obtain ⟨hfirst, hsecond⟩ := List.append_eq_nil_iff.mp hissues
      obtain ⟨hcondition, hquiet⟩ := hsilent.quiet.of_cons
      obtain ⟨htrue, _⟩ := hquiet.of_cons
      exact ⟨condition, whenTrue, _, _, ⟨hcondition, hcondition.silent hfirst⟩,
        htrue.silent hsecond, hnull, .inl rfl⟩
    · obtain ⟨condition, whenTrue, whenFalse, rfl⟩ := List.length_eq_three.mp hthree
      rw [Plan.ofChoice_triple] at hsilent
      obtain ⟨hissues, hnull⟩ := List.append_eq_nil_iff.mp hsilent.issues
      obtain ⟨hissues, hthird⟩ := List.append_eq_nil_iff.mp hissues
      obtain ⟨hfirst, hsecond⟩ := List.append_eq_nil_iff.mp hissues
      obtain ⟨hcondition, hquiet⟩ := hsilent.quiet.of_cons
      obtain ⟨htrue, hquiet⟩ := hquiet.of_cons
      obtain ⟨hfalse, _⟩ := hquiet.of_cons
      exact ⟨condition, whenTrue, _, _, ⟨hcondition, hcondition.silent hfirst⟩,
        htrue.silent hsecond, hnull, .inr ⟨whenFalse, _, rfl, hfalse.silent hthird⟩⟩
  · exact ((NoRule.choice args fun items hargs => hlist ⟨items, hargs⟩).not_silent path
      hsilent).elim

/-- A rule planned in silence has a normal form that differs from it in writing only. -/
theorem normal_of_silent {rule : Json} {path : String}
    (hsilent : Silent c.catalog (Plan.ofRule c rule path)) :
    normal c rule = rewritten plain rule := by
  match rule with
  | .null | .bool _ | .int _ | .float _ | .str _ => rfl
  | .arr _ | .obj [] | .obj (_ :: _ :: _) => cases hsilent.issues
  | .obj [(operator, args)] =>
      cases Plan.operatorView operator with
      | var =>
          rw [Plan.ofRule_var] at hsilent
          exact ofVariable_of_silent hsilent
      | not =>
          obtain ⟨x, rfl | ⟨rfl, hvalue⟩, haccepted, hx⟩ := silent_not hsilent
          · rw [normal_not_single, operand_of_serves haccepted.serves, normal_of_silent hx]
            rfl
          · rw [normal_not_value c hvalue, operand_of_serves haccepted.serves, normal_of_silent hx,
              rewritten, plain_not (rewritten_ne_arr _ hvalue)]
      | logic o ho =>
          obtain ⟨x, y, _, _, rfl, ⟨hleft, hx⟩, hright, hy⟩ := silent_logic ho hsilent
          rw [normal_logic c ho]
          simp only [normalItems, joined, chain]
          rw [operand_of_serves hleft.serves, operand_of_serves hright.serves, normal_of_silent hx,
            normal_of_silent hy]
          cases o with
          | not => exact absurd rfl ho
          | and | or => rfl
      | compare o =>
          obtain ⟨x, y, _, _, rfl, hx, hy⟩ := silent_compare hsilent
          rw [normal_compare, normal_of_silent hx, normal_of_silent hy]
          cases o <;> rfl
      | choice =>
          obtain ⟨condition, whenTrue, _, _, ⟨haccepted, hcondition⟩, htrue, hnull, hargs⟩ :=
            silent_choice hsilent
          rcases hargs with rfl | ⟨whenFalse, _, rfl, hfalse⟩
          · rw [normal_choice, normalChoice, chosen_of_serves haccepted.serves hnull,
              normal_of_silent hcondition, normal_of_silent htrue]
            rfl
          · rw [normal_choice, normalChoice, chosen_of_serves haccepted.serves hnull,
              normal_of_silent hcondition, normal_of_silent htrue, normal_of_silent hfalse]
            rfl
      | unknown _ hvar hnot hand hor hchoice hcompare =>
          exact ((NoRule.unknown _ args hvar hnot hand hor hchoice hcompare).not_silent path
            hsilent).elim

/-! ## Documents imported in silence -/

theorem exists_mem_zipIdx {rules : List Json} {rule : Json} (hrule : rule ∈ rules) :
    ∃ index, (rule, index) ∈ rules.zipIdx := by
  rw [← List.zipIdx_map_fst 0 rules] at hrule
  obtain ⟨⟨_, index⟩, hmem, rfl⟩ := List.mem_map.mp hrule
  exact ⟨index, hmem⟩

/-- Where an import reports nothing, it planned every rule in silence. -/
theorem plans_silent {α : Type} {i : Importer α} {rules : List Json}
    (hplanned : (i.plans rules).flatMap (·.2) = [])
    (hplaced : i.rulesMisfits ((i.plans rules).map (·.1)) = []) :
    ∀ draft ∈ i.plans rules, Silent i.context.catalog draft := by
  intro draft hdraft
  refine ⟨List.flatMap_eq_nil_iff.mp hplanned draft hdraft, ?_⟩
  intro p hp
  have hnone := List.flatMap_eq_nil_iff.mp hplaced draft.1 (List.mem_map_of_mem hdraft)
  rwa [show draft.1 = some p from hp] at hnone

/-- Importing a document whose rules are a list succeeds at every desk with the catalog of the
importer. If nothing is reported of it, the graph compiles to all its rules but `null`, in order,
and as they were but for the three ways of writing that mean the same. -/
theorem import_unreported (i : Importer Double) {d : Desk Double}
    (hcatalog : d.catalog = i.context.catalog) (hguarded : d.store.guarded = true)
    (hnames : Function.Injective d.journal.ids.name) {document : Json} {rules : List Json}
    (hrules : document.member? "status_rules" = some (.arr rules)) :
    ∃ imported d', i.run document d = (.ok imported, d') ∧
      (imported.issues = [] → d'.graph.ruleTree = .obj [("status_rules",
        .arr ((rules.filter fun rule => !isNull rule).map (rewritten plain)))]) := by
  obtain ⟨imported, d', hrun, hissues, htree⟩ :=
    run_normal i hcatalog hguarded hnames (rulesOf_of_member? hrules)
  refine ⟨imported, d', hrun, fun hnone => ?_⟩
  rw [hissues, List.append_eq_nil_iff] at hnone
  have hsilent := plans_silent hnone.1 hnone.2
  have hrewritten : normalRules i.context rules =
      (rules.filter fun rule => !isNull rule).map (rewritten plain) := by
    refine List.map_congr_left fun rule hrule => ?_
    obtain ⟨index, hindex⟩ := exists_mem_zipIdx (List.mem_filter.mp hrule).1
    exact normal_of_silent (hsilent _ (List.mem_map_of_mem hindex))
  rw [htree, hrewritten]

/-- The three ways of writing, one within another, and a rule that is `null`. -/
theorem import_unreported_sample :
    let i : Importer Double := ⟨⟨.attendance, false⟩, .usual⟩
    let key : Json := .str "is_first_session"
    let rules : List Json := [.null, .obj [("if", .arr [
      .obj [("not", .arr [.obj [("var", .arr [key])]])], .int 1])]]
    let document : Json := .obj [("status_rules", .arr rules)]
    let d := Desk.fresh i.context.catalog ⟨.counting, []⟩
    (i.run document d).1.toOption.map (·.issues) = some [] ∧
    ∃ imported d', i.run document d = (.ok imported, d') ∧
      (imported.issues = [] → d'.graph.ruleTree = .obj [("status_rules", .arr [
        .obj [("if", .arr [.obj [("not", .obj [("var", key)])], .int 1, .null])]])]) := by
  intro i key rules document d
  exact ⟨by decide +kernel, import_unreported i rfl rfl Importer.counting_injective
    (show document.member? "status_rules" = some (.arr rules) from rfl)⟩

end RuleCanvas.Rule
