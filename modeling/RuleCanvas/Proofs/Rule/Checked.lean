import RuleCanvas.Proofs.Rule.Rewrite
import RuleCanvas.Proofs.Rule.Typing

/-! # Imports of checked documents

The check infers the types of rules and an import compares the types of ports, so that the two might
disagree. They do not: whatever the check lets through is imported as it is written. Every fragment
becomes a node of its own kind, every operand is wired, and what is reported is one of three things
that the check does not mind.
-/

namespace RuleCanvas

/-! ## Graphs that represent rules -/

namespace Graph

variable {α : Type}

mutual

/-- The node `id` represents a rule: it is of the kind that the rule asks for, and its inputs are
supplied with the operands. -/
inductive Represents (g : Graph α) : String → Json → Prop
  | literal {id : String} (l : Literal) (hnode : g.payload? id = some (.constant l)) :
      g.Represents id l.toJson
  | var {id key : String} {args : Json} (hkey : Rule.variableKey? args = some key)
      (hnode : g.payload? id = some (.var key)) : g.Represents id (.obj [("var", args)])
  | notSingle {id : String} {x : Json} (hnode : g.payload? id = some (.logic .not))
      (hx : g.Supplies ⟨id, 0⟩ x) : g.Represents id (.obj [("not", .arr [x])])
  | notValue {id : String} {x : Json} (hnode : g.payload? id = some (.logic .not))
      (hx : g.Supplies ⟨id, 0⟩ x) : g.Represents id (.obj [("not", x)])
  | logic {id : String} (o : LogicOperator) {x y : Json}
      (hnode : g.payload? id = some (.logic o)) (hx : g.Supplies ⟨id, 0⟩ x)
      (hy : g.Supplies ⟨id, 1⟩ y) : g.Represents id (.obj [(o.symbol, .arr [x, y])])
  | compare {id : String} (o : CompareOperator) {x y : Json}
      (hnode : g.payload? id = some (.compare o)) (hx : g.Supplies ⟨id, 0⟩ x)
      (hy : g.Supplies ⟨id, 1⟩ y) : g.Represents id (.obj [(o.symbol, .arr [x, y])])
  | choice {id : String} {condition whenTrue whenFalse : Json}
      (hnode : g.payload? id = some .choice) (hcondition : g.Supplies ⟨id, 0⟩ condition)
      (htrue : g.Supplies ⟨id, 1⟩ whenTrue) (hfalse : g.Supplies ⟨id, 2⟩ whenFalse) :
      g.Represents id (.obj [("if", .arr [condition, whenTrue, whenFalse])])

/-- An input is wired to a node that represents an operand, and left unwired for `null` only. -/
inductive Supplies (g : Graph α) : PortRef → Json → Prop
  | unwired {target : PortRef} (hin : g.incoming? target = none) : g.Supplies target .null
  | wired {target : PortRef} {rule : Json} {e : Edge} (hin : g.incoming? target = some e)
      (hsource : g.Represents e.source.node rule) : g.Supplies target rule

end

end Graph

namespace Rule

/-! ## What is rewritten and what is reported -/

/-- The operands of a checked rule as they are written in the end: the single operand of `not` and
the key of a variable by themselves, and a true branch that is `null` as `"PRESENT"`. -/
def accepted : String → Json → Json
  | "not", .arr [x] => x
  | "var", .arr (key :: _) => key
  | "if", .arr [condition, whenTrue, whenFalse] =>
    .arr [condition, orElse (.str "PRESENT") whenTrue, whenFalse]
  | _, args => args

/-- The issues that may be reported of a checked rule. -/
inductive Permitted (c : Context) : ImportIssue → Prop
  | defaultDropped (path key : String) :
      Permitted c ⟨path, "Default value of variable '" ++ key ++ "' dropped"⟩
  | unknownVariable (path key : String) (hlenient : c.lenient = true)
      (hunknown : c.catalog.contains key = false) :
      Permitted c ⟨path, "Unknown variable '" ++ key ++ "' imported with type any"⟩
  | noTrueBranch (path : String) :
      Permitted c
        ⟨itemPath path "if" 1, "Null true-branch left unwired (compiles to \"PRESENT\")"⟩

variable {c : Context}

theorem accepted_not {args : Json} (hargs : ∀ items, args ≠ .arr items) :
    accepted "not" args = args := by
  cases args with
  | arr items => exact absurd rfl (hargs items)
  | null | bool _ | int _ | float _ | str _ | obj _ => rfl

/-! ## Types agree -/

/-- The node that a rule is imported as has the type that the check infers, or the type `any`. -/
theorem Typed.typeOf_normal {rule : Json} {type : ValueType} (htyped : Typed c rule type) :
    typeOf c.catalog (normal c rule) = type ∨ typeOf c.catalog (normal c rule) = .any := by
  cases htyped with
  | literal l => cases l <;> exact .inl rfl
  | var hkey hknown =>
      rw [normal_var c hkey hknown]
      exact .inl rfl
  | notSingle hx htype => exact .inl rfl
  | notValue hx htype =>
      rw [normal_not_value c hx.ne_arr]
      exact .inl rfl
  | logic o ho hx hy hleft hright =>
      rw [normal_logic c ho]
      cases o with
      | not => exact absurd rfl ho
      | and | or => exact .inl rfl
  | compare o hx hy =>
      rw [normal_compare]
      cases o <;> exact .inl rfl
  | choice hcondition htype htrue hnoTrue hfalse hnoFalse =>
      rw [normal_choice]
      exact .inr rfl

/-- Where the check lets a rule stand for a boolean, an import wires it. -/
theorem Typed.serves_boolean {rule : Json} {type : ValueType} (htyped : Typed c rule type)
    (htype : FitsBoolean type) : Serves c.catalog (normal c rule) .boolean := by
  unfold Serves
  rcases htyped.typeOf_normal with hsame | hany
  · rw [hsame]
    rcases htype with rfl | rfl <;> rfl
  · rw [hany]
    rfl

/-! ## The compiled rule -/

/-- A branch may be `null`, and then stays so. -/
theorem normal_branch {rule : Json}
    (hrule : rule ≠ .null → normal c rule = rewritten accepted rule) :
    normal c rule = rewritten accepted rule := by
  by_cases hnull : rule = .null
  · rw [hnull]
    rfl
  · exact hrule hnull

/-- A checked rule has a normal form that differs from it in writing only. -/
theorem Typed.normal_eq {rule : Json} {type : ValueType} (htyped : Typed c rule type) :
    normal c rule = rewritten accepted rule := by
  induction htyped with
  | literal l => rw [normal_literal, rewritten_literal]
  | var hkey hknown =>
      rw [normal_var c hkey hknown]
      rcases args_of_variableKey? hkey with rfl | ⟨rest, rfl⟩ <;> rfl
  | notSingle hx htype ih =>
      rw [normal_not_single, operand_of_serves (hx.serves_boolean htype), ih]
      rfl
  | notValue hx htype ih =>
      rw [normal_not_value c hx.ne_arr, operand_of_serves (hx.serves_boolean htype), ih, rewritten,
        accepted_not (rewritten_ne_arr _ hx.ne_arr)]
  | logic o ho hx hy hleft hright ihx ihy =>
      rw [normal_logic c ho]
      simp only [normalItems, joined, chain]
      rw [operand_of_serves (hx.serves_boolean hleft), operand_of_serves (hy.serves_boolean hright),
        ihx, ihy]
      cases o with
      | not => exact absurd rfl ho
      | and | or => rfl
  | compare o hx hy ihx ihy =>
      rw [normal_compare, ihx, ihy]
      cases o <;> rfl
  | choice hcondition htype _ _ _ _ ihc iht ihf =>
      rw [normal_choice, normalChoice, chosen, operand_of_serves (hcondition.serves_boolean htype),
        orElse_of_ne (normal_ne_null c hcondition.ne_null), ihc, normal_branch iht,
        normal_branch ihf]
      rfl

/-! ## The graph -/

/-- A draft carries a rule: it reports permitted issues only, no feed in it is refused, and the node
that holds it represents the rule. Only `null` has no plan. -/
structure Carries (c : Context) (rule : Json) (draft : Plan.Draft) : Prop where
  issues : ∀ issue ∈ draft.2, Permitted c issue
  fits : ∀ p ∈ draft.1, p.allMisfits c.catalog = []
  represents : ∀ p ∈ draft.1, ∀ {α : Type} {g : Graph α} {id : String},
    g.Holds c.catalog id p → g.Represents id rule
  null : draft.1 = none → rule = .null

theorem Carries.none (c : Context) : Carries c .null (none, []) :=
  ⟨nofun, nofun, nofun, fun _ => rfl⟩

theorem Carries.node {rule : Json} {payload : Payload} {path : String} {inputs : Inputs}
    {issues : List ImportIssue} (hissues : ∀ issue ∈ issues, Permitted c issue)
    (hquiet : Quiet c.catalog payload.kind 0 inputs)
    (hrepresents : ∀ {α : Type} {g : Graph α} {id : String}, g.payload? id = some payload →
      g.HoldsInputs c.catalog id payload.kind 0 inputs → g.Represents id rule) :
    Carries c rule (some (.node payload path inputs), issues) := by
  refine ⟨hissues, ?_, ?_, nofun⟩
  · rintro p hp
    cases hp
    rw [Plan.allMisfits, hquiet.1, hquiet.2, List.append_nil]
  · rintro p hp α g id hholds
    cases hp
    exact hrepresents hholds.1 hholds.2

/-- What feeds an input by a draft that is accepted there supplies the operand that it carries. -/
theorem Carries.supplies {rule : Json} {draft : Plan.Draft} (hcarries : Carries c rule draft)
    {α : Type} {g : Graph α} {id : String} {kind : NodeKind} {index : Nat}
    {rest : List (Option Plan)} (haccepted : Accepted c.catalog (kind.expected index) draft.1)
    (hholds : g.HoldsInputs c.catalog id kind index (Inputs.ofList (draft.1 :: rest))) :
    g.Supplies ⟨id, index⟩ rule ∧
      g.HoldsInputs c.catalog id kind (index + 1) (Inputs.ofList rest) := by
  obtain ⟨plan, issues⟩ := draft
  cases plan with
  | none =>
      obtain ⟨hin, hrest⟩ := hholds
      rw [hcarries.null rfl]
      exact ⟨.unwired hin, hrest⟩
  | some plan =>
      obtain ⟨hin, hrest⟩ := hholds
      rw [if_pos (haccepted plan rfl).2] at hin
      obtain ⟨e, hin, hplan⟩ := hin
      exact ⟨.wired hin (hcarries.represents plan rfl hplan), hrest⟩

/-- A node over two operands that are carried and accepted. -/
theorem Carries.pair {rule x y : Json} {payload : Payload} {path : String} {a b : Plan.Draft}
    (hx : Carries c x a) (hy : Carries c y b)
    (hleft : Accepted c.catalog (payload.kind.expected 0) a.1)
    (hright : Accepted c.catalog (payload.kind.expected 1) b.1)
    (hrepresents : ∀ {α : Type} {g : Graph α} {id : String}, g.payload? id = some payload →
      g.Supplies ⟨id, 0⟩ x → g.Supplies ⟨id, 1⟩ y → g.Represents id rule) :
    Carries c rule (some (.node payload path (Inputs.ofList [a.1, b.1])), a.2 ++ b.2) := by
  refine .node (fun issue hissue => ?_) (.cons hleft (.cons hright (quiet_nil _ _ _))) ?_
  · exact (List.mem_append.mp hissue).elim (hx.issues issue) (hy.issues issue)
  · intro α g id hnode hinputs
    obtain ⟨hfirst, hinputs⟩ := hx.supplies hleft hinputs
    exact hrepresents hnode hfirst (hy.supplies hright hinputs).1

/-- A negation of an operand that is carried and accepted. -/
theorem Carries.negation {rule x : Json} {path : String} {draft : Plan.Draft}
    (hx : Carries c x draft)
    (haccepted : Accepted c.catalog ((Payload.logic .not).kind.expected 0) draft.1)
    (hrepresents : ∀ {α : Type} {g : Graph α} {id : String}, g.payload? id = some (.logic .not) →
      g.Supplies ⟨id, 0⟩ x → g.Represents id rule) :
    Carries c rule (Plan.ofNegation draft path) := by
  refine .node hx.issues (.cons haccepted (quiet_nil _ _ _)) ?_
  intro α g id hnode hinputs
  exact hrepresents hnode (hx.supplies haccepted hinputs).1

/-- A variable that is known or let in is planned as one. Its default is reported, and that it is
unknown. -/
theorem ofVariable_eq {args : Json} {key : String} (path : String)
    (hkey : variableKey? args = some key)
    (hknown : c.catalog.contains key = true ∨ c.lenient = true) :
    ∃ dropped, (∀ issue ∈ dropped,
        issue = ⟨path, "Default value of variable '" ++ key ++ "' dropped"⟩) ∧
      Plan.ofVariable c args path = (some (.leaf (.var key) path), dropped ++
        if c.catalog.contains key then []
        else [⟨path, "Unknown variable '" ++ key ++ "' imported with type any"⟩]) := by
  unfold Plan.ofVariable
  rw [hkey]
  dsimp only
  by_cases hcontains : c.catalog.contains key = true
  · rw [if_pos hcontains, if_pos hcontains]
    split
    · exact ⟨_, fun _ hissue => List.mem_singleton.mp hissue, rfl⟩
    · exact ⟨[], nofun, rfl⟩
  · rw [if_neg hcontains, if_neg hcontains, if_pos (hknown.resolve_left hcontains)]
    split
    · exact ⟨_, fun _ hissue => List.mem_singleton.mp hissue, rfl⟩
    · exact ⟨[], nofun, rfl⟩

theorem ofVariable_carries {args : Json} {key : String} (path : String)
    (hkey : variableKey? args = some key)
    (hknown : c.catalog.contains key = true ∨ c.lenient = true) :
    Carries c (.obj [("var", args)]) (Plan.ofVariable c args path) := by
  obtain ⟨dropped, hdropped, hplan⟩ := ofVariable_eq path hkey hknown
  rw [hplan]
  refine .node (fun issue hissue => ?_) (quiet_nil _ _ _) fun hnode _ => .var hkey hnode
  rcases List.mem_append.mp hissue with hissue | hissue
  · rw [hdropped issue hissue]
    exact .defaultDropped path key
  · split at hissue
    next => cases hissue
    next hunknown =>
      rw [List.mem_singleton.mp hissue]
      exact .unknownVariable path key (hknown.resolve_left hunknown) (by simpa using hunknown)

/-- A choice with a condition has its true branch only to report. -/
theorem permitted_of_nullIssues {condition whenTrue : Json} {path : String}
    (hcondition : condition ≠ .null) :
    ∀ issue ∈ Plan.nullIssues condition whenTrue path, Permitted c issue := by
  intro issue hissue
  unfold Plan.nullIssues at hissue
  rcases List.mem_append.mp hissue with hissue | hissue
  · split at hissue
    · exact absurd rfl hcondition
    · cases hissue
  · split at hissue
    · rw [List.mem_singleton.mp hissue]
      exact .noTrueBranch path
    · cases hissue

/-- A choice over a condition and branches that are carried and accepted; a branch may be `null`. -/
theorem Carries.choice {condition whenTrue whenFalse : Json} {path : String} {a b d : Plan.Draft}
    (hcondition : Carries c condition a) (hpresent : condition ≠ .null)
    (htrue : Carries c whenTrue b) (hfalse : Carries c whenFalse d)
    (htest : Accepted c.catalog (Payload.choice.kind.expected 0) a.1)
    (hthen : Accepted c.catalog (Payload.choice.kind.expected 1) b.1)
    (helse : Accepted c.catalog (Payload.choice.kind.expected 2) d.1) :
    Carries c (.obj [("if", .arr [condition, whenTrue, whenFalse])])
      (some (.node .choice path (Inputs.ofList [a.1, b.1, d.1])),
        a.2 ++ b.2 ++ d.2 ++ Plan.nullIssues condition whenTrue path) := by
  refine .node (fun issue hissue => ?_)
    (.cons htest (.cons hthen (.cons helse (quiet_nil _ _ _)))) ?_
  · simp only [List.mem_append] at hissue
    rcases hissue with ((hissue | hissue) | hissue) | hissue
    · exact hcondition.issues issue hissue
    · exact htrue.issues issue hissue
    · exact hfalse.issues issue hissue
    · exact permitted_of_nullIssues hpresent issue hissue
  · intro α g id hnode hinputs
    obtain ⟨hfirst, hinputs⟩ := hcondition.supplies htest hinputs
    obtain ⟨hsecond, hinputs⟩ := htrue.supplies hthen hinputs
    exact .choice hnode hfirst hsecond (hfalse.supplies helse hinputs).1

theorem carries_branch {rule : Json}
    (hrule : rule ≠ .null → ∀ path, Carries c rule (Plan.ofRule c rule path)) (path : String) :
    Carries c rule (Plan.ofRule c rule path) := by
  by_cases hnull : rule = .null
  · rw [hnull, Plan.ofRule_null]
    exact .none c
  · exact hrule hnull path

/-- The plan of a rule carries it where the check lets the rule through. -/
theorem Typed.carries {rule : Json} {type : ValueType} (htyped : Typed c rule type)
    (path : String) : Carries c rule (Plan.ofRule c rule path) := by
  induction htyped generalizing path with
  | literal l =>
      rw [ofRule_literal]
      exact .node nofun (quiet_nil _ _ _) fun hnode _ => .literal l hnode
  | var hkey hknown =>
      rw [Plan.ofRule_var]
      exact ofVariable_carries path hkey hknown
  | notSingle hx htype ih =>
      have hcarries := ih (path ++ ".not")
      rw [Plan.ofRule_not_single]
      exact hcarries.negation
        (accepted_of_serves hcarries.fits (hx.serves_boolean htype)) .notSingle
  | notValue hx htype ih =>
      have hcarries := ih (path ++ ".not")
      rw [Plan.ofRule_not_value c path hx.ne_arr]
      exact hcarries.negation (accepted_of_serves hcarries.fits (hx.serves_boolean htype)) .notValue
  | logic o ho hx hy hleft hright ihx ihy =>
      have hfirst := ihx (itemPath path o.symbol 0)
      have hsecond := ihy (itemPath path o.symbol 1)
      rw [Plan.ofRule_logic c path ho, Plan.ofItems, Plan.ofItems, Plan.ofItems, ofLogic_pair]
      exact hfirst.pair hsecond (accepted_of_serves hfirst.fits (hx.serves_boolean hleft))
        (accepted_of_serves hsecond.fits (hy.serves_boolean hright)) (.logic o)
  | compare o hx hy ihx ihy =>
      have hfirst := ihx (itemPath path o.symbol 0)
      have hsecond := ihy (itemPath path o.symbol 1)
      rw [Plan.ofRule_compare]
      exact hfirst.pair hsecond (accepted_of_serves hfirst.fits (serves_any _ _))
        (accepted_of_serves hsecond.fits (serves_any _ _)) (.compare o)
  | choice hcondition htype _ _ _ _ ihc iht ihf =>
      have hfirst := ihc (itemPath path "if" 0)
      have hsecond := carries_branch iht (itemPath path "if" 1)
      have hthird := carries_branch ihf (itemPath path "if" 2)
      rw [Plan.ofRule_choice, Plan.ofChoice_triple]
      exact hfirst.choice hcondition.ne_null hsecond hthird
        (accepted_of_serves hfirst.fits (hcondition.serves_boolean htype))
        (accepted_of_serves hsecond.fits (serves_any _ _))
        (accepted_of_serves hthird.fits (serves_any _ _))

/-! ## Documents -/

/-- What a Result shows of a rule that its draft carries. -/
theorem Carries.result {rule : Json} {path : String}
    (hcarries : Carries c rule (Plan.ofRule c rule path)) (hrule : rule ≠ .null) {α : Type}
    {g : Graph α} {id : String} (hholds : g.HoldsRule c.catalog id (Plan.ofRule c rule path).1) :
    ∃ e, g.incoming? ⟨id, 0⟩ = some e ∧ g.Represents e.source.node rule := by
  have haccepted : Accepted c.catalog (Payload.result.kind.expected 0) _ :=
    accepted_of_serves hcarries.fits (serves_any _ _)
  cases (hcarries.supplies haccepted hholds.2).1 with
  | unwired _ => exact absurd rfl hrule
  | wired hin hsource => exact ⟨_, hin, hsource⟩

/-- No checked rule is `null`, and each has a normal form that differs from it in writing only. -/
theorem normalRules_of_typed {rules : List Json}
    (htyped : ∀ rule ∈ rules, ∃ type, Typed c rule type) :
    normalRules c rules = rules.map (rewritten accepted) := by
  have hpresent : rules.filter (fun rule => !isNull rule) = rules := by
    refine List.filter_eq_self.mpr fun rule hrule => ?_
    obtain ⟨_, hrule⟩ := htyped rule hrule
    rw [isNull_of_ne hrule.ne_null]
    rfl
  rw [normalRules, hpresent]
  refine List.map_congr_left fun rule hrule => ?_
  obtain ⟨_, hrule⟩ := htyped rule hrule
  exact hrule.normal_eq

/-- Importing a document that the check lets through succeeds at every desk with the same catalog,
and with the same leniency it keeps every rule. No more is reported than defaults of variables that
are dropped, unknown variables that are let in, and true branches that are `null`. Every rule has a
Result, in order, that is wired to a node that represents it, so that no fragment is replaced and no
wire refused. And the graph compiles to the rules as they were written, but for operands in a list
of their own, defaults of variables, and true branches that are `null`. -/
theorem import_checked (i : Importer Double) {d : Desk Double}
    (hcatalog : d.catalog = i.context.catalog) (hguarded : d.store.guarded = true)
    (hnames : Function.Injective d.journal.ids.name) {document : Json} {types : List ValueType}
    (hcheck : check i.context document = .ok types) :
    ∃ rules imported d', document.member? "status_rules" = some (.arr rules) ∧
      i.run document d = (.ok imported, d') ∧
      (∀ issue ∈ imported.issues, Permitted i.context issue) ∧
      List.Forall₂ (fun rule n => ∃ e, d'.graph.incoming? ⟨n.id, 0⟩ = some e ∧
        d'.graph.Represents e.source.node rule) rules (d'.graph.ofKind .result) ∧
      d'.graph.ruleTree =
        .obj [("status_rules", .arr (rules.map (rewritten accepted)))] := by
  obtain ⟨rules, hrules, htypes⟩ := check_eq_ok_iff.mp hcheck
  have htyped : ∀ rule ∈ rules, ∃ type, Typed i.context rule type :=
    ((List.forall₂_and_left _ _).mp (htypes.imp fun _ type hrule => ⟨⟨type, hrule⟩, hrule⟩)).1
  have hcarries : ∀ r ∈ rules.zipIdx,
      r.1 ≠ .null ∧ Carries i.context r.1 (Plan.ofRule i.context r.1 (rulePath r.2)) := by
    intro r hr
    obtain ⟨type, hrule⟩ := htyped r.1 (List.fst_mem_of_mem_zipIdx hr)
    exact ⟨hrule.ne_null, hrule.carries _⟩
  obtain ⟨imported, d', hrun, hissues, hwired, hholds⟩ :=
    i.run_spec hcatalog hguarded hnames hrules (plans_proper i rules)
  refine ⟨rules, imported, d', member?_of_rulesOf hrules, hrun, ?_, ?_, ?_⟩
  · intro issue hissue
    have hfits : i.rulesMisfits ((i.plans rules).map (·.1)) = [] := by
      refine rulesMisfits_eq_nil fun draft hdraft => ?_
      obtain ⟨r, hr, rfl⟩ := List.mem_map.mp hdraft
      exact (hcarries r hr).2.fits
    rw [hissues, hfits, List.append_nil] at hissue
    obtain ⟨draft, hdraft, hmem⟩ := List.mem_flatMap.mp hissue
    obtain ⟨r, hr, rfl⟩ := List.mem_map.mp hdraft
    exact (hcarries r hr).2.issues issue hmem
  · rw [← List.zipIdx_map_fst 0 rules, List.forall₂_map_left_iff]
    have hplans := hholds.flip
    rw [Importer.plans, List.map_map, List.forall₂_map_left_iff] at hplans
    refine ((List.forall₂_and_left _ _).mpr ⟨hcarries, hplans⟩).imp ?_
    rintro r n ⟨⟨hrule, hcarried⟩, hheld⟩
    exact hcarried.result hrule hheld
  · rw [ruleTree_of_holdsRules hwired hholds, normalRules_of_typed htyped]

/-- A variable with a default within a negation, one that is not in the catalog, and a choice
without its true branch. -/
theorem import_checked_sample :
    let i : Importer Double := ⟨⟨.attendance, true⟩, .usual⟩
    let session : Json := .str "is_first_session"
    let shift : Json := .obj [("var", .str "shift")]
    let rule : Json := .obj [("if", .arr [
      .obj [("and", .arr [.obj [("not", .arr [.obj [("var", .arr [session, .bool false])]])],
        shift])], .null, .obj [("<", .arr [.int 1, shift])]])]
    let document : Json := .obj [("status_rules", .arr [rule])]
    let d := Desk.fresh i.context.catalog ⟨.counting, []⟩
    check i.context document = .ok [.any] ∧
    ∃ rules imported d', document.member? "status_rules" = some (.arr rules) ∧
      i.run document d = (.ok imported, d') ∧
      (∀ issue ∈ imported.issues, Permitted i.context issue) ∧
      List.Forall₂ (fun rule n => ∃ e, d'.graph.incoming? ⟨n.id, 0⟩ = some e ∧
        d'.graph.Represents e.source.node rule) rules (d'.graph.ofKind .result) ∧
      d'.graph.ruleTree =
        .obj [("status_rules", .arr (rules.map (rewritten accepted)))] := by
  intro i session shift rule document d
  have hcheck : check i.context document = .ok [.any] := by
    have hsession : Catalog.attendance.typeOf "is_first_session" = .boolean := by decide +kernel
    have hshift : Catalog.attendance.typeOf "shift" = .any := by decide +kernel
    simp [i, session, shift, rule, document, check, rulesOf, Json.find?, infer, inferBranch,
      variableType, variableKey?, hsession, hshift, CompareOperator.ofSymbol?, expectBoolean,
      joinType, bind, Except.bind, pure, Except.pure]
  exact ⟨hcheck, import_checked i rfl rfl Importer.counting_injective hcheck⟩

-- The rule of the sample as it is written in the end.
example :
    let session : Json := .str "is_first_session"
    let shift : Json := .obj [("var", .str "shift")]
    rewritten accepted (.obj [("if", .arr [
      .obj [("and", .arr [.obj [("not", .arr [.obj [("var", .arr [session, .bool false])]])],
        shift])], .null, .obj [("<", .arr [.int 1, shift])]])]) =
    .obj [("if", .arr [.obj [("and", .arr [.obj [("not", .obj [("var", session)])], shift])],
      .str "PRESENT", .obj [("<", .arr [.int 1, shift])]])] := rfl

end Rule

end RuleCanvas
