import RuleCanvas.Proofs.Rule.Seats

/-! # Room for choices

A choice has the most ports and the highest card, and two rows are enough for it. It has them
unless its condition or its true branch is `null`, and each of these is reported where the rule is
planned. So the only plans in which a choice is short of room are those of rules that leave such
an operand to its default.
-/

namespace RuleCanvas

/-- An issue about an operand of a choice that is `null` and left to its default. -/
def ImportIssue.SaysDefault (issue : ImportIssue) : Prop :=
  issue.message = "Null condition left unwired (compiles to true)" ∨
    issue.message = "Null true-branch left unwired (compiles to \"PRESENT\")"

instance (issue : ImportIssue) : Decidable issue.SaysDefault :=
  inferInstanceAs (Decidable (_ ∨ _))

/-! ## Roomy plans -/

mutual

/-- A plan in which every choice has two rows or more. -/
def Plan.Roomy : Plan → Prop
  | .node payload _ inputs => (payload.kind = .choice → 2 ≤ inputs.rows) ∧ inputs.Roomy

def Inputs.Roomy : Inputs → Prop
  | .done => True
  | .unwired rest => rest.Roomy
  | .wired plan rest => plan.Roomy ∧ rest.Roomy

end

mutual

theorem Plan.Roomy.seats {plan : Plan} (hroomy : plan.Roomy) (depth first : Nat) :
    ∀ a ∈ plan.seats depth first, a.payload.kind = .choice → 2 ≤ a.rows := by
  cases plan with
  | node payload path inputs =>
      obtain ⟨hown, hinputs⟩ := hroomy
      refine List.forall_mem_append.mpr ⟨hinputs.seats (depth + 1) first, ?_⟩
      intro a ha hchoice
      rw [List.mem_singleton.mp ha] at hchoice ⊢
      exact (hown hchoice).trans (Nat.le_max_right _ _)

theorem Inputs.Roomy.seats {inputs : Inputs} (hroomy : inputs.Roomy) (depth first : Nat) :
    ∀ a ∈ inputs.seats depth first, a.payload.kind = .choice → 2 ≤ a.rows := by
  cases inputs with
  | done => simp [Inputs.seats]
  | unwired rest =>
      have hrest : rest.Roomy := hroomy
      exact hrest.seats depth first
  | wired plan rest =>
      obtain ⟨hplan, hrest⟩ := hroomy
      exact List.forall_mem_append.mpr
        ⟨hplan.seats depth first, hrest.seats depth (first + plan.rows)⟩

end

theorem Inputs.roomy_ofList {plans : List (Option Plan)}
    (hplans : ∀ plan ∈ plans, ∀ p ∈ plan, p.Roomy) : (Inputs.ofList plans).Roomy := by
  induction plans with
  | nil => trivial
  | cons plan rest ih =>
      have hrest := ih fun p hp => hplans p (List.mem_cons_of_mem _ hp)
      cases plan with
      | none => exact hrest
      | some plan => exact ⟨hplans _ List.mem_cons_self plan rfl, hrest⟩

namespace Rule

theorem rulesSeats_roomy {plans : List (Option Plan)} (hplans : ∀ plan ∈ plans, ∀ p ∈ plan, p.Roomy)
    (first : Nat) : ∀ a ∈ rulesSeats first plans, a.payload.kind = .choice → 2 ≤ a.rows := by
  induction plans generalizing first with
  | nil => simp [rulesSeats]
  | cons plan rest ih =>
      obtain ⟨hplan, hrest⟩ := List.forall_mem_cons.mp hplans
      refine List.forall_mem_append.mpr ⟨?_, ih hrest _⟩
      cases plan with
      | none => simp [ruleSeats, Payload.kind]
      | some plan =>
          refine List.forall_mem_append.mpr ⟨(hplan plan rfl).seats 1 first, ?_⟩
          simp [Payload.kind]

/-! ## Planning -/

/-- A draft that is roomy unless it reports that an operand is left to its default. -/
def RoomyDraft (draft : Plan.Draft) : Prop :=
  (∀ issue ∈ draft.2, ¬ issue.SaysDefault) → ∀ p ∈ draft.1, p.Roomy

theorem roomyDraft_none (issues : List ImportIssue) : RoomyDraft (none, issues) :=
  fun _ => nofun

theorem roomyDraft_leaf {payload : Payload} (hpayload : payload.kind ≠ .choice) (path : String)
    (issues : List ImportIssue) : RoomyDraft (some (.leaf payload path), issues) := by
  intro _ p hp
  cases hp
  exact ⟨fun hchoice => absurd hchoice hpayload, trivial⟩

theorem NoRule.roomyDraft {rule : Json} (hrule : NoRule rule) (c : Context) (path : String) :
    RoomyDraft (Plan.ofRule c rule path) := by
  obtain ⟨message, hplan, _⟩ := hrule.plan_eq c path
  rw [hplan]
  exact roomyDraft_leaf (by simp [Payload.kind]) _ _

theorem ofVariable_roomyDraft (c : Context) (args : Json) (path : String) :
    RoomyDraft (Plan.ofVariable c args path) := by
  unfold Plan.ofVariable
  cases variableKey? args with
  | none => exact roomyDraft_leaf (by simp [Payload.kind]) _ _
  | some key =>
      dsimp only
      split
      · exact roomyDraft_leaf (by simp [Payload.kind]) _ _
      · split
        · exact roomyDraft_leaf (by simp [Payload.kind]) _ _
        · exact roomyDraft_leaf (by simp [Payload.kind]) _ _

/-- A node that is no choice has room if what feeds it has. -/
theorem roomy_node {payload : Payload} (hpayload : payload.kind ≠ .choice) (path : String)
    {plans : List (Option Plan)} (hplans : ∀ plan ∈ plans, ∀ p ∈ plan, p.Roomy) :
    (Plan.node payload path (Inputs.ofList plans)).Roomy :=
  ⟨fun hchoice => absurd hchoice hpayload, Inputs.roomy_ofList hplans⟩

theorem fold_roomy (o : LogicOperator) (path : String) {first : Plan} (hfirst : first.Roomy)
    {plans : List (Option Plan)} (hplans : ∀ plan ∈ plans, ∀ p ∈ plan, p.Roomy) :
    (Plan.fold o path first plans).Roomy := by
  induction plans generalizing first with
  | nil => exact hfirst
  | cons plan rest ih =>
      obtain ⟨hplan, hrest⟩ := List.forall_mem_cons.mp hplans
      refine ih (roomy_node (by simp [Payload.kind]) path ?_) hrest
      simpa using ⟨hfirst, hplan⟩

theorem ofNegation_roomyDraft {draft : Plan.Draft} (hdraft : RoomyDraft draft) (path : String) :
    RoomyDraft (Plan.ofNegation draft path) := by
  intro hissues p hp
  cases hp
  refine roomy_node (by simp [Payload.kind]) path ?_
  simpa using hdraft hissues

theorem ofLogic_roomyDraft (o : LogicOperator) (args : Json) {operands : List Plan.Draft}
    (path : String) (hoperands : ∀ draft ∈ operands, RoomyDraft draft) :
    RoomyDraft (Plan.ofLogic o args operands path) := by
  have hplans {more : List ImportIssue}
      (hissues : ∀ issue ∈ operands.flatMap (·.2) ++ more, ¬ issue.SaysDefault) :
      ∀ plan ∈ operands.map (·.1), ∀ p ∈ plan, p.Roomy := by
    intro plan hplan
    obtain ⟨draft, hdraft, rfl⟩ := List.mem_map.mp hplan
    refine hoperands draft hdraft fun issue hissue => hissues issue ?_
    exact List.mem_append_left _ (List.mem_flatMap.mpr ⟨draft, hdraft, hissue⟩)
  unfold Plan.ofLogic
  dsimp only
  split
  next => exact roomyDraft_leaf (by simp [Payload.kind]) _ _
  next =>
    intro _ p hp
    cases hp
    exact roomy_node (by simp [Payload.kind]) path (by simp)
  next operand hoperand =>
    intro hissues p hp
    rw [hoperand] at hplans
    exact hplans hissues _ List.mem_cons_self p hp
  next a b rest hoperand =>
    intro hissues p hp
    cases hp
    rw [hoperand] at hplans
    obtain ⟨ha, hrest⟩ := List.forall_mem_cons.mp (hplans hissues)
    obtain ⟨hb, hrest⟩ := List.forall_mem_cons.mp hrest
    refine fold_roomy o path (roomy_node (by simp [Payload.kind]) path ?_) hrest
    simpa using ⟨ha, hb⟩

theorem ofRule_ne_none (c : Context) {rule : Json} (hrule : rule ≠ .null) (path : String) :
    (Plan.ofRule c rule path).1 ≠ none := by
  intro hnone
  have hstands := ofRule_stands c rule path
  rw [hnone] at hstands
  exact normal_ne_null c hrule hstands

/-- A choice over two drafts and perhaps a third. -/
theorem choice_roomyDraft (c : Context) {condition whenTrue : Json} {test yes path : String}
    {third : Plan.Draft} (hcondition : RoomyDraft (Plan.ofRule c condition test))
    (htrue : RoomyDraft (Plan.ofRule c whenTrue yes)) (hthird : RoomyDraft third)
    {issues : List ImportIssue} (hissues₀ : (Plan.ofRule c condition test).2 ⊆ issues)
    (hissues₁ : (Plan.ofRule c whenTrue yes).2 ⊆ issues) (hissues₂ : third.2 ⊆ issues)
    (hnull : Plan.nullIssues condition whenTrue path ⊆ issues) :
    RoomyDraft (some (.node .choice path (Inputs.ofList
      [(Plan.ofRule c condition test).1, (Plan.ofRule c whenTrue yes).1, third.1])), issues) := by
  intro hdefault p hp
  cases hp
  have hgiven : condition ≠ .null ∧ whenTrue ≠ .null := by
    constructor
    · rintro rfl
      refine hdefault _ (hnull (List.mem_append_left _ List.mem_cons_self)) (.inl rfl)
    · rintro rfl
      refine hdefault _ (hnull (List.mem_append_right _ List.mem_cons_self)) (.inr rfl)
  obtain ⟨a, ha⟩ := Option.ne_none_iff_exists'.mp (ofRule_ne_none c hgiven.1 test)
  obtain ⟨b, hb⟩ := Option.ne_none_iff_exists'.mp (ofRule_ne_none c hgiven.2 yes)
  refine ⟨fun _ => ?_, Inputs.roomy_ofList ?_⟩
  · have := a.rows_pos
    have := b.rows_pos
    simp only [ha, hb, Inputs.ofList, Inputs.rows]
    omega
  · have hfirst := hcondition fun issue hissue => hdefault issue (hissues₀ hissue)
    have hsecond := htrue fun issue hissue => hdefault issue (hissues₁ hissue)
    have hlast := hthird fun issue hissue => hdefault issue (hissues₂ hissue)
    simpa using ⟨hfirst, hsecond, hlast⟩

/-- A comparison over two drafts. -/
theorem compare_roomyDraft (o : CompareOperator) {a b : Plan.Draft} (ha : RoomyDraft a)
    (hb : RoomyDraft b) (path : String) :
    RoomyDraft (some (.node (.compare o) path (Inputs.ofList [a.1, b.1])), a.2 ++ b.2) := by
  intro hissues p hp
  cases hp
  obtain ⟨hfirst, hsecond⟩ := List.forall_mem_append.mp hissues
  refine roomy_node (by simp [Payload.kind]) path ?_
  simpa using ⟨ha hfirst, hb hsecond⟩

mutual

/-- What is planned for a rule is roomy, or it reports that an operand is left to its default. -/
theorem ofRule_roomyDraft (c : Context) (rule : Json) (path : String) :
    RoomyDraft (Plan.ofRule c rule path) := by
  match rule with
  | .null => exact roomyDraft_none _
  | .bool _ | .int _ | .float _ | .str _ | .arr _ | .obj [] | .obj (_ :: _ :: _) =>
      exact roomyDraft_leaf (by simp [Payload.kind]) _ _
  | .obj [(operator, args)] =>
      cases Plan.operatorView operator with
      | var =>
          rw [Plan.ofRule_var]
          exact ofVariable_roomyDraft c args path
      | not =>
          match args with
          | .arr [x] => exact ofNegation_roomyDraft (ofRule_roomyDraft c x _) path
          | .arr [] | .arr (_ :: _ :: _) => exact (NoRule.not _ (by simp)).roomyDraft c path
          | .null => exact ofNegation_roomyDraft (roomyDraft_none _) path
          | .bool _ | .int _ | .float _ | .str _ =>
              exact ofNegation_roomyDraft (roomyDraft_leaf (by simp [Payload.kind]) _ _) path
          | .obj members => exact ofNegation_roomyDraft (ofRule_roomyDraft c (.obj members) _) path
      | logic o ho =>
          match args with
          | .arr items =>
              rw [Plan.ofRule_logic _ _ ho]
              exact ofLogic_roomyDraft o _ path (ofItems_roomyDraft c items path o.symbol 0)
          | .null | .bool _ | .int _ | .float _ | .str _ | .obj _ =>
              exact (NoRule.logic o ho _ (by simp)).roomyDraft c path
      | compare o =>
          match args with
          | .arr [x, y] =>
              rw [Plan.ofRule_compare]
              exact compare_roomyDraft o (ofRule_roomyDraft c x _) (ofRule_roomyDraft c y _) path
          | .arr [] | .arr [_] | .arr (_ :: _ :: _ :: _)
          | .null | .bool _ | .int _ | .float _ | .str _
          | .obj _ => exact (NoRule.compare o _ (by simp)).roomyDraft c path
      | choice =>
          match args with
          | .arr items =>
              rw [Plan.ofRule_choice]
              exact ofChoice_roomyDraft c items path
          | .null | .bool _ | .int _ | .float _ | .str _ | .obj _ =>
              exact (NoRule.choice _ (by simp)).roomyDraft c path
      | unknown _ hvar hnot hand hor hchoice hcompare =>
          exact (NoRule.unknown _ args hvar hnot hand hor hchoice hcompare).roomyDraft c path

theorem ofItems_roomyDraft (c : Context) (items : List Json) (path operator : String)
    (index : Nat) : ∀ draft ∈ Plan.ofItems c items path operator index, RoomyDraft draft := by
  match items with
  | [] => rw [Plan.ofItems]; nofun
  | x :: xs =>
      rw [Plan.ofItems]
      exact List.forall_mem_cons.mpr
        ⟨ofRule_roomyDraft c x _, ofItems_roomyDraft c xs path operator (index + 1)⟩

theorem ofChoice_roomyDraft (c : Context) (items : List Json) (path : String) :
    RoomyDraft (Plan.ofChoice c items path) := by
  match items with
  | [] | [_] => exact roomyDraft_leaf (by simp [Payload.kind]) _ _
  | [condition, whenTrue] =>
      rw [Plan.ofChoice_pair]
      refine choice_roomyDraft c (ofRule_roomyDraft c condition _) (ofRule_roomyDraft c whenTrue _)
        (roomyDraft_none []) ?_ ?_ ?_ ?_ <;> intro issue <;> simp +contextual
  | [condition, whenTrue, whenFalse] =>
      rw [Plan.ofChoice_triple]
      refine choice_roomyDraft c (ofRule_roomyDraft c condition _) (ofRule_roomyDraft c whenTrue _)
        (ofRule_roomyDraft c whenFalse _) ?_ ?_ ?_ ?_ <;> intro issue <;> simp +contextual
  | condition :: whenTrue :: x :: y :: rest =>
      refine choice_roomyDraft c (ofRule_roomyDraft c condition _) (ofRule_roomyDraft c whenTrue _)
        (ofChoice_roomyDraft c (x :: y :: rest) (path ++ ".if[2:]")) ?_ ?_ ?_ ?_ <;>
        intro issue <;> simp +contextual

end

/-- A document of which no operand is reported to be left to its default has roomy plans. -/
theorem plans_roomy {α : Type} (i : Importer α) {rules : List Json}
    (hissues : ∀ issue ∈ (i.plans rules).flatMap (·.2), ¬ issue.SaysDefault) :
    ∀ plan ∈ (i.plans rules).map (·.1), ∀ p ∈ plan, p.Roomy := by
  intro plan hplan
  obtain ⟨draft, hdraft, rfl⟩ := List.mem_map.mp hplan
  have hroomy : RoomyDraft draft := by
    obtain ⟨r, _, rfl⟩ := List.mem_map.mp hdraft
    exact ofRule_roomyDraft i.context r.1 (rulePath r.2)
  exact hroomy fun issue hissue => hissues issue (List.mem_flatMap.mpr ⟨draft, hdraft, hissue⟩)

end Rule

end RuleCanvas
