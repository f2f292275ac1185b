import RuleCanvas.Proofs.Canvas.View
import RuleCanvas.Proofs.Rule.Normal

/-! # Seats of planned nodes

Over exact coordinates the layout of an import is a matter of columns and rows. A planned node has a
seat: its column, counted from the Results, and a band of as many rows as there are leaves below it,
in the middle of which it stands. The inputs of a node share its band out among themselves in their
order, so that no two seats of one column have a row in common.
-/

namespace RuleCanvas

open Scalar (ofInt)

/-! ## Seats -/

/-- Where a planned node is seated: its column to the left of the Results, and its band of rows. -/
structure Seat where
  payload : Payload
  depth : Nat
  first : Nat
  rows : Nat

namespace Seat

/-- Two seats of one column, one with all its rows above the other. -/
def Above (a b : Seat) : Prop := a.depth = b.depth → a.first + a.rows ≤ b.first

/-- A seat from column `depth` on, with some rows of the band of `rows` rows from `first` on. -/
structure Within (a : Seat) (depth first rows : Nat) : Prop where
  depth_le : depth ≤ a.depth
  first_le : first ≤ a.first
  last_le : a.first + a.rows ≤ first + rows
  rows_pos : 1 ≤ a.rows

end Seat

mutual

/-- The seats of a plan whose band starts at the row `first`, in the order in
which its nodes are made. -/
def Plan.seats (depth first : Nat) : Plan → List Seat
  | .node payload _ inputs =>
    inputs.seats (depth + 1) first ++ [⟨payload, depth, first, max 1 inputs.rows⟩]

/-- The seats of the inputs of a node, in bands one after the other. -/
def Inputs.seats (depth first : Nat) : Inputs → List Seat
  | .done => []
  | .unwired rest => rest.seats depth first
  | .wired plan rest => plan.seats depth first ++ rest.seats depth (first + plan.rows)

end

namespace Rule

/-- The seats of a rule and of its Result. -/
def ruleSeats (first : Nat) : Option Plan → List Seat
  | none => [⟨.result, 0, first, 1⟩]
  | some plan => plan.seats 1 first ++ [⟨.result, 0, first, plan.rows⟩]

/-- The seats of rules below each other, with an empty row after each. -/
def rulesSeats (first : Nat) : List (Option Plan) → List Seat
  | [] => []
  | plan :: rest => ruleSeats first plan ++ rulesSeats (first + Importer.ruleRows plan + 1) rest

end Rule

theorem Plan.rows_pos (plan : Plan) : 1 ≤ plan.rows := by
  cases plan
  exact Nat.le_max_left 1 _

mutual

theorem Plan.seats_within (plan : Plan) (depth first : Nat) :
    ∀ a ∈ plan.seats depth first, a.Within depth first plan.rows := by
  cases plan with
  | node payload path inputs =>
      intro a ha
      rw [Plan.rows]
      rcases List.mem_append.mp ha with hinput | hroot
      · obtain ⟨hdepth, hfirst, hlast, hrows⟩ := inputs.seats_within (depth + 1) first a hinput
        exact ⟨by omega, hfirst, by omega, hrows⟩
      · rw [List.mem_singleton.mp hroot]
        exact ⟨Nat.le_refl _, Nat.le_refl _, Nat.le_refl _, Nat.le_max_left 1 _⟩

theorem Inputs.seats_within (inputs : Inputs) (depth first : Nat) :
    ∀ a ∈ inputs.seats depth first, a.Within depth first inputs.rows := by
  cases inputs with
  | done => simp [Inputs.seats]
  | unwired rest => exact rest.seats_within depth first
  | wired plan rest =>
      intro a ha
      rw [Inputs.rows]
      rcases List.mem_append.mp ha with hplan | hrest
      · obtain ⟨hdepth, hfirst, hlast, hrows⟩ := plan.seats_within depth first a hplan
        exact ⟨hdepth, hfirst, by omega, hrows⟩
      · obtain ⟨hdepth, hfirst, hlast, hrows⟩ :=
          rest.seats_within depth (first + plan.rows) a hrest
        exact ⟨hdepth, by omega, by omega, hrows⟩

end

mutual

/-- In each column the seats of a plan follow one another from the top to the bottom. -/
theorem Plan.seats_above (plan : Plan) (depth first : Nat) :
    (plan.seats depth first).Pairwise Seat.Above := by
  cases plan with
  | node payload path inputs =>
      refine List.pairwise_append.mpr
        ⟨inputs.seats_above (depth + 1) first, List.pairwise_singleton _ _, ?_⟩
      -- The node is alone in its column, as its inputs are at least one further to the left.
      intro a ha b hb hcolumn
      rw [List.mem_singleton.mp hb] at hcolumn
      have hdepth := (inputs.seats_within (depth + 1) first a ha).depth_le
      simp only at hcolumn
      omega

theorem Inputs.seats_above (inputs : Inputs) (depth first : Nat) :
    (inputs.seats depth first).Pairwise Seat.Above := by
  cases inputs with
  | done => exact .nil
  | unwired rest => exact rest.seats_above depth first
  | wired plan rest =>
      refine List.pairwise_append.mpr
        ⟨plan.seats_above depth first, rest.seats_above depth (first + plan.rows), ?_⟩
      intro a ha b hb _
      exact (plan.seats_within depth first a ha).last_le.trans
        (rest.seats_within depth (first + plan.rows) b hb).first_le

end

namespace Rule

theorem ruleSeats_within (plan : Option Plan) (first : Nat) :
    ∀ a ∈ ruleSeats first plan, a.Within 0 first (Importer.ruleRows plan) := by
  cases plan with
  | none =>
      intro a ha
      rw [List.mem_singleton.mp ha]
      exact ⟨Nat.le_refl _, Nat.le_refl _, Nat.le_refl _, Nat.le_refl _⟩
  | some plan =>
      intro a ha
      rcases List.mem_append.mp ha with hplan | hresult
      · obtain ⟨_, hfirst, hlast, hrows⟩ := plan.seats_within 1 first a hplan
        exact ⟨Nat.zero_le _, hfirst, hlast, hrows⟩
      · rw [List.mem_singleton.mp hresult]
        exact ⟨Nat.le_refl _, Nat.le_refl _, Nat.le_refl _, plan.rows_pos⟩

theorem ruleSeats_above (plan : Option Plan) (first : Nat) :
    (ruleSeats first plan).Pairwise Seat.Above := by
  cases plan with
  | none => exact List.pairwise_singleton _ _
  | some plan =>
      refine List.pairwise_append.mpr ⟨plan.seats_above 1 first, List.pairwise_singleton _ _, ?_⟩
      intro a ha b hb hcolumn
      rw [List.mem_singleton.mp hb] at hcolumn
      have hdepth := (plan.seats_within 1 first a ha).depth_le
      simp only at hcolumn
      omega

theorem rulesSeats_below (plans : List (Option Plan)) (first : Nat) :
    ∀ a ∈ rulesSeats first plans, first ≤ a.first ∧ 1 ≤ a.rows := by
  induction plans generalizing first with
  | nil => simp [rulesSeats]
  | cons plan rest ih =>
      intro a ha
      rcases List.mem_append.mp ha with hplan | hrest
      · have hwithin := ruleSeats_within plan first a hplan
        exact ⟨hwithin.first_le, hwithin.rows_pos⟩
      · obtain ⟨hfirst, hrows⟩ := ih _ a hrest
        exact ⟨by omega, hrows⟩

/-- In each column the seats of all rules follow one another from the top to the bottom. -/
theorem rulesSeats_above (plans : List (Option Plan)) (first : Nat) :
    (rulesSeats first plans).Pairwise Seat.Above := by
  induction plans generalizing first with
  | nil => exact .nil
  | cons plan rest ih =>
      refine List.pairwise_append.mpr ⟨ruleSeats_above plan first, ih _, ?_⟩
      intro a ha b hb _
      have hlast := (ruleSeats_within plan first a ha).last_le
      have hfirst := (rulesSeats_below rest _ b hb).1
      omega

/-! ## Coordinates -/

/-- Where a row starts. -/
def Spacing.line (s : Spacing ℚ) (row : Nat) : ℚ := Spacing.top + row * s.row

theorem Spacing.line_zero (s : Spacing ℚ) : s.line 0 = Spacing.top := by
  simp [line]

theorem Spacing.line_add (s : Spacing ℚ) (first rows : Nat) :
    s.line (first + rows) = s.line first + rows * s.row := by
  simp only [line]
  push_cast
  ring

theorem Spacing.rows_le_rows {s : Spacing ℚ} (hrow : 0 < s.row) {rows rows' : Nat}
    (hrows : rows ≤ rows') : rows * s.row ≤ rows' * s.row := by
  apply mul_le_mul_of_nonneg_right _ hrow.le
  exact_mod_cast hrows

theorem Spacing.below_line (s : Spacing ℚ) (first rows : Nat) :
    s.below (s.line first) rows = s.line (first + rows) := by
  rw [below, Scalar.ofInt_rat, line_add, Int.cast_natCast]

theorem Spacing.x_succ (s : Spacing ℚ) (depth : Nat) : s.x depth = s.x (depth + 1) + s.column := by
  simp only [x, Scalar.ofInt_rat]
  push_cast
  ring

theorem Spacing.y_rat (s : Spacing ℚ) (top : ℚ) (rows : Nat) :
    s.y top rows = top + (rows - 1) * s.row / 2 := by
  simp only [y, Scalar.ofInt_rat]
  push_cast
  ring

/-- A node stands in the column of a seat and in the middle of its band. -/
structure Takes (s : Spacing ℚ) (n : Node ℚ) (a : Seat) : Prop where
  payload : n.payload = a.payload
  x_eq : n.x = s.x a.depth
  y_eq : n.y = s.y (s.line a.first) a.rows

/-- Two nodes take two seats, of which the first is above the second if they are in one column. -/
structure TakesAbove (s : Spacing ℚ) (m n : Node ℚ) (a b : Seat) : Prop where
  upper : Takes s m a
  lower : Takes s n b
  upper_rows : 1 ≤ a.rows
  lower_rows : 1 ≤ b.rows
  above : a.Above b

variable {i : Importer ℚ} {s : Spacing ℚ}

mutual

theorem Placed.takes {depth first : Nat} {plan : Plan} {id : String} {nodes : List (Node ℚ)}
    {edges : List Edge} (hplaced : Placed i depth (i.spacing.line first) plan id nodes edges) :
    List.Forall₂ (Takes i.spacing) nodes (plan.seats depth first) := by
  cases plan with
  | node payload path inputs =>
      cases hplaced with
      | node _ hinputs _ => exact List.rel_append hinputs.takes (.cons ⟨rfl, rfl, rfl⟩ .nil)

theorem PlacedInputs.takes {depth first index : Nat} {inputs : Inputs} {feeds : List Feed}
    {nodes : List (Node ℚ)} {edges : List Edge}
    (hplaced : PlacedInputs i depth (i.spacing.line first) index inputs feeds nodes edges) :
    List.Forall₂ (Takes i.spacing) nodes (inputs.seats depth first) := by
  cases inputs with
  | done =>
      cases hplaced
      exact .nil
  | unwired rest =>
      cases hplaced with
      | unwired hrest => exact hrest.takes
  | wired plan rest =>
      cases hplaced with
      | wired hplan hrest =>
          rw [Spacing.below_line] at hrest
          exact List.rel_append hplan.takes hrest.takes

end

theorem PlacedRule.takes {first : Nat} {plan : Option Plan} {id : String} {nodes : List (Node ℚ)}
    {edges : List Edge} (hplaced : PlacedRule i (i.spacing.line first) plan id nodes edges) :
    List.Forall₂ (Takes i.spacing) nodes (ruleSeats first plan) := by
  cases hplaced with
  | null id =>
      refine .cons ⟨rfl, rfl, ?_⟩ .nil
      simp [Spacing.y_rat]
  | plan id edge hplan => exact List.rel_append hplan.takes (.cons ⟨rfl, rfl, rfl⟩ .nil)

/-- What placing rules adds stands in the seats of the rules. -/
theorem PlacedRules.takes {first : Nat} {plans : List (Option Plan)} {ids : List String}
    {nodes : List (Node ℚ)} {edges : List Edge}
    (hplaced : PlacedRules i (i.spacing.line first) plans ids nodes edges) :
    List.Forall₂ (Takes i.spacing) nodes (rulesSeats first plans) := by
  induction plans generalizing first ids nodes edges with
  | nil =>
      cases hplaced
      exact .nil
  | cons plan rest ih =>
      cases hplaced with
      | cons hplan hrest =>
          rw [Spacing.below_line] at hrest
          exact List.rel_append hplan.takes (ih hrest)

theorem exists_takes {nodes : List (Node ℚ)} {seats : List Seat}
    (htakes : List.Forall₂ (Takes s) nodes seats) {n : Node ℚ} (hn : n ∈ nodes) :
    ∃ a ∈ seats, Takes s n a := by
  induction htakes with
  | nil => cases hn
  | cons htake _ ih =>
      rcases List.mem_cons.mp hn with rfl | hn
      · exact ⟨_, List.mem_cons_self, htake⟩
      · obtain ⟨a, ha, hna⟩ := ih hn
        exact ⟨a, List.mem_cons_of_mem _ ha, hna⟩

theorem exists_takes_pair {nodes : List (Node ℚ)} {seats : List Seat}
    (htakes : List.Forall₂ (Takes s) nodes seats) (habove : seats.Pairwise Seat.Above)
    (hpos : ∀ a ∈ seats, 1 ≤ a.rows) {m n : Node ℚ} (hm : m ∈ nodes) (hn : n ∈ nodes)
    (hne : m ≠ n) :
    ∃ a ∈ seats, ∃ b ∈ seats, TakesAbove s m n a b ∨ TakesAbove s n m b a := by
  induction htakes with
  | nil => cases hm
  | @cons head seat rest seats htake hrest ih =>
      obtain ⟨hhead, htail⟩ := List.pairwise_cons.mp habove
      obtain ⟨hrows, hpos⟩ := List.forall_mem_cons.mp hpos
      rcases List.mem_cons.mp hm with rfl | hm' <;> rcases List.mem_cons.mp hn with rfl | hn'
      · exact (hne rfl).elim
      · obtain ⟨b, hb, hnb⟩ := exists_takes hrest hn'
        exact ⟨_, List.mem_cons_self, b, List.mem_cons_of_mem _ hb,
          .inl ⟨htake, hnb, hrows, hpos b hb, hhead b hb⟩⟩
      · obtain ⟨a, ha, hma⟩ := exists_takes hrest hm'
        exact ⟨a, List.mem_cons_of_mem _ ha, _, List.mem_cons_self,
          .inr ⟨htake, hma, hrows, hpos a ha, hhead a ha⟩⟩
      · obtain ⟨a, ha, b, hb, hpair⟩ := ih htail hpos hm' hn'
        exact ⟨a, List.mem_cons_of_mem _ ha, b, List.mem_cons_of_mem _ hb, hpair⟩

/-- Columns differ from each other. -/
theorem Takes.depth_eq {m n : Node ℚ} {a b : Seat} (hm : Takes s m a) (hn : Takes s n b)
    (hcolumn : 0 < s.column) (hx : m.x = n.x) : a.depth = b.depth := by
  rw [hm.x_eq, hn.x_eq] at hx
  simpa [Spacing.x, Scalar.ofInt_rat, hcolumn.ne'] using hx

namespace TakesAbove

variable {m n : Node ℚ} {a b : Seat}

/-- A node is above the next of its column by half the rows that both have. -/
theorem rows_le_sub (h : TakesAbove s m n a b) (hrow : 0 < s.row) (hdepth : a.depth = b.depth) :
    (a.rows + b.rows) * s.row / 2 ≤ n.y - m.y := by
  have hrows := Spacing.rows_le_rows hrow (h.above hdepth)
  push_cast at hrows
  simp only [h.upper.y_eq, h.lower.y_eq, Spacing.y_rat, Spacing.line]
  linarith

theorem row_le_sub (h : TakesAbove s m n a b) (hrow : 0 < s.row) (hdepth : a.depth = b.depth) :
    s.row ≤ n.y - m.y := by
  have hsub := h.rows_le_sub hrow hdepth
  have hupper := Spacing.rows_le_rows hrow h.upper_rows
  have hlower := Spacing.rows_le_rows hrow h.lower_rows
  push_cast at hupper hlower
  linarith

end TakesAbove

/-- What placing the rules of a document adds stands in their seats. -/
theorem seats_of_placed {plans : List (Option Plan)} {ids : List String} {nodes : List (Node ℚ)}
    {edges : List Edge} (hplaced : PlacedRules i Spacing.top plans ids nodes edges) :
    List.Forall₂ (Takes i.spacing) nodes (rulesSeats 0 plans) := by
  rw [← i.spacing.line_zero] at hplaced
  exact hplaced.takes

/-- Different nodes of an import have seats of which one is above the other if
they are in one column. -/
theorem seats_pair_of_placed {plans : List (Option Plan)} {ids : List String}
    {nodes : List (Node ℚ)} {edges : List Edge}
    (hplaced : PlacedRules i Spacing.top plans ids nodes edges) {m n : Node ℚ} (hm : m ∈ nodes)
    (hn : n ∈ nodes) (hne : m ≠ n) :
    ∃ a ∈ rulesSeats 0 plans, ∃ b ∈ rulesSeats 0 plans,
      TakesAbove i.spacing m n a b ∨ TakesAbove i.spacing n m b a :=
  exists_takes_pair (seats_of_placed hplaced) (rulesSeats_above plans 0)
    (fun a ha => (rulesSeats_below plans 0 a ha).2) hm hn hne

end Rule

end RuleCanvas
