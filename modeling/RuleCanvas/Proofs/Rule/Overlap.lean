import RuleCanvas.Proofs.Canvas.Card
import RuleCanvas.Proofs.Rule.Roomy

/-! # Cards of an import

With the usual spacing the columns of an import are further apart than a card is wide, and its
rows are further apart than a card is high, unless it is the card of an If. An If that has one
row therefore reaches into the card one row below it, and no other cards overlap; an If has
one row only if it is reported that one of its operands is left to its default. The middle of
every card is still its own.
-/

namespace RuleCanvas

/-- One is the card of an If, and the other is in its column, one row below. -/
def Node.Crowds (m n : Node ℚ) : Prop :=
  m.kind = .choice ∧ n.x = m.x ∧ n.y = m.y + (Rule.Spacing.usual : Rule.Spacing ℚ).row

namespace Rule

theorem Spacing.usual_column : (usual : Spacing ℚ).column = 250 := Scalar.ofInt_rat 250

theorem Spacing.usual_row : (usual : Spacing ℚ).row = 100 := Scalar.ofInt_rat 100

theorem Spacing.usual_row_pos : 0 < (usual : Spacing ℚ).row := by
  rw [usual_row]
  norm_num

namespace Takes

variable {m n : Node ℚ} {a b : Seat}

/-! ## Columns and rows -/

theorem x_sub (hm : Takes .usual m a) (hn : Takes .usual n b) :
    ∃ k : ℤ, a.depth - b.depth = k ∧ n.x - m.x = 250 * k := by
  refine ⟨_, rfl, ?_⟩
  simp only [hm.x_eq, hn.x_eq, Spacing.x, Spacing.usual_column, Scalar.ofInt_rat]
  push_cast
  ring

theorem y_sub (hm : Takes .usual m a) (hn : Takes .usual n b) :
    ∃ k : ℤ, n.y - m.y = 50 * k := by
  refine ⟨(2 * b.first + b.rows) - (2 * a.first + a.rows), ?_⟩
  simp only [hm.y_eq, hn.y_eq, Spacing.y_rat, Spacing.line, Spacing.usual_row]
  push_cast
  ring

theorem depth_eq_of_near (hm : Takes .usual m a) (hn : Takes .usual n b)
    (hnear : |n.x - m.x| < 250) : a.depth = b.depth := by
  obtain ⟨k, hk, hx⟩ := hm.x_sub hn
  rw [hx, abs_lt] at hnear
  have hleft : (-1 : ℚ) < k := by linarith
  have hright : (k : ℚ) < 1 := by linarith
  norm_cast at hleft hright
  omega

/-- No port of a node is hit in the middle of a card. -/
theorem portAt?_middle (hm : Takes .usual m a) (hn : Takes .usual n b) :
    m.portAt? n.middle = none := by
  obtain ⟨k, _, hx⟩ := hm.x_sub hn
  -- In one column the middle is between the strips; otherwise a whole column lies between.
  apply Node.portAt?_eq_none <;> rw [Node.middle, Card.width_rat]
  · rcases le_or_gt 0 k with hk | hk
    · right
      have : (0 : ℚ) ≤ k := by exact_mod_cast hk
      linarith
    · left
      have : (k : ℚ) ≤ -1 := by exact_mod_cast Int.le_sub_one_of_lt hk
      linarith
  · rcases le_or_gt k 0 with hk | hk
    · left
      have : (k : ℚ) ≤ 0 := by exact_mod_cast hk
      linarith
    · right
      have : (1 : ℚ) ≤ k := by exact_mod_cast hk
      linarith

theorem depth_eq_of_contains_middle (hm : Takes .usual m a) (hn : Takes .usual n b)
    (hcontains : m.contains n.middle = true) : a.depth = b.depth := by
  rw [Node.contains_iff, Node.middle, Card.width_rat] at hcontains
  obtain ⟨⟨hleft, hright⟩, _⟩ := hcontains
  refine hm.depth_eq_of_near hn (abs_lt.mpr ⟨?_, ?_⟩) <;> linarith

end Takes

/-! ## Two cards -/

namespace TakesAbove

variable {m n : Node ℚ} {a b : Seat}

theorem hundred_le_sub (h : TakesAbove .usual m n a b) (hdepth : a.depth = b.depth) :
    100 ≤ n.y - m.y := by
  rw [← Spacing.usual_row]
  exact h.row_le_sub Spacing.usual_row_pos hdepth

theorem depth_eq_of_x (h : TakesAbove .usual m n a b) (hx : n.x = m.x) : a.depth = b.depth :=
  h.upper.depth_eq_of_near h.lower (by rw [hx, sub_self, abs_zero]; norm_num)

theorem overlaps_iff_crowds (h : TakesAbove .usual m n a b) : m.Overlaps n ↔ m.Crowds n := by
  rw [Node.overlaps_iff, Node.Crowds, Spacing.usual_row]
  constructor
  · rintro ⟨hx, hbelow, _⟩
    have hdepth := h.upper.depth_eq_of_near h.lower (lt_of_le_of_lt hx (by norm_num))
    have hrow := h.hundred_le_sub hdepth
    have hheight := m.cardHeight_le
    have hchoice : m.kind = .choice := by
      by_contra hother
      rw [NodeKind.cardHeight_rat, if_neg hother] at hbelow
      linarith
    refine ⟨hchoice, by rw [h.upper.x_eq, h.lower.x_eq, hdepth], ?_⟩
    -- Cards are apart by whole halves of a row, and here by less than a row and a half.
    obtain ⟨k, hy⟩ := h.upper.y_sub h.lower
    have hlow : (2 : ℚ) ≤ k := by linarith
    have hhigh : (k : ℚ) < 3 := by linarith
    norm_cast at hlow hhigh
    obtain rfl : k = 2 := by omega
    push_cast at hy
    linarith
  · rintro ⟨hchoice, hx, hy⟩
    have hheight := n.le_cardHeight
    rw [NodeKind.cardHeight_rat m.kind, if_pos hchoice, hx, hy]
    refine ⟨by norm_num, ?_, ?_⟩ <;> linarith

theorem not_crowds (h : TakesAbove .usual m n a b) : ¬ n.Crowds m := by
  rintro ⟨_, hx, hy⟩
  have hrow := h.hundred_le_sub (h.depth_eq_of_x hx.symm)
  rw [Spacing.usual_row] at hy
  linarith

theorem overlaps_iff (h : TakesAbove .usual m n a b) :
    m.Overlaps n ↔ m.Crowds n ∨ n.Crowds m := by
  rw [h.overlaps_iff_crowds, or_iff_left h.not_crowds]

/-- The only card that reaches into the one below is that of an If in a single row. -/
theorem not_overlaps (h : TakesAbove .usual m n a b)
    (hroomy : a.payload.kind = .choice → 2 ≤ a.rows) : ¬ m.Overlaps n := by
  intro hoverlaps
  obtain ⟨hkind, hx, hy⟩ := h.overlaps_iff_crowds.mp hoverlaps
  have htwo := hroomy (h.upper.payload ▸ hkind)
  have hpos := h.lower_rows
  have hrows := h.rows_le_sub Spacing.usual_row_pos (h.depth_eq_of_x hx)
  rw [Spacing.usual_row] at hy hrows
  have hsum : ((a.rows : ℚ) + b.rows) ≤ 2 := by linarith
  norm_cast at hsum
  omega

theorem not_contains_middle (h : TakesAbove .usual m n a b) :
    ¬ m.contains n.middle = true ∧ ¬ n.contains m.middle = true := by
  have hupper := m.cardHeight_le
  have hlower := n.le_cardHeight
  constructor
  · intro hcontains
    have hrow := h.hundred_le_sub (h.upper.depth_eq_of_contains_middle h.lower hcontains)
    rw [Node.contains_iff, Node.middle] at hcontains
    obtain ⟨_, _, hbelow⟩ := hcontains
    linarith
  · intro hcontains
    have hrow := h.hundred_le_sub (h.lower.depth_eq_of_contains_middle h.upper hcontains).symm
    rw [Node.contains_iff, Node.middle] at hcontains
    obtain ⟨_, habove, _⟩ := hcontains
    linarith

end TakesAbove

/-! ## Imports -/

/-- Over exact coordinates, with the usual spacing: whatever the rules of a document are, and
whatever was in the store, the import succeeds. Two of its cards overlap just if one is the card of
an If and the other is one row below it. This does not happen where every If has two rows or more,
and so not where the import reports of no operand that it is left to its default. The middle of
every card hits that card. -/
theorem import_cards {i : Importer ℚ} (hspacing : i.spacing = .usual) {d : Desk ℚ}
    (hcatalog : d.catalog = i.context.catalog) (hguarded : d.store.guarded = true)
    (hnames : Function.Injective d.journal.ids.name) {document : Json} {rules : List Json}
    (hrules : document.member? "status_rules" = some (.arr rules)) :
    ∃ imported d', i.run document d = (.ok imported, d') ∧
      (∀ m ∈ d'.graph.nodes, ∀ n ∈ d'.graph.nodes, m ≠ n →
        (m.Overlaps n ↔ m.Crowds n ∨ n.Crowds m)) ∧
      ((∀ plan ∈ (i.plans rules).map (·.1), ∀ p ∈ plan, p.Roomy) →
        ∀ m ∈ d'.graph.nodes, ∀ n ∈ d'.graph.nodes, m ≠ n → ¬ m.Overlaps n) ∧
      ((∀ issue ∈ imported.issues, ¬ issue.SaysDefault) →
        ∀ m ∈ d'.graph.nodes, ∀ n ∈ d'.graph.nodes, m ≠ n → ¬ m.Overlaps n) ∧
      ∀ n ∈ d'.graph.nodes, d'.graph.hit? n.middle = some (.body n.id) := by
  obtain ⟨imported, d', hrun, hissues, _, hplaced, _⟩ := i.run_places hcatalog hguarded hnames
    (rulesOf_of_member? hrules) (plans_proper i rules)
  have htakes := seats_of_placed hplaced
  have hpair {m n : Node ℚ} := seats_pair_of_placed hplaced (m := m) (n := n)
  rw [hspacing] at htakes hpair
  have hapart (hroomy : ∀ plan ∈ (i.plans rules).map (·.1), ∀ p ∈ plan, p.Roomy) :
      ∀ m ∈ d'.graph.nodes, ∀ n ∈ d'.graph.nodes, m ≠ n → ¬ m.Overlaps n := by
    have hwide := rulesSeats_roomy hroomy 0
    intro m hm n hn hne hoverlaps
    obtain ⟨a, ha, b, hb, habove | habove⟩ := hpair hm hn hne
    · exact habove.not_overlaps (hwide a ha) hoverlaps
    · exact habove.not_overlaps (hwide b hb) (Node.overlaps_comm.mp hoverlaps)
  refine ⟨imported, d', hrun, fun m hm n hn hne => ?_, hapart, fun hdefault => hapart ?_,
    fun n hn => ?_⟩
  · obtain ⟨a, _, b, _, habove | habove⟩ := hpair hm hn hne
    · exact habove.overlaps_iff
    · rw [Node.overlaps_comm, or_comm]
      exact habove.overlaps_iff
  · refine plans_roomy i fun issue hissue => hdefault issue ?_
    rw [hissues]
    exact List.mem_append_left _ hissue
  · refine Graph.hit?_eq_body hn (fun m hm => ?_) n.contains_middle (fun m hm hcontains => ?_)
    · obtain ⟨a, _, hma⟩ := exists_takes htakes hm
      obtain ⟨b, _, hnb⟩ := exists_takes htakes hn
      exact hma.portAt?_middle hnb
    · by_contra hne
      obtain ⟨a, _, b, _, habove | habove⟩ := hpair hm hn hne
      · exact habove.not_contains_middle.1 hcontains
      · exact habove.not_contains_middle.2 hcontains

/-- An If whose condition is refused has the room that its card needs all the same. -/
theorem import_cards_refused_condition :
    let i : Importer ℚ := ⟨⟨.attendance, false⟩, .usual⟩
    let rules : List Json :=
      [.obj [("and", .arr [.obj [("if", .arr [.int 5, .bool true])], .null])]]
    let document : Json := .obj [("status_rules", .arr rules)]
    let d := Desk.fresh i.context.catalog ⟨.counting, []⟩
    let reported : List ImportIssue := [⟨"$.status_rules[0].and[0].if[0]",
      "Type mismatch: cannot connect number to boolean; operand left unwired"⟩]
    ∃ imported d', i.run document d = (.ok imported, d') ∧ imported.issues = reported ∧
      (∀ m ∈ d'.graph.nodes, ∀ n ∈ d'.graph.nodes, m ≠ n → ¬ m.Overlaps n) ∧
      ∀ n ∈ d'.graph.nodes, d'.graph.hit? n.middle = some (.body n.id) := by
  intro i rules document d reported
  have hrules : document.member? "status_rules" = some (.arr rules) := rfl
  obtain ⟨imported, d', hrun, _, _, hapart, hhit⟩ :=
    import_cards (i := i) rfl (d := d) rfl rfl Importer.counting_injective hrules
  have hissues : (i.run document d).1.toOption.map (·.issues) = some reported := by decide +kernel
  rw [hrun] at hissues
  have hreported : imported.issues = reported := Option.some.inj hissues
  refine ⟨imported, d', hrun, hreported, hapart ?_, hhit⟩
  rw [hreported]
  decide +kernel

/-- An If without inputs has one row, and its card reaches into that of the next
operand, which is hit there. -/
theorem single_row_cards_overlap :
    let i : Importer ℚ := ⟨⟨.attendance, false⟩, .usual⟩
    let document : Json := .obj [("status_rules", .arr [
      .obj [("and", .arr [.obj [("if", .arr [.null, .null])], .bool true])]])]
    let answer := i.run document (Desk.fresh i.context.catalog ⟨.counting, []⟩)
    answer.1.toOption.isSome = true ∧
      ∃ m ∈ answer.2.graph.nodes, ∃ n ∈ answer.2.graph.nodes, m ≠ n ∧ m.Overlaps n ∧
        m.contains ⟨496, 210⟩ = true ∧ answer.2.graph.hit? ⟨496, 210⟩ = some (.body n.id) := by
  intro i document answer
  let first : Node ℚ := ⟨"n1", 400, 100, .choice⟩
  let second : Node ℚ := ⟨"n2", 400, 200, .constant (.bool true)⟩
  have hfirst : first.contains ⟨496, 210⟩ = true := by decide +kernel
  have hsecond : second.contains ⟨496, 210⟩ = true := by decide +kernel
  exact ⟨by decide +kernel, first, by decide +kernel, second, by decide +kernel, by decide +kernel,
    ⟨_, hfirst, hsecond⟩, hfirst, by decide +kernel⟩

end Rule

end RuleCanvas
