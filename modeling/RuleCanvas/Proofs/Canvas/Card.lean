import Mathlib.Algebra.Order.Ring.Abs
import RuleCanvas.Canvas.Card
import RuleCanvas.Proofs.Canvas.View

/-! # Cards over exact coordinates

The card of a node is a rectangle with its border. All cards are equally wide, and all but those of
Ifs, which have the most ports, are equally high. Ports are hit in strips along both sides of a
card, so that a point that is in no strip and on one card only hits the body of that card.
-/

namespace RuleCanvas

theorem Scalar.abs_rat (a : ℚ) : Scalar.abs a = |a| := by
  rw [Scalar.abs, Scalar.ofInt_rat, Int.cast_zero]
  split
  · next hneg => exact (abs_of_neg hneg).symm
  · next hpos => exact (abs_of_nonneg (not_lt.mp hpos)).symm

theorem Card.width_rat : (Card.width : ℚ) = 192 :=
  Scalar.ofInt_rat 192

theorem NodeKind.cardHeight_rat (kind : NodeKind) :
    (kind.cardHeight : ℚ) = if kind = .choice then 118 else 96 := by
  cases kind <;> decide +kernel

namespace Node

theorem le_cardHeight (n : Node ℚ) : 96 ≤ (n.kind.cardHeight : ℚ) := by
  rw [NodeKind.cardHeight_rat]
  split <;> norm_num

theorem cardHeight_le (n : Node ℚ) : (n.kind.cardHeight : ℚ) ≤ 118 := by
  rw [NodeKind.cardHeight_rat]
  split <;> norm_num

theorem contains_iff (n : Node ℚ) (p : Point ℚ) :
    n.contains p = true ↔
      (n.x ≤ p.x ∧ p.x ≤ n.x + 192) ∧ n.y ≤ p.y ∧ p.y ≤ n.y + n.kind.cardHeight := by
  simp only [contains, Card.width_rat, Bool.and_eq_true, decide_eq_true_eq, and_assoc]

/-! ## Overlapping cards -/

/-- Two cards have a point in common. -/
def Overlaps (m n : Node ℚ) : Prop := ∃ p, m.contains p = true ∧ n.contains p = true

theorem overlaps_comm {m n : Node ℚ} : m.Overlaps n ↔ n.Overlaps m := by
  simp only [Overlaps, and_comm]

theorem overlaps_iff (m n : Node ℚ) :
    m.Overlaps n ↔ |n.x - m.x| ≤ 192 ∧
      n.y ≤ m.y + m.kind.cardHeight ∧ m.y ≤ n.y + n.kind.cardHeight := by
  simp only [Overlaps, contains_iff, abs_le]
  constructor
  · rintro ⟨p, ⟨⟨_, _⟩, _, _⟩, ⟨_, _⟩, _, _⟩
    refine ⟨⟨?_, ?_⟩, ?_, ?_⟩ <;> linarith
  · rintro ⟨⟨hleft, hright⟩, hbelow, habove⟩
    -- The corner of the overlap is as far to the right and as far down as one
    -- of the two cards starts.
    refine ⟨⟨max m.x n.x, max m.y n.y⟩, ⟨⟨le_max_left _ _, ?_⟩, le_max_left _ _, ?_⟩,
      ⟨le_max_right _ _, ?_⟩, le_max_right _ _, ?_⟩
    all_goals have := m.le_cardHeight; have := n.le_cardHeight; apply max_le <;> linarith

/-! ## What is hit -/

/-- The middle of the body of a card. -/
def middle (n : Node ℚ) : Point ℚ := ⟨n.x + Card.width / 2, n.y + n.kind.cardHeight / 2⟩

theorem contains_middle (n : Node ℚ) : n.contains n.middle = true := by
  have := n.le_cardHeight
  rw [contains_iff, middle, Card.width_rat]
  refine ⟨⟨?_, ?_⟩, ?_, ?_⟩ <;> linarith

/-- A point in none of the two strips beside a card hits no port of it. -/
theorem portAt?_eq_none {n : Node ℚ} {p : Point ℚ}
    (hinputs : p.x < n.x - 24 ∨ n.x < p.x)
    (houtputs : p.x < n.x + 192 ∨ n.x + 216 < p.x) : n.portAt? p = none := by
  have hmiss (direction : PortDirection) (index : Nat) : n.reaches p direction index = false := by
    rw [Bool.eq_false_iff]
    intro hreaches
    simp only [reaches, Bool.and_eq_true, decide_eq_true_eq, Scalar.abs_rat, Card.portReach,
      Scalar.ofInt_rat, abs_le] at hreaches
    obtain ⟨⟨hleft, hright⟩, _⟩ := hreaches
    cases direction with
    | input =>
        simp only [anchor, Card.portOutset, Scalar.ofInt_rat] at hleft hright
        push_cast at hleft hright
        rcases hinputs with hinputs | hinputs <;> linarith
    | output =>
        simp only [anchor, Card.portOutset, Card.width, Scalar.ofInt_rat] at hleft hright
        push_cast at hleft hright
        rcases houtputs with houtputs | houtputs <;> linarith
  simp [portAt?, hmiss]

end Node

/-- A point that hits no port and is on one card only hits the body of that card. -/
theorem Graph.hit?_eq_body {α : Type} [Scalar α] {g : Graph α} {p : Point α} {n : Node α}
    (hn : n ∈ g.nodes) (hports : ∀ m ∈ g.nodes, m.portAt? p = none) (hbody : n.contains p = true)
    (hother : ∀ m ∈ g.nodes, m.contains p = true → m = n) : g.hit? p = some (.body n.id) := by
  have hnone {f : Node α → Option Hit} (hf : ∀ m, m.portAt? p = none → f m = none) :
      g.nodes.reverse.findSome? f = none := by
    rw [List.findSome?_eq_none_iff]
    exact fun m hm => hf m (hports m (List.mem_reverse.mp hm))
  have hfound : (g.nodes.reverse.findSome? fun m =>
      if m.contains p then some (Hit.body m.id) else none).isSome = true := by
    rw [List.findSome?_isSome_iff]
    exact ⟨n, List.mem_reverse.mpr hn, by simp [hbody]⟩
  obtain ⟨hit, hhit⟩ := Option.isSome_iff_exists.mp hfound
  obtain ⟨m, hm, hhitBody⟩ := List.exists_of_findSome?_eq_some hhit
  split at hhitBody
  next hcontains =>
    cases hhitBody
    rw [hother m (List.mem_reverse.mp hm) hcontains] at hhit
    rw [hit?, hnone, hhit]
    · rfl
    · intro m hport
      rw [hport, Option.map_none]
  next => cases hhitBody

end RuleCanvas
