import Mathlib.Algebra.Order.Ring.Rat
import Mathlib.Tactic.Linarith
import Mathlib.Tactic.Ring
import RuleCanvas.Proofs.Canvas.Zoom

/-! # Views over exact coordinates

A view is moved, zoomed and reset by actions that succeed or fail. Over rational numbers its zoom is
always above zero, so that the mappings between the screen and the world undo each other. The zoom
stays within its bounds from each change of it until the next reset, but it starts at one, and a
reset returns it there, whether or not one is within the bounds.
-/

namespace RuleCanvas

open Scalar (ofInt larger smaller)

/-! ## Exact coordinates -/

/-- The rational numbers as coordinates, on which all operations are exact. -/
instance : Scalar ℚ where
  ratio num den := num / den
  isZero x := decide (x = 0)
  ltDecidable := inferInstance
  leDecidable := inferInstance

theorem Scalar.ofInt_rat (n : Int) : (ofInt n : ℚ) = n := by
  change (n : ℚ) / ((1 : Nat) : ℚ) = n
  simp

theorem Scalar.divide_rat {a b : ℚ} (hb : b ≠ 0) : Scalar.divide a b = .ok (a / b) := by
  have hzero : Scalar.isZero b = false := decide_eq_false hb
  rw [Scalar.divide, hzero]
  rfl

theorem ZoomBounds.min_pos_rat (bounds : ZoomBounds ℚ) : 0 < bounds.min := by
  have hpos := bounds.min_pos
  rw [Scalar.ofInt_rat, Int.cast_zero] at hpos
  exact lt_of_not_ge hpos

theorem ZoomBounds.min_lt_max (bounds : ZoomBounds ℚ) : bounds.min < bounds.max :=
  lt_of_not_ge bounds.min_below_max

namespace Viewport

/-! ## Actions -/

/-- Something that is done to a view. -/
inductive Action (α : Type) where
  | pan (dx dy : Reading α)
  | zoomBy (delta : Reading α)
  | zoomIn
  | zoomOut
  | reset
  | setRect (x y : Reading α) (width height : Option (Reading α))

/-- A change of the zoom that can be read. -/
def Action.Rezooms {α : Type} : Action α → Prop
  | zoomBy delta => delta.isOk = true
  | zoomIn => True
  | zoomOut => True
  | _ => False

section

variable {α : Type} [Scalar α]

/-- The view after an action, whether it succeeded or failed. -/
def act (v : Viewport α) : Action α → Viewport α
  | .pan dx dy => (v.panBy dx dy).2
  | .zoomBy delta => (v.zoomBy delta).2
  | .zoomIn => v.zoomIn
  | .zoomOut => v.zoomOut
  | .reset => v.reset
  | .setRect x y width height => (v.setRect x y width height).2

theorem act_rescales (v : Viewport α) (action : Action α) : v.Rescales (v.act action) := by
  cases action with
  | pan dx dy => exact v.panBy_rescales dx dy
  | zoomBy delta => exact v.zoomBy_rescales delta
  | zoomIn | zoomOut => exact v.zoomed_rescales _
  | reset => exact v.reset_rescales
  | setRect x y width height => exact v.setRect_rescales x y width height

theorem foldl_act_bounds (v : Viewport α) (actions : List (Action α)) :
    (actions.foldl act v).bounds = v.bounds := by
  induction actions generalizing v with
  | nil => rfl
  | cons action rest ih => exact (ih (v.act action)).trans (v.act_rescales action).bounds

theorem zoom_act_of_rezooms (v : Viewport α) {action : Action α} (haction : action.Rezooms) :
    ∃ zoom, (v.act action).zoom = v.clamp zoom := by
  cases action with
  | zoomBy delta =>
      cases delta with
      | error e => cases haction
      | ok delta => exact ⟨v.zoom + delta, rfl⟩
  | zoomIn => exact ⟨v.zoom + v.bounds.step, rfl⟩
  | zoomOut => exact ⟨v.zoom + -v.bounds.step, rfl⟩
  | pan | reset | setRect => exact haction.elim

theorem zoom_act_of_not_rezooms (v : Viewport α) {action : Action α} (hkept : ¬ action.Rezooms)
    (hreset : action ≠ .reset) : (v.act action).zoom = v.zoom := by
  cases action with
  | pan dx dy =>
      obtain ⟨pan, hview⟩ := v.panBy_view dx dy
      exact (congrArg Viewport.zoom hview :)
  | setRect x y width height =>
      obtain ⟨origin, width', height', hview⟩ := v.setRect_view x y width height
      exact (congrArg Viewport.zoom hview :)
  | zoomBy delta =>
      cases delta with
      | error e => rfl
      | ok delta => exact (hkept rfl).elim
  | zoomIn | zoomOut => exact (hkept trivial).elim
  | reset => exact (hreset rfl).elim

end

/-! ## The zoom of exact views -/

variable {v v' : Viewport ℚ}

theorem le_clamp (v : Viewport ℚ) (zoom : ℚ) : v.bounds.min ≤ v.clamp zoom := by
  rcases v.clamp_cases zoom with hclamp | hclamp | ⟨hclamp, hmin, _⟩ <;> rw [hclamp]
  · exact v.bounds.min_lt_max.le
  · exact le_of_not_gt hmin

theorem clamp_le (v : Viewport ℚ) (zoom : ℚ) : v.clamp zoom ≤ v.bounds.max := by
  rcases v.clamp_cases zoom with hclamp | hclamp | ⟨hclamp, _, hmax⟩ <;> rw [hclamp]
  · exact v.bounds.min_lt_max.le
  · exact le_of_not_gt hmax

/-- The point of the world that is shown at a point of the screen. -/
theorem toWorld_rat (hzoom : v.zoom ≠ 0) (p : Point ℚ) :
    v.toWorld (.ok p.x) (.ok p.y) = .ok ⟨(p.x - v.origin.x - v.pan.x) / v.zoom,
      (p.y - v.origin.y - v.pan.y) / v.zoom⟩ := by
  simp only [toWorld, Reading.get, Scalar.divide_rat hzoom]
  rfl

/-- A point of the screen shows what it showed when it is moved as far as the view is panned. -/
theorem toWorld_pan (v : Viewport ℚ) {pan p q : Point ℚ} (hx : pan.x - v.pan.x = q.x - p.x)
    (hy : pan.y - v.pan.y = q.y - p.y) :
    toWorld { v with pan } (.ok q.x) (.ok q.y) = v.toWorld (.ok p.x) (.ok p.y) := by
  have hx' : q.x - v.origin.x - pan.x = p.x - v.origin.x - v.pan.x := by linarith
  have hy' : q.y - v.origin.y - pan.y = p.y - v.origin.y - v.pan.y := by linarith
  simp only [toWorld, Reading.get, bind, Except.bind, hx', hy']

/-- In one view a way on the screen is shown as the way in the world that it makes over the zoom. -/
theorem toWorld_sub (hzoom : v.zoom ≠ 0) {p q world world' : Point ℚ}
    (hp : v.toWorld (.ok p.x) (.ok p.y) = .ok world)
    (hq : v.toWorld (.ok q.x) (.ok q.y) = .ok world') :
    world'.x - world.x = (q.x - p.x) / v.zoom ∧ world'.y - world.y = (q.y - p.y) / v.zoom := by
  rw [toWorld_rat hzoom, Except.ok.injEq] at hp hq
  subst hp hq
  constructor <;> ring

/-- Nothing that rescales a view brings its zoom to zero or below. -/
theorem Rescales.zoom_pos (h : v.Rescales v') (hv : 0 < v.zoom) : 0 < v'.zoom := by
  rcases h.zoom with hzoom | hzoom | ⟨zoom, hzoom⟩ <;> rw [hzoom]
  · exact hv
  · rw [Scalar.ofInt_rat]
    exact one_pos
  · exact v.bounds.min_pos_rat.trans_le (v.le_clamp zoom)

/-- The zoom is within the bounds. -/
def WithinBounds (v : Viewport ℚ) : Prop := v.bounds.min ≤ v.zoom ∧ v.zoom ≤ v.bounds.max

theorem withinBounds_act_of_rezooms (v : Viewport ℚ) {action : Action ℚ}
    (haction : action.Rezooms) : (v.act action).WithinBounds := by
  obtain ⟨zoom, hzoom⟩ := v.zoom_act_of_rezooms haction
  rw [WithinBounds, (v.act_rescales action).bounds, hzoom]
  exact ⟨v.le_clamp zoom, v.clamp_le zoom⟩

/-- Nothing but a reset takes the zoom out of the bounds. -/
theorem WithinBounds.act (hv : v.WithinBounds) {action : Action ℚ} (hreset : action ≠ .reset) :
    (v.act action).WithinBounds := by
  by_cases haction : action.Rezooms
  · exact v.withinBounds_act_of_rezooms haction
  · rw [WithinBounds, (v.act_rescales action).bounds, v.zoom_act_of_not_rezooms haction hreset]
    exact hv

theorem WithinBounds.foldl_act (hv : v.WithinBounds) {actions : List (Action ℚ)}
    (hreset : .reset ∉ actions) : (actions.foldl Viewport.act v).WithinBounds := by
  induction actions generalizing v with
  | nil => exact hv
  | cons action rest ih =>
      rw [List.mem_cons, not_or] at hreset
      exact ih (hv.act (Ne.symm hreset.1)) hreset.2

theorem zoom_start (bounds : ZoomBounds ℚ) : (start bounds).zoom = 1 := Scalar.ofInt_rat 1

/-- A zoom of one is left for one within the bounds, and only a reset leads back. -/
theorem withinBounds_or_one_foldl_act (hv : v.WithinBounds ∨ v.zoom = 1)
    (actions : List (Action ℚ)) :
    (actions.foldl act v).WithinBounds ∨ (actions.foldl act v).zoom = 1 := by
  induction actions generalizing v with
  | nil => exact hv
  | cons action rest ih =>
      apply ih
      by_cases hreset : action = .reset
      · subst hreset
        exact .inr (Scalar.ofInt_rat 1)
      · by_cases haction : action.Rezooms
        · exact .inl (v.withinBounds_act_of_rezooms haction)
        · exact hv.imp (fun hwithin => hwithin.act hreset) fun hone =>
            (v.zoom_act_of_not_rezooms haction hreset).trans hone

/-- In a view over exact coordinates, with any bounds and step that are accepted and after any
actions, whether they succeeded or failed: from a change of the zoom that can be read until the next
reset the zoom is within the bounds, and wherever it is not it is one. So it is always within the
bounds just if one is. -/
theorem zoom_bounded {min max step : ℚ} {bounds : ZoomBounds ℚ}
    (hbounds : ZoomBounds.ofReadings (.ok min) (.ok max) (.ok step) = .ok bounds) :
    let zoom (actions : List (Action ℚ)) := (actions.foldl act (start bounds)).zoom
    (∀ before action after, action.Rezooms → .reset ∉ after →
      min ≤ zoom (before ++ action :: after) ∧ zoom (before ++ action :: after) ≤ max) ∧
    (∀ actions, (min ≤ zoom actions ∧ zoom actions ≤ max) ∨ zoom actions = 1) ∧
    ((∀ actions, min ≤ zoom actions ∧ zoom actions ≤ max) ↔ min ≤ 1 ∧ 1 ≤ max) := by
  intro zoom
  obtain ⟨rfl, rfl⟩ := ZoomBounds.ofReadings_eq_ok hbounds
  have hwithin : ∀ actions, (actions.foldl act (start bounds)).WithinBounds ↔
      bounds.min ≤ zoom actions ∧ zoom actions ≤ bounds.max := by
    intro actions
    rw [WithinBounds, foldl_act_bounds]
    rfl
  have halways : ∀ actions,
      (bounds.min ≤ zoom actions ∧ zoom actions ≤ bounds.max) ∨ zoom actions = 1 := by
    intro actions
    rw [← hwithin]
    exact withinBounds_or_one_foldl_act (.inr (zoom_start bounds)) actions
  refine ⟨fun before action after haction hreset => ?_, halways, fun hall => ?_,
    fun hone actions => ?_⟩
  · rw [← hwithin, List.foldl_append, List.foldl_cons]
    exact (withinBounds_act_of_rezooms _ haction).foldl_act hreset
  · rw [← zoom_start bounds]
    exact hall []
  · rcases halways actions with hkept | hzoom
    · exact hkept
    · rw [hzoom]
      exact hone

/-- The usual bounds: the zoom goes up to the upper one, and a reset and a size that is refused
leave it within them. -/
theorem zoom_bounded_usual :
    let bounds : ZoomBounds ℚ := ⟨1 / 10, 3, 1 / 10, by decide +kernel, by decide +kernel⟩
    let zoom (actions : List (Action ℚ)) := (actions.foldl act (start bounds)).zoom
    ZoomBounds.ofReadings (.ok (1 / 10)) (.ok 3) (.ok (1 / 10)) = .ok bounds ∧
    zoom [.zoomIn, .zoomBy (.ok 5)] = 3 ∧
    zoom [.zoomBy (.ok 5), .reset, .setRect (.ok 0) (.ok 0) (some (.ok 0)) none] = 1 ∧
    ∀ actions, 1 / 10 ≤ zoom actions ∧ zoom actions ≤ 3 := by
  intro bounds zoom
  have hbounds : ZoomBounds.ofReadings (.ok (1 / 10)) (.ok 3) (.ok (1 / 10)) = .ok bounds :=
    ZoomBounds.ofReadings_ok _ bounds.min_pos bounds.min_below_max
  obtain ⟨_, _, halways⟩ := zoom_bounded hbounds
  exact ⟨hbounds, by decide +kernel, by decide +kernel,
    halways.mpr ⟨by norm_num, by norm_num⟩⟩

/-- Bounds from two to three are accepted, but a view starts below them, and a reset leads back
there from within them. -/
theorem zoom_bounded_above_one :
    ∃ bounds : ZoomBounds ℚ,
      ZoomBounds.ofReadings (.ok 2) (.ok 3) (.ok (1 / 2)) = .ok bounds ∧
      ¬ bounds.min ≤ (start bounds).zoom ∧
      ((start bounds).act .zoomIn).WithinBounds ∧
      ¬ (((start bounds).act .zoomIn).act .reset).WithinBounds := by
  refine ⟨⟨2, 3, 1 / 2, by decide +kernel, by decide +kernel⟩, ?_, ?_, ?_, ?_⟩
  · exact ZoomBounds.ofReadings_ok _ _ _
  · decide +kernel
  · exact withinBounds_act_of_rezooms _ trivial
  · rintro ⟨hmin, _⟩
    revert hmin
    decide +kernel

/-! ## Mappings that undo each other -/

theorem toScreen_rat (v : Viewport ℚ) (w : Point ℚ) :
    v.toScreen (.ok w.x) (.ok w.y) = .ok ⟨w.x * v.zoom + v.pan.x + v.origin.x,
      w.y * v.zoom + v.pan.y + v.origin.y⟩ := rfl

theorem center_rat {v : Viewport ℚ} (hzoom : v.zoom ≠ 0) :
    v.center = .ok ⟨(-v.pan.x + v.width / 2) / v.zoom, (-v.pan.y + v.height / 2) / v.zoom⟩ := by
  have htwo : (ofInt 2 : ℚ) = 2 := Scalar.ofInt_rat 2
  simp only [center, Scalar.divide_rat hzoom, htwo]
  rfl

/-- What is shown at a point of the screen is mapped back to that point. -/
theorem toScreen_of_toWorld {v : Viewport ℚ} (hzoom : v.zoom ≠ 0) {p w : Point ℚ}
    (hworld : v.toWorld (.ok p.x) (.ok p.y) = .ok w) :
    v.toScreen (.ok w.x) (.ok w.y) = .ok p := by
  rw [toWorld_rat hzoom, Except.ok.injEq] at hworld
  subst hworld
  rw [toScreen_rat, div_mul_cancel₀ _ hzoom, div_mul_cancel₀ _ hzoom]
  simp

/-- Where a point of the world is on the screen, there it is shown. -/
theorem toWorld_of_toScreen {v : Viewport ℚ} (hzoom : v.zoom ≠ 0) {w p : Point ℚ}
    (hscreen : v.toScreen (.ok w.x) (.ok w.y) = .ok p) :
    v.toWorld (.ok p.x) (.ok p.y) = .ok w := by
  rw [toScreen_rat, Except.ok.injEq] at hscreen
  subst hscreen
  rw [toWorld_rat hzoom]
  simp [hzoom]

/-- The middle of the view is what is shown at the middle of the canvas. -/
theorem center_eq_toWorld {v : Viewport ℚ} (hzoom : v.zoom ≠ 0) :
    v.center = v.toWorld (.ok (v.origin.x + v.width / 2)) (.ok (v.origin.y + v.height / 2)) := by
  rw [center_rat hzoom, toWorld_rat hzoom ⟨v.origin.x + v.width / 2, v.origin.y + v.height / 2⟩]
  simp only [Except.ok.injEq, Point.mk.injEq]
  constructor <;> ring

/-- Actions do not bring the zoom of a view to zero or below. -/
theorem zoom_pos_foldl_act {v : Viewport ℚ} (hv : 0 < v.zoom) (actions : List (Action ℚ)) :
    0 < (actions.foldl act v).zoom := by
  induction actions generalizing v with
  | nil => simpa using hv
  | cons action rest ih => exact ih ((v.act_rescales action).zoom_pos hv)

/-- In a view over exact coordinates, with any bounds and step that are accepted and after any
actions, whether they succeeded or failed, the zoom is above zero, so that the mappings never
divide by zero. Each point of the screen is mapped to the world and from there back to itself, each
point of the world to the screen and back, and the middle of the view is what is shown at the
middle of the canvas. -/
theorem mappings_inverse (bounds : ZoomBounds ℚ) (actions : List (Action ℚ)) :
    let v := actions.foldl act (start bounds)
    0 < v.zoom ∧
    (∀ p : Point ℚ, ∃ w, v.toWorld (.ok p.x) (.ok p.y) = .ok w ∧
      v.toScreen (.ok w.x) (.ok w.y) = .ok p) ∧
    (∀ w : Point ℚ, ∃ p, v.toScreen (.ok w.x) (.ok w.y) = .ok p ∧
      v.toWorld (.ok p.x) (.ok p.y) = .ok w) ∧
    ∃ c, v.center = .ok c ∧
      v.toWorld (.ok (v.origin.x + v.width / 2)) (.ok (v.origin.y + v.height / 2)) = .ok c := by
  intro v
  have hpos : 0 < v.zoom := by
    apply zoom_pos_foldl_act
    rw [zoom_start]
    exact one_pos
  have hzoom : v.zoom ≠ 0 := hpos.ne'
  refine ⟨hpos, fun p => ?_, fun w => ?_, ?_⟩
  · have hworld := toWorld_rat hzoom p
    exact ⟨_, hworld, toScreen_of_toWorld hzoom hworld⟩
  · have hscreen := v.toScreen_rat w
    exact ⟨_, hscreen, toWorld_of_toScreen hzoom hscreen⟩
  · have hcenter := center_rat hzoom
    exact ⟨_, hcenter, (center_eq_toWorld hzoom).symm.trans hcenter⟩

end Viewport

end RuleCanvas
