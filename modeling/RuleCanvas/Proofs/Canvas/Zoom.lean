import RuleCanvas.Proofs.Session.Action

/-! # The zoom

Every mapping from the screen to the world divides by the zoom. Whatever is done to a view,
its bounds stay, and its zoom stays, returns to one, or is brought within the bounds. With
bounds above zero the zoom is therefore never zero, whatever the arguments were, not-a-number
and the infinities included.
-/

namespace RuleCanvas

open Scalar (ofInt larger smaller)

/-! ## Zero among binary64 numbers -/

namespace Double

open Float.Model (UnpackedFloat)

/-- A number taken apart into the sign, the mantissa and the exponent by which it is compared. -/
def unpacked (x : Double) : UnpackedFloat := x.toFloat.toModel.unpack

theorem lt_iff_compare (x y : Double) : x < y ↔ x.unpacked.compare y.unpacked = some .lt := by
  change x.toFloat.lt y.toFloat = true ↔ _
  rw [Float.lt, decide_eq_true_iff]
  change (x.unpacked.compare y.unpacked == some .lt) = true ↔ _
  rw [beq_iff_eq]

theorem sameValue_iff_compare (x y : Double) :
    x.sameValue y = true ↔ x.unpacked.compare y.unpacked = some .eq := by
  change (x.unpacked.compare y.unpacked == some .eq) = true ↔ _
  rw [beq_iff_eq]

/-- Nothing but the two zeros has the value zero. -/
theorem unpacked_of_isZero {x : Double} (hzero : Scalar.isZero x = true) :
    ∃ sign, x.unpacked = .zero sign := by
  have hcompare : x.unpacked.compare (.zero .positive) = some .eq :=
    (sameValue_iff_compare x (zero false)).mp hzero
  cases hx : x.unpacked with
  | zero sign => exact ⟨sign, rfl⟩
  | notANumber =>
      rw [hx] at hcompare
      cases hcompare
  | infinity sign =>
      rw [hx] at hcompare
      cases sign <;> cases hcompare
  | finite sign mantissa exponent hpos =>
      rw [hx] at hcompare
      cases sign <;> cases hcompare

/-- Both zeros are below the same numbers. -/
theorem lt_of_isZero {x y : Double} (hzero : Scalar.isZero x = true) (hy : ofInt 0 < y) :
    x < y := by
  obtain ⟨sign, hx⟩ := unpacked_of_isZero hzero
  rw [lt_iff_compare] at hy ⊢
  have hcompare : UnpackedFloat.compare (.zero .positive) y.unpacked = some .lt := hy
  rw [hx, ← hcompare]
  cases y.unpacked with
  | infinity sign => cases sign <;> rfl
  | finite sign mantissa exponent hpos => cases sign <;> rfl
  | notANumber | zero => rfl

/-- What is above zero is not zero. -/
theorem isZero_of_pos {x : Double} (hx : ofInt 0 < x) : Scalar.isZero x = false := by
  rw [← Bool.not_eq_true]
  intro hzero
  obtain ⟨sign, hunpacked⟩ := unpacked_of_isZero hzero
  have hself : x.unpacked.compare x.unpacked = some .lt :=
    (lt_iff_compare x x).mp (lt_of_isZero hzero hx)
  rw [hunpacked] at hself
  cases hself

theorem isZero_one : Scalar.isZero (ofInt 1 : Double) = false := by decide +kernel

end Double

variable {α : Type} [Scalar α]

/-! ## Bounds that are accepted -/

namespace ZoomBounds

theorem ofReadings_ok {min max : α} (step : α) (hmin : ¬ min ≤ ofInt 0) (hmax : ¬ max ≤ min) :
    ofReadings (.ok min) (.ok max) (.ok step) = .ok ⟨min, max, step, hmin, hmax⟩ := by
  simp [ofReadings, Reading.atMost, Reading.get, hmin, hmax, bind, Except.bind, pure, Except.pure]

theorem ofReadings_eq_ok {min max step : α} {bounds : ZoomBounds α}
    (hbounds : ofReadings (.ok min) (.ok max) (.ok step) = .ok bounds) :
    bounds.min = min ∧ bounds.max = max := by
  by_cases hmin : min ≤ ofInt 0
  · simp [ofReadings, Reading.atMost, hmin, bind, Except.bind, throw, throwThe,
      MonadExceptOf.throw] at hbounds
  by_cases hmax : max ≤ min
  · simp [ofReadings, Reading.atMost, hmin, hmax, bind, Except.bind, throw, throwThe,
      MonadExceptOf.throw] at hbounds
  rw [ofReadings_ok step hmin hmax] at hbounds
  rw [← Except.ok.inj hbounds]
  exact ⟨rfl, rfl⟩

end ZoomBounds

/-! ## What operations do to the zoom -/

namespace Viewport

/-- The bounds stay; the zoom stays, returns to one, or is brought within the bounds. -/
structure Rescales (v v' : Viewport α) : Prop where
  bounds : v'.bounds = v.bounds
  zoom : v'.zoom = v.zoom ∨ v'.zoom = ofInt 1 ∨ ∃ zoom, v'.zoom = v.clamp zoom

theorem Rescales.refl (v : Viewport α) : v.Rescales v := ⟨rfl, .inl rfl⟩

/-- A zoom brought within the bounds is one of them, or was within them already. -/
theorem clamp_cases (v : Viewport α) (zoom : α) :
    v.clamp zoom = v.bounds.min ∨ v.clamp zoom = v.bounds.max ∨
      (v.clamp zoom = zoom ∧ ¬ zoom < v.bounds.min ∧ ¬ v.bounds.max < zoom) := by
  unfold clamp larger smaller
  by_cases hmin : zoom < v.bounds.min
  · rw [if_pos hmin]
    by_cases hmax : v.bounds.max < v.bounds.min
    · exact .inr (.inl (if_pos hmax))
    · exact .inl (if_neg hmax)
  · rw [if_neg hmin]
    by_cases hmax : v.bounds.max < zoom
    · exact .inr (.inl (if_pos hmax))
    · exact .inr (.inr ⟨if_neg hmax, hmin, hmax⟩)

theorem zoomed_rescales (v : Viewport α) (delta : α) : v.Rescales (v.zoomed delta) :=
  ⟨rfl, .inr (.inr ⟨v.zoom + delta, rfl⟩)⟩

theorem zoomBy_rescales (v : Viewport α) (delta : Reading α) : v.Rescales (v.zoomBy delta).2 := by
  unfold zoomBy
  split
  · exact .refl v
  · exact v.zoomed_rescales _

theorem reset_rescales (v : Viewport α) : v.Rescales v.reset := ⟨rfl, .inr (.inl rfl)⟩

/-- Panning writes the pan alone. -/
theorem panBy_view (v : Viewport α) (dx dy : Reading α) :
    ∃ pan, (v.panBy dx dy).2 = { v with pan } := by
  unfold panBy
  split
  · exact ⟨v.pan, rfl⟩
  · dsimp only
    split <;> exact ⟨_, rfl⟩

/-- Placing the canvas writes its corner and its size alone. -/
theorem setRect_view (v : Viewport α) (x y : Reading α) (width height : Option (Reading α)) :
    ∃ origin width' height', (v.setRect x y width height).2 =
      { v with origin, width := width', height := height' } := by
  unfold setRect
  split
  · exact ⟨v.origin, v.width, v.height, rfl⟩
  · dsimp only
    split
    · exact ⟨_, v.width, v.height, rfl⟩
    · split
      · exact ⟨_, v.width, v.height, rfl⟩
      · split
        · exact ⟨_, _, v.height, rfl⟩
        · exact ⟨_, _, _, rfl⟩

theorem panBy_rescales (v : Viewport α) (dx dy : Reading α) : v.Rescales (v.panBy dx dy).2 := by
  obtain ⟨pan, hview⟩ := v.panBy_view dx dy
  rw [hview]
  exact ⟨rfl, .inl rfl⟩

theorem setRect_rescales (v : Viewport α) (x y : Reading α) (width height : Option (Reading α)) :
    v.Rescales (v.setRect x y width height).2 := by
  obtain ⟨origin, width', height', hview⟩ := v.setRect_view x y width height
  rw [hview]
  exact ⟨rfl, .inl rfl⟩

end Viewport

namespace Canvas

open Viewport (Rescales)

theorem press_rescales (c : Canvas α) (x y : Reading α) :
    c.viewport.Rescales (c.press x y).2.viewport := by
  unfold press
  dsimp only
  split <;> exact .refl _

theorem drag_viewport (c : Canvas α) (node : String) (grab world : Point α) :
    (c.drag node grab world).2.viewport = c.viewport := by
  unfold drag
  split <;> rfl

theorem move_rescales (c : Canvas α) (x y : Reading α) :
    c.viewport.Rescales (c.move x y).2.viewport := by
  unfold move
  split
  · exact .refl _
  · split <;> exact .refl _
  · split
    · exact .refl _
    · rw [drag_viewport]
      exact .refl _
  · split
    · exact .refl _
    · exact c.viewport.panBy_rescales _ _

theorem finish_viewport (c : Canvas α) (source : PortRef) (world : Point α) :
    (c.finish source world).2.viewport = c.viewport := by
  unfold finish
  split
  · split
    · rfl
    · split <;> rfl
    · rfl
  · rfl

theorem release_rescales (c : Canvas α) (x y : Reading α) :
    c.viewport.Rescales (c.release x y).2.viewport := by
  unfold release
  dsimp only
  split
  · split
    · exact .refl _
    · rw [finish_viewport]
      exact .refl _
  · exact .refl _

theorem wheel_rescales (c : Canvas α) (dx dy : Reading α) (modifier : Bool) :
    c.viewport.Rescales (c.wheel dx dy modifier).2.viewport := by
  unfold wheel
  split
  · split
    · exact .refl _
    · exact c.viewport.zoomBy_rescales _
  · split
    · exact c.viewport.panBy_rescales _ _
    · exact .refl _
    · exact .refl _

end Canvas

/-! ## Views that can be mapped back -/

namespace Viewport

/-- A view whose bounds are above zero and whose zoom is not zero. -/
structure Invertible (v : Viewport Double) : Prop where
  min_pos : ofInt 0 < v.bounds.min
  max_pos : ofInt 0 < v.bounds.max
  zoom_ne_zero : Scalar.isZero v.zoom = false

theorem Invertible.start {bounds : ZoomBounds Double} (hmin : ofInt 0 < bounds.min)
    (hmax : ofInt 0 < bounds.max) : (Viewport.start bounds).Invertible :=
  ⟨hmin, hmax, Double.isZero_one⟩

theorem Invertible.clamp {v : Viewport Double} (hv : v.Invertible) (zoom : Double) :
    Scalar.isZero (v.clamp zoom) = false := by
  rcases v.clamp_cases zoom with hclamp | hclamp | ⟨hclamp, hmin, _⟩
  · rw [hclamp]
    exact Double.isZero_of_pos hv.min_pos
  · rw [hclamp]
    exact Double.isZero_of_pos hv.max_pos
  -- Zero is below the least zoom, so it is never within the bounds.
  · rw [hclamp, ← Bool.not_eq_true]
    exact fun hzero => hmin (Double.lt_of_isZero hzero hv.min_pos)

theorem Rescales.invertible {v v' : Viewport Double} (h : v.Rescales v') (hv : v.Invertible) :
    v'.Invertible := by
  refine ⟨h.bounds ▸ hv.min_pos, h.bounds ▸ hv.max_pos, ?_⟩
  rcases h.zoom with hzoom | hzoom | ⟨zoom, hzoom⟩ <;> rw [hzoom]
  · exact hv.zoom_ne_zero
  · exact Double.isZero_one
  · exact hv.clamp zoom

/-- The middle of such a view can be found. -/
theorem Invertible.center {v : Viewport Double} (hv : v.Invertible) :
    ∃ center, v.center = .ok center := by
  refine ⟨⟨(-v.pan.x + v.width / ofInt 2) / v.zoom, (-v.pan.y + v.height / ofInt 2) / v.zoom⟩, ?_⟩
  simp only [Viewport.center, Scalar.divide, hv.zoom_ne_zero, Bool.false_eq_true, if_false]
  rfl

end Viewport

namespace Session

open Viewport (Rescales)

theorem perform_viewport {β : Type} (s : Session) {operation : Canvas Double → β × Canvas Double}
    (hrescales : ∀ c : Canvas Double, c.viewport.Rescales (operation c).2.viewport) :
    s.canvas.viewport.Rescales (s.perform operation).2.canvas.viewport :=
  hrescales s.editCanvas

theorem guarded_viewport {β : Type} (s : Session) (action : String) (operation : Edit Double β) :
    (s.guarded action operation).2.canvas.viewport = s.canvas.viewport := by
  obtain hsession | ⟨n, hsession⟩ := s.guarded_session action operation <;>
  · rw [hsession]
    rfl

theorem addNode_viewport (s : Session) (kind payload : Json) :
    (s.addNode kind payload).2.canvas.viewport = s.canvas.viewport := by
  unfold addNode
  split
  · rfl
  · exact s.draws.2.guarded_viewport _ _

theorem release_rescales (s : Session) (x y : Reading Double) :
    s.canvas.viewport.Rescales (s.release x y).2.canvas.viewport := by
  obtain ⟨added, hsession⟩ := s.release_session x y
  rw [hsession]
  exact s.perform_viewport fun c => c.release_rescales x y

theorem loadRules_viewport (s : Session) (document : Json) :
    (s.loadRules document).2.canvas.viewport = s.canvas.viewport := by
  obtain ⟨added, hsession⟩ | ⟨n, hsession⟩ | hsession := s.loadRules_session document <;>
  · rw [hsession]
    rfl

theorem loadGraph_viewport (s : Session) (document : Json) :
    (s.loadGraph document).2.canvas.viewport = s.canvas.viewport := by
  obtain hsession | ⟨n, hsession⟩ | hsession := s.loadGraph_session document <;>
  · rw [hsession]
    rfl

theorem act_rescales (s : Session) (action : Action) :
    s.canvas.viewport.Rescales (s.act action).canvas.viewport := by
  cases action with
  | addNode kind payload => exact s.addNode_viewport kind payload ▸ .refl _
  | deleteNode id => exact s.guarded_viewport _ _ ▸ .refl _
  | updatePayload id given => exact s.guarded_viewport _ _ ▸ .refl _
  | disconnect id => exact s.guarded_viewport _ _ ▸ .refl _
  | press x y => exact s.perform_viewport fun c => c.press_rescales x y
  | move x y => exact s.perform_viewport fun c => c.move_rescales x y
  | release x y => exact s.release_rescales x y
  | wheel dx dy modifier => exact s.perform_viewport fun c => c.wheel_rescales dx dy modifier
  | zoomIn => exact s.canvas.viewport.zoomed_rescales _
  | zoomOut => exact s.canvas.viewport.zoomed_rescales _
  | resetView => exact s.canvas.viewport.reset_rescales
  | setRect x y width height => exact s.canvas.viewport.setRect_rescales x y width height
  | resetGesture | drain => exact .refl _
  | loadRules document => exact s.loadRules_viewport document ▸ .refl _
  | loadGraph document => exact s.loadGraph_viewport document ▸ .refl _
  | store operation => exact .refl _

theorem start_invertible (catalog : Catalog) {bounds : ZoomBounds Double}
    (hmin : ofInt 0 < bounds.min) (hmax : ofInt 0 < bounds.max) (sensitivity : Double)
    (importer : Rule.Importer Double) (jitter : Jitter) (journal : Journal Double) :
    (start catalog bounds sensitivity importer jitter journal).canvas.viewport.Invertible :=
  Viewport.Invertible.start hmin hmax

/-- However a session is used, its view can be mapped back. -/
theorem foldl_act_invertible {s : Session} (hs : s.canvas.viewport.Invertible)
    (actions : List Action) : (actions.foldl Session.act s).canvas.viewport.Invertible := by
  induction actions generalizing s with
  | nil => exact hs
  | cons action rest ih => exact ih ((s.act_rescales action).invertible hs)

end Session

end RuleCanvas
