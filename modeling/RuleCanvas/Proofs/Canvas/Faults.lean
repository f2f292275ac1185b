import RuleCanvas.Proofs.Canvas.View
import RuleCanvas.Proofs.Session.Contained

/-! # Views after a fault

A call of a view fails on an argument that cannot be read, and on a size that is not positive.
Arguments are written one after the other, each before the next is looked at, so that a call that
fails can leave a view changed in part: the canvas has been moved when its size is refused, and a
view is panned to one side when the distance to the other side is bad. Nothing else is left
behind by a call that fails.
-/

namespace RuleCanvas

open Scalar (ofInt)

namespace Viewport

variable {α : Type} [Scalar α]

/-! ## Calls -/

/-- A call of a view: an action, or one of the mappings. -/
inductive Call (α : Type) where
  | action (action : Action α)
  | toWorld (x y : Reading α)
  | toScreen (x y : Reading α)
  | center

/-- How a call ends, and the view after it. The mappings only read the view. -/
def serve (v : Viewport α) : Call α → Except Fault Unit × Viewport α
  | .action (.pan dx dy) => v.panBy dx dy
  | .action (.zoomBy delta) => ((v.zoomBy delta).1.map fun _ => (), (v.zoomBy delta).2)
  | .action .zoomIn => (.ok (), v.zoomIn)
  | .action .zoomOut => (.ok (), v.zoomOut)
  | .action .reset => (.ok (), v.reset)
  | .action (.setRect x y width height) => v.setRect x y width height
  | .toWorld x y => ((v.toWorld x y).map fun _ => (), v)
  | .toScreen x y => ((v.toScreen x y).map fun _ => (), v)
  | .center => (v.center.map fun _ => (), v)

/-- What a call that fails leaves of a view. A pan whose first distance is good has moved the view
by it. A placement has moved the corner of the canvas as far as it is good, and if it is, set the
width where a good one is given. -/
def Call.leaves (v : Viewport α) : Call α → Viewport α
  | .action (.pan (.ok dx) _) => { v with pan := ⟨v.pan.x + dx, v.pan.y⟩ }
  | .action (.setRect (.ok x) (.error _) _ _) => { v with origin := ⟨x, v.origin.y⟩ }
  | .action (.setRect (.ok x) (.ok y) width _) =>
    { v with
      origin := ⟨x, y⟩
      width := (width.mapM (readSize "width")).toOption.join.getD v.width }
  | _ => v

/-! ## Calls that fail -/

variable {v : Viewport α} {fault : Fault}

theorem panBy_leaves {dx dy : Reading α} (hfault : (v.panBy dx dy).1 = .error fault) :
    (v.panBy dx dy).2 = Call.leaves v (.action (.pan dx dy)) := by
  cases dx with
  | error e => rfl
  | ok dx =>
      cases dy with
      | error e => rfl
      | ok dy => cases hfault

theorem zoomBy_leaves {delta : Reading α} (hfault : (v.zoomBy delta).1 = .error fault) :
    (v.zoomBy delta).2 = v := by
  cases delta with
  | error e => rfl
  | ok delta => cases hfault

theorem setRect_leaves {x y : Reading α} {width height : Option (Reading α)}
    (hfault : (v.setRect x y width height).1 = .error fault) :
    (v.setRect x y width height).2 = Call.leaves v (.action (.setRect x y width height)) := by
  cases x with
  | error e => rfl
  | ok x =>
      cases y with
      | error e => rfl
      | ok y =>
          simp only [setRect, Reading.get] at hfault ⊢
          rw [Call.leaves]
          cases hwidth : width.mapM (readSize "width") with
          | error e => simp [Except.toOption]
          | ok size =>
              cases hheight : height.mapM (readSize "height") with
              | error e => simp [Except.toOption]
              | ok size' => simp [hwidth, hheight] at hfault

theorem serve_leaves {call : Call α} (hfault : (v.serve call).1 = .error fault) :
    (v.serve call).2 = call.leaves v := by
  cases call with
  | action action =>
      cases action with
      | pan dx dy => exact panBy_leaves hfault
      | zoomBy delta => exact zoomBy_leaves (Desk.eq_error_of_map hfault)
      | zoomIn | zoomOut | reset => cases hfault
      | setRect x y width height => exact setRect_leaves hfault
  | toWorld | toScreen | center => rfl

/-- No more than the corner of the canvas, its width and the pan to the side are
ever left behind. -/
theorem leaves_frame (v : Viewport α) (call : Call α) :
    ∃ x origin width, call.leaves v = { v with pan := ⟨x, v.pan.y⟩, origin, width } := by
  unfold Call.leaves
  split <;> exact ⟨_, _, _, rfl⟩

theorem readSize_refused (name : String) {size : α} (hsize : size ≤ ofInt 0) :
    readSize name (.ok size) = .error (.badValue ("canvas " ++ name ++ " must be positive")) := by
  simp [readSize, Reading.atMost, hsize, bind, Except.bind, throw, throwThe, MonadExceptOf.throw]

theorem readSize_of_positive (name : String) {size : α} (hsize : ¬ size ≤ ofInt 0) :
    readSize name (.ok size) = .ok size := by
  simp [readSize, Reading.atMost, Reading.get, hsize, bind, Except.bind]

/-- A width that is not positive is refused when the corner of the canvas is written already. -/
theorem setRect_width_refused (v : Viewport α) (x y : α) {width : α} (hwidth : width ≤ ofInt 0)
    (height : Option (Reading α)) :
    v.setRect (.ok x) (.ok y) (some (.ok width)) height =
      (.error (.badValue "canvas width must be positive"), { v with origin := ⟨x, y⟩ }) := by
  simp [setRect, Reading.get, readSize_refused _ hwidth]

/-- A height that is not positive is refused when the corner of the canvas and
its width are written. -/
theorem setRect_height_refused (v : Viewport α) (x y : α) {width height : α}
    (hwidth : ¬ width ≤ ofInt 0) (hheight : height ≤ ofInt 0) :
    v.setRect (.ok x) (.ok y) (some (.ok width)) (some (.ok height)) =
      (.error (.badValue "canvas height must be positive"),
        { v with origin := ⟨x, y⟩, width }) := by
  simp [setRect, Reading.get, readSize_of_positive _ hwidth, readSize_refused _ hheight]

/-- Whatever a view is and whatever it is given: a call that fails leaves the bounds, the zoom,
the height and the vertical pan as they were. If it is neither a pan nor a placement of the
canvas, it leaves all of the view. A pan or a placement leaves what it had written before it
came to the bad argument. -/
theorem failed_call_leaves {call : Call α} (hfault : (v.serve call).1 = .error fault) :
    let left := (v.serve call).2
    left = call.leaves v ∧ left.bounds = v.bounds ∧ left.zoom = v.zoom ∧ left.height = v.height ∧
      left.pan.y = v.pan.y ∧
      ((∀ dx dy, call ≠ .action (.pan dx dy)) →
        (∀ x y width height, call ≠ .action (.setRect x y width height)) → left = v) := by
  intro left
  have hleft : left = call.leaves v := serve_leaves hfault
  obtain ⟨x, origin, width, hframe⟩ := v.leaves_frame call
  refine ⟨hleft, ?_, ?_, ?_, ?_, fun hpan hrect => ?_⟩
  · rw [hleft, hframe]
  · rw [hleft, hframe]
  · rw [hleft, hframe]
  · rw [hleft, hframe]
  · rw [hleft]
    cases call with
    | action action =>
        cases action with
        | pan dx dy => exact (hpan dx dy rfl).elim
        | setRect x y width height => exact (hrect x y width height rfl).elim
        | zoomBy | zoomIn | zoomOut | reset => rfl
    | toWorld | toScreen | center => rfl

/-- A placement with a good width and a height of zero is refused: the corner and the width are set,
and the zoom is still there. -/
theorem failed_call_leaves_refused_height :
    let v : Viewport Double := (start Session.usualBounds).zoomIn
    let call : Call Double :=
      .action (.setRect (.ok (ofInt 3)) (.ok (ofInt 4)) (some (.ok (ofInt 10)))
        (some (.ok (ofInt 0))))
    let left := (v.serve call).2
    (v.serve call).1 = .error (.badValue "canvas height must be positive") ∧
      left.origin = ⟨ofInt 3, ofInt 4⟩ ∧ left.width = ofInt 10 ∧ left.zoom = v.zoom ∧
      left.height = v.height := by
  intro v call left
  have hwidth : ¬ (ofInt 10 : Double) ≤ ofInt 0 := by decide +kernel
  have hheight : (ofInt 0 : Double) ≤ ofInt 0 := by decide +kernel
  have hserve : v.serve call = (.error (.badValue "canvas height must be positive"),
      { v with origin := ⟨ofInt 3, ofInt 4⟩, width := ofInt 10 }) :=
    v.setRect_height_refused _ _ hwidth hheight
  obtain ⟨_, _, hzoom, hkept, _⟩ := failed_call_leaves (congrArg Prod.fst hserve)
  refine ⟨congrArg Prod.fst hserve, ?_, ?_, hzoom, hkept⟩
  · exact congrArg (fun answer => answer.2.origin) hserve
  · exact congrArg (fun answer => answer.2.width) hserve

/-- A canvas in its first place is to be put elsewhere with a width of zero. That is refused,
and the canvas is there. -/
theorem refused_width_moves_canvas :
    let v : Viewport Double := start Session.usualBounds
    let call : Call Double :=
      .action (.setRect (.ok (ofInt 10)) (.ok (ofInt 20)) (some (.ok (ofInt 0))) none)
    (v.serve call).1 = .error (.badValue "canvas width must be positive") ∧
      v.origin = ⟨ofInt 0, ofInt 0⟩ ∧ (v.serve call).2.origin = ⟨ofInt 10, ofInt 20⟩ ∧
      (v.serve call).2 ≠ v := by
  intro v call
  have hwidth : (ofInt 0 : Double) ≤ ofInt 0 := by decide +kernel
  have hserve := v.setRect_width_refused (ofInt 10) (ofInt 20) hwidth none
  have horigin : (v.serve call).2.origin = ⟨ofInt 10, ofInt 20⟩ :=
    congrArg (fun answer => answer.2.origin) hserve
  refine ⟨congrArg Prod.fst hserve, rfl, horigin, fun hkept => ?_⟩
  rw [hkept] at horigin
  have hmoved : (⟨ofInt 0, ofInt 0⟩ : Point Double) ≠ ⟨ofInt 10, ofInt 20⟩ := by decide +kernel
  exact hmoved horigin

end Viewport

end RuleCanvas
