import Mathlib.Tactic.Ring
import RuleCanvas.Proofs.Canvas.View
import RuleCanvas.Proofs.Session.Pointer

/-! # Strokes

What comes of a pointer that is pressed and moved while the view is panned and zoomed below it. A
node that is dragged is put where the pointer is in the world, less the offset at which it was
grabbed, so that nothing of the way there is left in its place. A view that is panned keeps the sum
of its pan and of what the wheel scrolled, less the pointer: every move adds to the pan what it adds
to the pointer, and the wheel does not touch the point from which the next move is counted.
-/

namespace RuleCanvas

namespace Canvas

/-! ## Events -/

/-- Something that happens to a canvas. The desk may change in any way. -/
inductive Event (α : Type) where
  | press (x y : Reading α)
  | move (x y : Reading α)
  | release (x y : Reading α)
  | wheel (dx dy : Reading α) (modifier : Bool)
  | view (action : Viewport.Action α)
  | edit (change : Desk α → Desk α)
  | giveUp

/-- The gesture goes on: the pointer is neither pressed anew nor released, and
it is not given up. -/
def Event.Continues {α : Type} : Event α → Prop
  | press _ _ | release _ _ | giveUp => False
  | move _ _ | wheel _ _ _ | view _ | edit _ => True

/-- Whether an event pans, zooms or places the view by itself. -/
def Event.turnsView {α : Type} : Event α → Bool
  | wheel _ _ _ | view _ => true
  | press _ _ | move _ _ | release _ _ | edit _ | giveUp => false

variable {α : Type} [Scalar α]

/-- The canvas after an event, whether it succeeded or failed. -/
def after (c : Canvas α) : Event α → Canvas α
  | .press x y => (c.press x y).2
  | .move x y => (c.move x y).2
  | .release x y => (c.release x y).2
  | .wheel dx dy modifier => (c.wheel dx dy modifier).2
  | .view action => { c with viewport := c.viewport.act action }
  | .edit change => { c with desk := change c.desk }
  | .giveUp => { c with gesture := .idle }

/-- A canvas that is reached by events from one whose view is as it starts. -/
inductive Reachable : Canvas α → Prop
  | start (desk : Desk α) (bounds : ZoomBounds α) (sensitivity : α) :
      Reachable ⟨desk, .start bounds, .idle, sensitivity⟩
  | after {c : Canvas α} (hc : Reachable c) (event : Event α) : Reachable (c.after event)

theorem after_rescales (c : Canvas α) (event : Event α) :
    c.viewport.Rescales (c.after event).viewport := by
  cases event with
  | press x y => exact c.press_rescales x y
  | move x y => exact c.move_rescales x y
  | release x y => exact c.release_rescales x y
  | wheel dx dy modifier => exact c.wheel_rescales dx dy modifier
  | view action => exact c.viewport.act_rescales action
  | edit | giveUp => exact .refl c.viewport

theorem Reachable.foldl_after {c : Canvas α} (hc : c.Reachable) (events : List (Event α)) :
    (events.foldl Canvas.after c).Reachable := by
  induction events generalizing c with
  | nil => exact hc
  | cons event rest ih => exact ih (hc.after event)

theorem Reachable.zoom_pos {c : Canvas ℚ} (hc : c.Reachable) : 0 < c.viewport.zoom := by
  induction hc with
  | start desk bounds sensitivity =>
      rw [Viewport.zoom_start]
      exact one_pos
  | after _ event ih => exact (after_rescales _ event).zoom_pos ih

end Canvas

/-! ## Dragging -/

theorem Graph.hasNode_of_position? {α : Type} {g : Graph α} {id : String} {p : Point α}
    (hplaced : g.position? id = some p) : g.hasNode id = true := by
  rw [position?, Option.map_eq_some_iff] at hplaced
  obtain ⟨n, hn, _⟩ := hplaced
  exact Option.isSome_of_eq_some hn

theorem Desk.moveNode_of_hasNode {α : Type} {d : Desk α} {id : String}
    (hnode : d.graph.hasNode id = true) (p : Point α) :
    ∃ moved, d.moveNode (.str id) (.ok p) = (.ok (), moved) ∧
      moved.graph.position? id = some p := by
  obtain ⟨n, hfound, rfl, hn⟩ := findNode_of_hasNode hnode
  refine ⟨_, by rw [moveNode, hfound]; rfl, ?_⟩
  have hplaced : (d.graph.setNode { n with x := p.x, y := p.y }).position? n.id = some p := by
    simp [Graph.position?, Graph.node?_setNode, hn, Node.position]
  exact hplaced

namespace Canvas

variable {α : Type} [Scalar α] {c d : Canvas α} {id : String} {grab world : Point α}
  {x y : Reading α} {event : Event α} {events : List (Event α)}

/-- A press that grabs a node keeps the offset of the pointer to it. -/
theorem press_dragging (hgesture : (c.press x y).2.gesture = .dragging id grab) :
    ∃ world n, c.viewport.toWorld x y = .ok world ∧ c.desk.graph.node? id = some n ∧
      grab = offset world n.position := by
  unfold press at hgesture
  dsimp only at hgesture
  split at hgesture
  next world screen hworld _ =>
    dsimp only [gestureAt] at hgesture
    split at hgesture
    · cases hgesture
    · cases hgesture
    · split at hgesture
      next n hn =>
        cases hgesture
        exact ⟨world, n, hworld, hn, rfl⟩
      · cases hgesture
    · cases hgesture
  · cases hgesture
  · cases hgesture

/-- A move of the pointer puts the dragged node to its offset from the pointer. -/
theorem move_dragging (hgesture : c.gesture = .dragging id grab)
    (hnode : c.desk.graph.hasNode id = true) (hworld : c.viewport.toWorld x y = .ok world) :
    ∃ desk, c.move x y = (.ok (), { c with desk }) ∧
      desk.graph.position? id = some (offset world grab) := by
  obtain ⟨desk, hmove, hplaced⟩ := Desk.moveNode_of_hasNode hnode (offset world grab)
  refine ⟨desk, ?_, hplaced⟩
  rw [move, hgesture]
  dsimp only
  rw [hworld]
  dsimp only
  rw [drag, hmove]
  dsimp only
  rw [hgesture]

/-- While a node is dragged that is there, a move of the pointer changes the desk alone, and
leaves the node in it. -/
theorem move_dragging_desk (hgesture : c.gesture = .dragging id grab)
    (hnode : c.desk.graph.hasNode id = true) (x y : Reading α) :
    ∃ desk, (c.move x y).2 = { c with desk } ∧ desk.graph.hasNode id = true := by
  cases hworld : c.viewport.toWorld x y with
  | ok world =>
      obtain ⟨desk, hmove, hplaced⟩ := move_dragging hgesture hnode hworld
      exact ⟨desk, congrArg Prod.snd hmove, Graph.hasNode_of_position? hplaced⟩
  | error fault =>
      refine ⟨c.desk, ?_, hnode⟩
      rw [move, hgesture]
      dsimp only
      rw [hworld, ← hgesture]

/-- The wheel changes the view alone. -/
theorem wheel_eq (c : Canvas α) (dx dy : Reading α) (modifier : Bool) :
    (c.wheel dx dy modifier).2 = { c with viewport := (c.wheel dx dy modifier).2.viewport } := by
  unfold wheel
  split
  · split <;> rfl
  · split <;> rfl

/-- What an event makes of the view by itself depends on the view and on the sensitivity of
the wheel, which stays. -/
theorem after_congr (hview : c.viewport = d.viewport) (hsensitivity : c.sensitivity = d.sensitivity)
    (hturns : event.turnsView = true) :
    (c.after event).viewport = (d.after event).viewport ∧
      (c.after event).sensitivity = (d.after event).sensitivity := by
  obtain ⟨desk, viewport, gesture, sensitivity⟩ := c
  subst hview hsensitivity
  cases event with
  | wheel dx dy modifier =>
      simp only [after, wheel]
      split
      · split <;> exact ⟨rfl, rfl⟩
      · split <;> exact ⟨rfl, rfl⟩
  | view action => exact ⟨rfl, rfl⟩
  | press | move | release | edit | giveUp => cases hturns

/-- While a node is dragged that is there, an event changes the desk or the view and nothing else:
the view if it turns it by itself, and the nodes that there are if it is an edit. -/
theorem after_dragging (hgesture : c.gesture = .dragging id grab)
    (hnode : c.desk.graph.hasNode id = true) (hcontinues : event.Continues) :
    ∃ desk viewport, c.after event = { c with desk, viewport } ∧
      (event.turnsView = false → viewport = c.viewport) ∧
      ((∀ change, event ≠ .edit change) → desk.graph.hasNode id = true) := by
  cases event with
  | move x y =>
      obtain ⟨desk, hmove, hkept⟩ := move_dragging_desk hgesture hnode x y
      exact ⟨desk, c.viewport, hmove, fun _ => rfl, fun _ => hkept⟩
  | wheel dx dy modifier => exact ⟨c.desk, _, c.wheel_eq dx dy modifier, nofun, fun _ => hnode⟩
  | view action => exact ⟨c.desk, _, rfl, nofun, fun _ => hnode⟩
  | edit change =>
      exact ⟨change c.desk, c.viewport, rfl, fun _ => rfl, fun hedit => (hedit change rfl).elim⟩
  | press | release | giveUp => exact hcontinues.elim

/-- The node `id` is dragged through events, none of which ends the gesture, and
is there all the time. -/
structure DragsThrough (c : Canvas α) (id : String) (grab : Point α) (events : List (Event α)) :
    Prop where
  gesture : c.gesture = .dragging id grab
  continues : ∀ event ∈ events, event.Continues
  kept : ∀ done, done <+: events → (done.foldl after c).desk.graph.hasNode id = true

theorem DragsThrough.hasNode (h : c.DragsThrough id grab events) :
    c.desk.graph.hasNode id = true := h.kept [] List.nil_prefix

/-- The first event of a drag leaves the gesture and the sensitivity of the wheel,
and the drag goes on. -/
theorem DragsThrough.tail (h : c.DragsThrough id grab (event :: events)) :
    (c.after event).DragsThrough id grab events ∧
      (c.after event).sensitivity = c.sensitivity ∧
      (event.turnsView = false → (c.after event).viewport = c.viewport) := by
  obtain ⟨desk, viewport, hafter, hview, _⟩ :=
    after_dragging h.gesture h.hasNode (h.continues event List.mem_cons_self)
  refine ⟨⟨?_, fun e he => h.continues e (List.mem_cons_of_mem _ he), fun done hdone => ?_⟩, ?_, ?_⟩
  · rw [hafter]
    exact h.gesture
  · exact h.kept (event :: done) (List.cons_prefix_cons.mpr ⟨rfl, hdone⟩)
  · rw [hafter]
  · rw [hafter]
    exact hview

/-- A node that was grabbed stays there unless the graph is edited. -/
theorem dragsThrough_of_unedited (hgesture : c.gesture = .dragging id grab)
    (hnode : c.desk.graph.hasNode id = true) (hcontinues : ∀ event ∈ events, event.Continues)
    (hedit : ∀ change, .edit change ∉ events) : c.DragsThrough id grab events := by
  refine ⟨hgesture, hcontinues, fun done hdone => ?_⟩
  induction done generalizing c events with
  | nil => exact hnode
  | cons event done ih =>
      obtain ⟨rest, rfl⟩ := hdone
      obtain ⟨desk, viewport, hafter, _, hkept⟩ :=
        after_dragging hgesture hnode (hcontinues event List.mem_cons_self)
      simp only [List.cons_append, List.mem_cons, not_or, forall_eq_or_imp] at hcontinues hedit
      rw [List.foldl_cons, hafter]
      exact ih hgesture (hkept fun change => Ne.symm (hedit change).1) hcontinues.2
        (fun change => (hedit change).2) (List.prefix_append done rest)

/-- A drag is still on after its events. -/
theorem DragsThrough.foldl_after (h : c.DragsThrough id grab events) :
    (events.foldl after c).DragsThrough id grab [] := by
  induction events generalizing c with
  | nil => exact h
  | cons event rest ih => exact ih h.tail.1

/-- The view at the end of a drag is what the events that turn it make of it,
whatever the pointer did. -/
theorem DragsThrough.viewport_foldl_after (h : c.DragsThrough id grab events)
    (hview : c.viewport = d.viewport) (hsensitivity : c.sensitivity = d.sensitivity) :
    (events.foldl after c).viewport =
      ((events.filter Event.turnsView).foldl after d).viewport := by
  -- The second canvas skips the moves of the pointer, which leave the view of the first.
  induction events generalizing c d with
  | nil => exact hview
  | cons event rest ih =>
      obtain ⟨htail, hkept, hstill⟩ := h.tail
      cases hturns : event.turnsView with
      | false =>
          rw [List.filter_cons_of_neg (by simp [hturns])]
          exact ih htail ((hstill hturns).trans hview) (hkept.trans hsensitivity)
      | true =>
          rw [List.filter_cons_of_pos hturns]
          obtain ⟨hview', hsensitivity'⟩ := after_congr hview hsensitivity hturns
          exact ih htail hview' hsensitivity'

/-- A point at its offset from another is that point. -/
theorem offset_offset (p q : Point ℚ) : offset p (offset p q) = q := by
  simp [offset]

/-- Where the pointer is now, less the offset at which it grabbed the node: the node moved as
far as the pointer did. -/
theorem offset_grab (start grabbed shown : Point ℚ) :
    offset shown (offset grabbed start) =
      ⟨start.x + shown.x - grabbed.x, start.y + shown.y - grabbed.y⟩ := by
  simp only [offset, Point.mk.injEq]
  constructor <;> ring

/-- A node of any canvas that is reached is grabbed at one point of the screen, and the pointer
is moved to another after any events that leave the gesture and the node: moves, turns of the
wheel, other changes of the view, and edits of the graph. The node is then where it was when it
was grabbed, plus the way that the pointer made in the world, from the point that was shown
below it then to the one that is shown now. The view of now is that of the press as the wheel
and the other changes turned it, so that the moves on the way leave nothing; the pointer keeps
its offset to the node; and in an unchanged view the node moved by the way of the pointer on the
screen over the zoom. -/
theorem drag_follows_pointer {c : Canvas ℚ} (hc : c.Reachable) {p : Point ℚ} {id : String}
    {grab : Point ℚ} {events : List (Event ℚ)}
    (hdrag : (c.press (.ok p.x) (.ok p.y)).2.DragsThrough id grab events) (q : Point ℚ) :
    let pressed := (c.press (.ok p.x) (.ok p.y)).2
    let held := events.foldl after pressed
    let view := ((events.filter Event.turnsView).foldl after pressed).viewport
    let moved := held.move (.ok q.x) (.ok q.y)
    ∃ start place grabbed shown : Point ℚ,
      c.desk.graph.position? id = some start ∧
      c.viewport.toWorld (.ok p.x) (.ok p.y) = .ok grabbed ∧
      held.viewport = view ∧ view.toWorld (.ok q.x) (.ok q.y) = .ok shown ∧
      moved.1 = .ok () ∧ moved.2.desk.graph.position? id = some place ∧
      place = ⟨start.x + shown.x - grabbed.x, start.y + shown.y - grabbed.y⟩ ∧
      moved.2.gesture = .dragging id grab ∧ grab = offset grabbed start ∧
      grab = offset shown place ∧
      (view = c.viewport → place = ⟨start.x + (q.x - p.x) / c.viewport.zoom,
        start.y + (q.y - p.y) / c.viewport.zoom⟩) := by
  intro pressed held view moved
  obtain ⟨grabbed, n, hgrabbed, hn, rfl⟩ := press_dragging hdrag.gesture
  have hstart : c.desk.graph.position? id = some n.position := by
    rw [Graph.position?, hn]
    rfl
  have hview : held.viewport = view := hdrag.viewport_foldl_after rfl rfl
  have hreached : held.Reachable := (hc.after (.press (.ok p.x) (.ok p.y))).foldl_after events
  obtain ⟨shown, hshown⟩ : ∃ shown, held.viewport.toWorld (.ok q.x) (.ok q.y) = .ok shown :=
    ⟨_, Viewport.toWorld_rat hreached.zoom_pos.ne' q⟩
  have hend := hdrag.foldl_after
  obtain ⟨desk, hmoved, hplace⟩ := move_dragging hend.gesture hend.hasNode hshown
  refine ⟨n.position, offset shown (offset grabbed n.position), grabbed, shown, hstart, hgrabbed,
    hview, hview ▸ hshown, congrArg Prod.fst hmoved,
    (congrArg (fun answer => answer.2.desk.graph.position? id) hmoved).trans hplace,
    offset_grab _ _ _, (congrArg (fun answer => answer.2.gesture) hmoved).trans hend.gesture, rfl,
    (offset_offset _ _).symm, fun hsame => ?_⟩
  have hway := Viewport.toWorld_sub hc.zoom_pos.ne' hgrabbed (hsame ▸ hview ▸ hshown)
  rw [offset_grab, add_sub_assoc, add_sub_assoc, hway.1, hway.2]

/-- A node is grabbed at twice the size, and dragged while the wheel scrolls and zooms. -/
theorem drag_follows_pointer_scrolled :
    let add (x y : ℚ) (d : Desk ℚ) : Desk ℚ :=
      (d.addNode (.str "Constant") (.ok ⟨x, y⟩) .null .null false).2
    let c := [.edit (add 0 0), .edit (add 400 100), .view .zoomIn].foldl after
      ⟨⟨.new .attendance, ⟨.counting, []⟩⟩,
        .start ⟨1 / 2, 3, 1, by decide +kernel, by decide +kernel⟩, .idle, 1 / 1000⟩
    let pressed := (c.press (.ok 820) (.ok 220)).2
    let events : List (Event ℚ) := [.move (.ok 300) (.ok 40), .wheel (.ok 30) (.ok 0) false,
      .wheel (.ok 0) (.ok 500) true]
    let moved := (events.foldl after pressed).move (.ok 260) (.ok 80)
    c.Reachable ∧ pressed.DragsThrough "n2" ⟨10, 10⟩ events ∧
    c.desk.graph.position? "n2" = some ⟨400, 100⟩ ∧ moved.1 = .ok () ∧
    moved.2.desk.graph.position? "n2" = some ⟨550 / 3, 130 / 3⟩ ∧
    moved.2.gesture = .dragging "n2" ⟨10, 10⟩ := by
  intro add c pressed events moved
  have hc : c.Reachable := (Reachable.start _ _ _).foldl_after _
  have hdrag : pressed.DragsThrough "n2" ⟨10, 10⟩ events := by
    apply dragsThrough_of_unedited
    · decide +kernel
    · decide +kernel
    · simp [events, Event.Continues]
    · simp [events]
  obtain ⟨_, _, _, _, _, _, _, _, hmoved, _, _, hgesture, _⟩ :=
    drag_follows_pointer (p := ⟨820, 220⟩) hc hdrag ⟨260, 80⟩
  exact ⟨hc, hdrag, by decide +kernel, hmoved, by decide +kernel, hgesture⟩

end Canvas

/-! ## Panning -/

namespace Canvas

/-- A move of the pointer or a turn of the wheel, over exact coordinates. -/
inductive Stroke where
  | move (q : Point ℚ)
  | wheel (delta : Point ℚ) (modifier : Bool)
  deriving DecidableEq

namespace Stroke

def toEvent : Stroke → Event ℚ
  | move q => .move (.ok q.x) (.ok q.y)
  | wheel delta modifier => .wheel (.ok delta.x) (.ok delta.y) modifier

/-- How far a stroke scrolls the view: with a modifier the wheel zooms instead. -/
def scrolled : Stroke → Point ℚ
  | wheel delta false => delta
  | wheel _ true | move _ => ⟨0, 0⟩

def isMove : Stroke → Bool
  | move _ => true
  | wheel _ _ => false

end Stroke

/-- The view is panned with the pointer last at `last`, and the pan is `base`
more than that point. -/
structure PansOver (c : Canvas ℚ) (base last : Point ℚ) : Prop where
  gesture : c.gesture = .panning last
  pan : c.viewport.pan = ⟨base.x + last.x, base.y + last.y⟩

variable {c : Canvas ℚ} {base last p q world : Point ℚ}

/-- A press on the empty canvas starts to pan, and leaves the view. -/
theorem press_panning (hworld : c.viewport.toWorld (.ok p.x) (.ok p.y) = .ok world)
    (hempty : c.desk.graph.hit? world = none) :
    c.press (.ok p.x) (.ok p.y) = (.ok (), { c with gesture := .panning p }) := by
  have hgesture : gestureAt c.desk.graph world p = .panning p := by rw [gestureAt, hempty]
  have hscreen : screenPoint (.ok p.x) (.ok p.y) = .ok p := rfl
  rw [press]
  dsimp only
  rw [hworld, hscreen, ← hgesture]

/-- While the view is panned, a move of the pointer adds to the pan the way that it made. -/
theorem move_panning (hgesture : c.gesture = .panning last) (q : Point ℚ) :
    c.move (.ok q.x) (.ok q.y) = (.ok (), { c with
      viewport := { c.viewport with
        pan := ⟨c.viewport.pan.x + (q.x - last.x), c.viewport.pan.y + (q.y - last.y)⟩ }
      gesture := .panning q }) := by
  rw [move, hgesture]
  rfl

theorem after_move_panning (hgesture : c.gesture = .panning last) (q : Point ℚ) :
    c.after (Stroke.move q).toEvent = { c with
      viewport := { c.viewport with
        pan := ⟨c.viewport.pan.x + (q.x - last.x), c.viewport.pan.y + (q.y - last.y)⟩ }
      gesture := .panning q } :=
  congrArg Prod.snd (move_panning hgesture q)

theorem PansOver.move (h : c.PansOver base last) (q : Point ℚ) :
    (c.after (Stroke.move q).toEvent).PansOver base q := by
  rw [after_move_panning h.gesture]
  refine ⟨rfl, ?_⟩
  simp only [h.pan, Point.mk.injEq]
  constructor <;> ring

theorem offset_zero (p : Point ℚ) : offset p ⟨0, 0⟩ = p := by
  simp [offset]

/-- A stroke takes from the base what it scrolls; the pan follows the pointer in any case. -/
theorem PansOver.stroke (h : c.PansOver base last) (stroke : Stroke) :
    ∃ last, (c.after stroke.toEvent).PansOver (offset base stroke.scrolled) last := by
  cases stroke with
  | move q =>
      refine ⟨q, ?_⟩
      rw [Stroke.scrolled, offset_zero]
      exact h.move q
  | wheel delta modifier =>
      refine ⟨last, ?_, ?_⟩
      · rw [Stroke.toEvent, Canvas.after, wheel_eq]
        exact h.gesture
      · cases modifier with
        | true =>
            rw [Stroke.scrolled, offset_zero]
            exact h.pan
        | false =>
            change Point.mk (c.viewport.pan.x + -delta.x) (c.viewport.pan.y + -delta.y) = _
            simp only [h.pan, offset, Stroke.scrolled, Point.mk.injEq]
            constructor <;> ring

theorem PansOver.foldl_after (h : c.PansOver base last) (strokes : List Stroke) :
    ∃ last, ((strokes.map Stroke.toEvent).foldl after c).PansOver
      ⟨base.x - (strokes.map (·.scrolled.x)).sum,
        base.y - (strokes.map (·.scrolled.y)).sum⟩ last := by
  induction strokes generalizing c base last with
  | nil =>
      refine ⟨last, h.gesture, ?_⟩
      simpa using h.pan
  | cons stroke rest ih =>
      obtain ⟨last', hstroke⟩ := h.stroke stroke
      simp only [List.map_cons, List.sum_cons, List.foldl_cons, ← sub_sub]
      exact ih hstroke

/-- The view is panned with the pointer last at `last`, where `world` is shown. -/
structure Grips (c : Canvas ℚ) (world last : Point ℚ) : Prop where
  gesture : c.gesture = .panning last
  shown : c.viewport.toWorld (.ok last.x) (.ok last.y) = .ok world

/-- A move of the pointer takes the point below it along. -/
theorem Grips.move (h : c.Grips world last) (q : Point ℚ) :
    (c.after (Stroke.move q).toEvent).Grips world q := by
  rw [after_move_panning h.gesture]
  refine ⟨rfl, (c.viewport.toWorld_pan ?_ ?_).trans h.shown⟩
  · exact add_sub_cancel_left _ _
  · exact add_sub_cancel_left _ _

theorem Grips.foldl_after (h : c.Grips world last) {strokes : List Stroke}
    (hmoves : ∀ stroke ∈ strokes, stroke.isMove = true) :
    ∃ last, ((strokes.map Stroke.toEvent).foldl after c).Grips world last := by
  induction strokes generalizing c last with
  | nil => exact ⟨last, h⟩
  | cons stroke rest ih =>
      rw [List.forall_mem_cons] at hmoves
      cases stroke with
      | move q => exact ih (h.move q) hmoves.2
      | wheel delta modifier => cases hmoves.1

/-- The pointer is pressed on the empty canvas, and moved to a point of the screen after any moves
and turns of the wheel. The pan is then what it was, plus the way of the pointer from the press,
less what the wheel scrolled; where the pointer was in between, the zoom, and the turns of the wheel
with a modifier make no difference to it. If the wheel was not turned at all, the pointer is on the
point of the world on which it was pressed. -/
theorem pan_telescopes {c : Canvas ℚ} {p world : Point ℚ}
    (hworld : c.viewport.toWorld (.ok p.x) (.ok p.y) = .ok world)
    (hempty : c.desk.graph.hit? world = none) (strokes : List Stroke) (q : Point ℚ) :
    let pressed := c.press (.ok p.x) (.ok p.y)
    let held := (strokes.map Stroke.toEvent).foldl after pressed.2
    let moved := held.move (.ok q.x) (.ok q.y)
    pressed.1 = .ok () ∧ moved.1 = .ok () ∧ moved.2.gesture = .panning q ∧
      moved.2.viewport.pan =
        ⟨c.viewport.pan.x + (q.x - p.x) - (strokes.map (·.scrolled.x)).sum,
          c.viewport.pan.y + (q.y - p.y) - (strokes.map (·.scrolled.y)).sum⟩ ∧
      ((∀ stroke ∈ strokes, stroke.isMove = true) →
        moved.2.viewport.toWorld (.ok q.x) (.ok q.y) = .ok world) := by
  intro pressed held moved
  have hpressed : pressed = (.ok (), { c with gesture := .panning p }) :=
    press_panning hworld hempty
  have hpans : pressed.2.PansOver (offset c.viewport.pan p) p := by
    rw [hpressed]
    refine ⟨rfl, ?_⟩
    simp [offset]
  have hgrips : pressed.2.Grips world p := by
    rw [hpressed]
    exact ⟨rfl, hworld⟩
  obtain ⟨last, hheld⟩ := hpans.foldl_after strokes
  have hmoved := hheld.move q
  refine ⟨congrArg Prod.fst hpressed, congrArg Prod.fst (move_panning hheld.gesture q),
    hmoved.gesture, hmoved.pan.trans ?_, fun hmoves => ?_⟩
  · simp only [offset, Point.mk.injEq]
    constructor <;> ring
  · obtain ⟨last, hheld⟩ := hgrips.foldl_after hmoves
    exact (hheld.move q).shown

/-- At twice the size the canvas is pressed beside a node and panned while the wheel scrolls and
zooms; and the same without the wheel. -/
theorem pan_telescopes_scrolled :
    let add (x y : ℚ) (d : Desk ℚ) : Desk ℚ :=
      (d.addNode (.str "Constant") (.ok ⟨x, y⟩) .null .null false).2
    let c := [.edit (add 0 0), .view .zoomIn].foldl after
      ⟨⟨.new .attendance, ⟨.counting, []⟩⟩,
        .start ⟨1 / 2, 3, 1, by decide +kernel, by decide +kernel⟩, .idle, 1 / 1000⟩
    let pressed := (c.press (.ok 820) (.ok 220)).2
    let moved (strokes : List Stroke) :=
      (((strokes.map Stroke.toEvent).foldl after pressed).move (.ok 830) (.ok 200)).2.viewport
    let turned := [.move ⟨0, 0⟩, .wheel ⟨5, 7⟩ false, .move ⟨900, 10⟩, .wheel ⟨0, 500⟩ true]
    c.viewport.toWorld (.ok 820) (.ok 220) = .ok ⟨410, 110⟩ ∧
    c.desk.graph.hit? ⟨410, 110⟩ = none ∧
    (moved turned).pan = ⟨5, -27⟩ ∧ (moved turned).zoom = 3 / 2 ∧
    (moved [.move ⟨0, 0⟩]).toWorld (.ok 830) (.ok 200) = .ok ⟨410, 110⟩ := by
  intro add c pressed moved turned
  have hzoom : c.viewport.zoom ≠ 0 := by decide +kernel
  have hworld : c.viewport.toWorld (.ok 820) (.ok 220) = .ok ⟨410, 110⟩ := by
    apply (Viewport.toWorld_rat hzoom ⟨820, 220⟩).trans
    apply congrArg Except.ok
    decide +kernel
  have hempty : c.desk.graph.hit? ⟨410, 110⟩ = none := by decide +kernel
  have htelescopes := pan_telescopes (p := ⟨820, 220⟩) hworld hempty
  obtain ⟨_, _, _, hpan, _⟩ := htelescopes turned ⟨830, 200⟩
  obtain ⟨_, _, _, _, hshown⟩ := htelescopes [.move ⟨0, 0⟩] ⟨830, 200⟩
  refine ⟨hworld, hempty, hpan.trans ?_, by decide +kernel, hshown (by decide)⟩
  decide +kernel

end Canvas

end RuleCanvas
