import RuleCanvas.Canvas.Card
import RuleCanvas.Canvas.Viewport
import RuleCanvas.Store.Wires
import RuleCanvas.Journal

/-! # Gestures

What the pointer does on the canvas. Pressing an output starts to draw a connection, pressing a body
starts to drag its node, and pressing the empty canvas starts to pan; pressing an input starts
nothing. Releasing ends the gesture, and over an input tries to connect. The wheel pans, or zooms if
a modifier key is held, whatever the gesture.
-/

namespace RuleCanvas

variable {α : Type} [Scalar α]

inductive Gesture (α : Type) where
  | idle
  /-- Panning, with the last point of the pointer on the screen. -/
  | panning (last : Point α)
  /-- Dragging a node, with the distance from its corner to the pointer when it was grabbed. -/
  | dragging (node : String) (grab : Point α)
  /-- Drawing a connection from an output to the pointer. -/
  | drawing (source : PortRef) (cursor : Point α)
  deriving DecidableEq, Repr

/-- A graph under edit as it is shown, with the gesture under way. -/
structure Canvas (α : Type) [Scalar α] where
  desk : Desk α
  viewport : Viewport α
  gesture : Gesture α
  /-- The change of the zoom per unit of the wheel. -/
  sensitivity : α

namespace Canvas

def offset (p q : Point α) : Point α := ⟨p.x - q.x, p.y - q.y⟩

/-- The gesture that pressing a point starts: `world` is the point in the world, `screen` on the
screen. -/
def gestureAt (g : Graph α) (world screen : Point α) : Gesture α :=
  match g.hit? world with
  | some (.port node .output index) => .drawing ⟨node, index⟩ world
  | some (.port _ .input _) => .idle
  | some (.body node) =>
    match g.node? node with
    | some n => .dragging node (offset world n.position)
    | none => .idle
  | none => .panning screen

def screenPoint (x y : Reading α) : Except Fault (Point α) := do
  let x ← x.get
  let y ← y.get
  return ⟨x, y⟩

/-- The pointer is pressed. A gesture under way is given up first. -/
def press (c : Canvas α) (x y : Reading α) : Except Fault Unit × Canvas α :=
  let c := { c with gesture := .idle }
  match c.viewport.toWorld x y, screenPoint x y with
  | .ok world, .ok screen => (.ok (), { c with gesture := gestureAt c.desk.graph world screen })
  | .error fault, _ => (.error fault, c)
  | _, .error fault => (.error fault, c)

/-- Moves the dragged node to where the pointer is; the gesture ends if the node is gone. -/
def drag (c : Canvas α) (node : String) (grab world : Point α) : Except Fault Unit × Canvas α :=
  match c.desk.moveNode (.str node) (.ok (offset world grab)) with
  | (.error (.refused _), desk) => (.ok (), { c with desk, gesture := .idle })
  | (result, desk) => (result, { c with desk })

def move (c : Canvas α) (x y : Reading α) : Except Fault Unit × Canvas α :=
  match c.gesture with
  | .idle => (.ok (), c)
  | .drawing source _ =>
    match c.viewport.toWorld x y with
    | .error fault => (.error fault, c)
    | .ok world => (.ok (), { c with gesture := .drawing source world })
  | .dragging node grab =>
    match c.viewport.toWorld x y with
    | .error fault => (.error fault, c)
    | .ok world => c.drag node grab world
  | .panning last =>
    match screenPoint x y with
    | .error fault => (.error fault, c)
    | .ok screen =>
      let (result, viewport) :=
        c.viewport.panBy (.ok (screen.x - last.x)) (.ok (screen.y - last.y))
      (result, { c with viewport, gesture := .panning screen })

/-- The notice of a connection that was refused, where the user is told: only types that do not fit
and cycles are worth a word. -/
def connectionNotice? : Fault → Option Notice
  | .refused refusal =>
    match refusal.family with
    | .typeMismatch => some (.rejected "connection" refusal)
    | .cycleDetected => some (.rejected "connection" refusal)
    | _ => none
  | _ => none

/-- Connects the source of the drawn connection to the input under a point, if there is one. -/
def finish (c : Canvas α) (source : PortRef) (world : Point α) :
    Except Fault (Option Notice) × Canvas α :=
  match c.desk.graph.hit? world with
  | some (.port node .input index) =>
    match c.desk.connectRefs source ⟨node, index⟩ .null with
    | (.ok _, desk) => (.ok none, { c with desk })
    | (.error (.refused refusal), desk) =>
      match connectionNotice? (.refused refusal) with
      | some notice => (.ok (some notice), { c with desk := desk.log notice.line })
      | none => (.ok none, { c with desk })
    | (.error fault, desk) => (.error fault, { c with desk })
  | _ => (.ok none, c)

/-- The pointer is released, which ends the gesture; the answer is a notice for the user. -/
def release (c : Canvas α) (x y : Reading α) : Except Fault (Option Notice) × Canvas α :=
  let idle := { c with gesture := .idle }
  match c.gesture with
  | .drawing source _ =>
    match c.viewport.toWorld x y with
    | .error fault => (.error fault, idle)
    | .ok world => idle.finish source world
  | _ => (.ok none, idle)

/-- The opposite of a reading, which every number has. -/
def opposite : Reading α → Except Fault (Reading α)
  | .ok d => .ok (.ok (-d))
  | .error (.tooLarge n) => .ok (.error (.tooLarge (-n)))
  | .error e => .error (.ofUnreadable e)

/-- The wheel turns. Turned down, it pans up or zooms out. -/
def wheel (c : Canvas α) (dx dy : Reading α) (modifier : Bool) : Except Fault Unit × Canvas α :=
  if modifier then
    match opposite dy with
    | .error fault => (.error fault, c)
    | .ok dy =>
      let (result, viewport) := c.viewport.zoomBy (dy.map (· * c.sensitivity))
      (result.map fun _ => (), { c with viewport })
  else
    match opposite dx, opposite dy with
    | .ok dx, .ok dy =>
      let (result, viewport) := c.viewport.panBy dx dy
      (result, { c with viewport })
    | .error fault, _ => (.error fault, c)
    | _, .error fault => (.error fault, c)

/-- The segment from the source of the drawn connection to the pointer. -/
def preview? (c : Canvas α) : Option (Point α × Point α) :=
  match c.gesture with
  | .drawing source cursor =>
    (c.desk.graph.node? source.node).map fun n => (n.anchor .output source.port, cursor)
  | _ => none

end Canvas

end RuleCanvas
