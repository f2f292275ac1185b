import RuleCanvas.Fault
import RuleCanvas.Number.Double

/-! # Viewports

A viewport maps between the screen and the world of the graph: a point of the world is a point of
the screen, less the corner of the canvas and the pan, over the zoom. The zoom scales about the
origin of the world and stays within bounds. Arguments are readings, looked at in the order in which
they are used; what was written before a bad one stays written.
-/

namespace RuleCanvas

open Scalar (ofInt larger smaller)

variable {α : Type} [Scalar α]

/-- A reading as a number, or its fault. -/
def Reading.get {β : Type} : Reading β → Except Fault β
  | .ok x => .ok x
  | .error e => .error (.ofUnreadable e)

/-- Whether one reading is at most another; an integer out of range lies beyond every number. -/
def Reading.atMost : Reading α → Reading α → Except Fault Bool
  | .ok x, .ok y => .ok (decide (x ≤ y))
  | .error (.tooLarge m), .error (.tooLarge n) => .ok (decide (m ≤ n))
  | .error (.tooLarge m), .ok _ => .ok (decide (m < 0))
  | .ok _, .error (.tooLarge n) => .ok (decide (0 < n))
  | _, _ => .error .wrongKind

structure ZoomBounds (α : Type) [Scalar α] where
  min : α
  max : α
  step : α
  min_pos : ¬ min ≤ ofInt 0
  min_below_max : ¬ max ≤ min

namespace ZoomBounds

/-- The bounds with the given numbers, if they are in order. -/
def ofReadings (min max step : Reading α) : Except Fault (ZoomBounds α) := do
  let disorder : Fault := .badValue "zoom bounds must satisfy 0 < min_zoom < max_zoom"
  if ← min.atMost (.ok (ofInt 0)) then throw disorder
  if ← max.atMost min then throw disorder
  let min ← min.get
  let max ← max.get
  let step ← step.get
  if h : ¬ min ≤ ofInt 0 ∧ ¬ max ≤ min then return ⟨min, max, step, h.1, h.2⟩
  else throw disorder

end ZoomBounds

/-- The quotient, unless the divisor is zero. -/
def Scalar.divide (a b : α) : Except Fault α :=
  if Scalar.isZero b then .error .divisionByZero else .ok (a / b)

structure Viewport (α : Type) [Scalar α] where
  bounds : ZoomBounds α
  pan : Point α
  zoom : α
  /-- The top left corner of the canvas on the screen. -/
  origin : Point α
  width : α
  height : α

namespace Viewport

def start (bounds : ZoomBounds α) : Viewport α :=
  ⟨bounds, ⟨ofInt 0, ofInt 0⟩, ofInt 1, ⟨ofInt 0, ofInt 0⟩, ofInt 800, ofInt 600⟩

/-- A size that has to be positive. -/
def readSize (name : String) (given : Reading α) : Except Fault α := do
  if ← given.atMost (.ok (ofInt 0)) then
    throw (.badValue ("canvas " ++ name ++ " must be positive"))
  given.get

/-- Sets the corner of the canvas and, where given, its size. -/
def setRect (v : Viewport α) (x y : Reading α) (width height : Option (Reading α)) :
    Except Fault Unit × Viewport α :=
  match x.get with
  | .error fault => (.error fault, v)
  | .ok x =>
    let v := { v with origin := ⟨x, v.origin.y⟩ }
    match y.get with
    | .error fault => (.error fault, v)
    | .ok y =>
      let v := { v with origin := ⟨x, y⟩ }
      match width.mapM (readSize "width") with
      | .error fault => (.error fault, v)
      | .ok width =>
        let v := { v with width := width.getD v.width }
        match height.mapM (readSize "height") with
        | .error fault => (.error fault, v)
        | .ok height => (.ok (), { v with height := height.getD v.height })

/-! ## Mappings -/

def toWorld (v : Viewport α) (x y : Reading α) : Except Fault (Point α) := do
  let x ← Scalar.divide ((← x.get) - v.origin.x - v.pan.x) v.zoom
  let y ← Scalar.divide ((← y.get) - v.origin.y - v.pan.y) v.zoom
  return ⟨x, y⟩

def toScreen (v : Viewport α) (x y : Reading α) : Except Fault (Point α) := do
  let x ← x.get
  let y ← y.get
  return ⟨x * v.zoom + v.pan.x + v.origin.x, y * v.zoom + v.pan.y + v.origin.y⟩

def center (v : Viewport α) : Except Fault (Point α) := do
  let x ← Scalar.divide (-v.pan.x + v.width / ofInt 2) v.zoom
  let y ← Scalar.divide (-v.pan.y + v.height / ofInt 2) v.zoom
  return ⟨x, y⟩

/-! ## Changes of the view -/

def panBy (v : Viewport α) (dx dy : Reading α) : Except Fault Unit × Viewport α :=
  match dx.get with
  | .error fault => (.error fault, v)
  | .ok dx =>
    let v := { v with pan := ⟨v.pan.x + dx, v.pan.y⟩ }
    match dy.get with
    | .error fault => (.error fault, v)
    | .ok dy => (.ok (), { v with pan := ⟨v.pan.x, v.pan.y + dy⟩ })

/-- The nearest zoom within the bounds. -/
def clamp (v : Viewport α) (zoom : α) : α := smaller (larger zoom v.bounds.min) v.bounds.max

/-- The view with the zoom changed by `delta`, within the bounds. -/
def zoomed (v : Viewport α) (delta : α) : Viewport α := { v with zoom := v.clamp (v.zoom + delta) }

/-- Changes the zoom; the answer is the new one. -/
def zoomBy (v : Viewport α) (delta : Reading α) : Except Fault α × Viewport α :=
  match delta.get with
  | .error fault => (.error fault, v)
  | .ok delta => (.ok (v.zoomed delta).zoom, v.zoomed delta)

def zoomIn (v : Viewport α) : Viewport α := v.zoomed v.bounds.step

def zoomOut (v : Viewport α) : Viewport α := v.zoomed (-v.bounds.step)

def reset (v : Viewport α) : Viewport α := { v with pan := ⟨ofInt 0, ofInt 0⟩, zoom := ofInt 1 }

end Viewport

end RuleCanvas
