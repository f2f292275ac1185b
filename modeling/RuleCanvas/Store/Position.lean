import RuleCanvas.Fault
import RuleCanvas.Number.Double

/-! # Given positions

A position is asked for as a pair of values, as a row of any other length, or as some other value.
Whatever consists of two parts is taken apart: a pair, a text of two characters, an object with two
members, whose names are taken. Each part is then converted to a coordinate.
-/

namespace RuleCanvas

inductive GivenPosition where
  | pair (x y : Json)
  | row (items : List Json)
  | other (value : Json)

namespace GivenPosition

/-- A position given as a JSON value: a list of two is a pair. -/
def ofJson : Json → GivenPosition
  | .arr [x, y] => pair x y
  | .arr items => row items
  | v => other v

def shown : GivenPosition → String
  | pair x y => "Point(x=" ++ Text.shown x ++ ", y=" ++ Text.shown y ++ ")"
  | row items => Text.shownRow items
  | other v => Text.shown v

def parts? : GivenPosition → Option (Json × Json)
  | pair x y => some (x, y)
  | other (.str s) =>
    match s.toList with
    | [a, b] => some (.str (String.ofList [a]), .str (String.ofList [b]))
    | _ => none
  | other (.obj [(a, _), (b, _)]) => some (.str a, .str b)
  | _ => none

/-- The point that was asked for. An integer out of range is a fault of its own; anything else that
is no pair of numbers is refused. -/
def read (p : GivenPosition) : Except Fault (Point Double) :=
  let refused : Except Fault (Point Double) := .error (.refused (.badPosition p.shown))
  match p.parts? with
  | none => refused
  | some (x, y) =>
    match x.coordinate with
    | .error (.tooLarge _) => .error .numberTooLarge
    | .error _ => refused
    | .ok x =>
      match y.coordinate with
      | .error (.tooLarge _) => .error .numberTooLarge
      | .error _ => refused
      | .ok y => .ok ⟨x, y⟩

end GivenPosition

end RuleCanvas
