import RuleCanvas.Json.Basic
import RuleCanvas.Text.Character

/-! # Numbers given as arguments

A coordinate comes as a JSON value. As an operand of arithmetic it has to be a number or a boolean;
where it is converted, a text that spells a number will do as well. An integer beyond the range of
binary64 numbers is refused in both places.
-/

namespace RuleCanvas

inductive Unreadable where
  | notNumber
  | notNumeral (text : String)
  | tooLarge (n : Int)
  deriving Repr

/-- A number on its way into the arithmetic. -/
abbrev Reading (α : Type) := Except Unreadable α

namespace Numeral

/-- Whether every underscore stands between two digits; `before` is the character in front. -/
def joinsDigits (before : Char) : List Char → Bool
  | [] => before != '_'
  | c :: rest => (c != '_' || before.isDigit) && (before != '_' || c.isDigit) && joinsDigits c rest

/-- The number that a text spells between blanks, with the digits of any script and underscores
between digits. -/
def ofText? (s : String) : Option Double :=
  let cs := (Text.trim Text.isBlank s.toList).map Text.plainDigit
  if joinsDigits ' ' cs then double? (cs.filter (· != '_')) else none

end Numeral

namespace Json

/-- A value as an operand of arithmetic. -/
def operand : Json → Reading Double
  | bool b => .ok (if b then Double.nearest false 1 1 else Double.zero false)
  | int n =>
    match Double.ofInt? n with
    | some x => .ok x
    | none => .error (.tooLarge n)
  | float x => .ok x
  | _ => .error .notNumber

/-- A value converted to a number. -/
def coordinate : Json → Reading Double
  | str s =>
    match Numeral.ofText? s with
    | some x => .ok x
    | none => .error (.notNumeral s)
  | v => v.operand

end Json

end RuleCanvas
