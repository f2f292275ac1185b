import RuleCanvas.Number.Written

/-! # JSON values

A value keeps integers of any size, binary64 numbers and booleans apart, and the members of an
object in the order in which they were first written. Objects hold each name once; `Json.put`
keeps that.
-/

namespace RuleCanvas

inductive Json where
  | null
  | bool (value : Bool)
  | int (value : Int)
  | float (value : Double)
  | str (value : String)
  | arr (items : List Json)
  | obj (members : List (String × Json))
  deriving Inhabited, Repr

namespace Json

/-- The members of an object, by name. -/
abbrev Members := List (String × Json)

/-- Writes a member: in its old place if the name is there, else at the end. -/
def put (name : String) (value : Json) : Members → Members
  | [] => [(name, value)]
  | (n, v) :: rest => if n = name then (n, value) :: rest else (n, v) :: put name value rest

/-- The object written member by member, so that the last value of a name wins. -/
def putAll (base : Members) (members : Members) : Members :=
  members.foldl (fun acc m => put m.1 m.2 acc) base

def remove (name : String) (members : Members) : Members :=
  members.filter fun m => m.1 != name

def find? (name : String) (members : Members) : Option Json :=
  (members.find? fun m => m.1 == name).map (·.2)

/-- A member of a value that may be no object. -/
def member? (name : String) : Json → Option Json
  | obj members => find? name members
  | _ => none

def text? : Json → Option String
  | str s => some s
  | _ => none

/-- Whether a value counts as present where a missing one has a default: `null`, `false`, zero and
the empty string, list and object do not. -/
def isTruthy : Json → Bool
  | null => false
  | bool b => b
  | int n => n != 0
  | float x => !x.sameValue (Double.zero false)
  | str s => s != ""
  | arr items => !items.isEmpty
  | obj members => !members.isEmpty

/-- Whether a value can serve as a look-up key; lists and objects cannot. -/
def isKey : Json → Bool
  | arr _ => false
  | obj _ => false
  | _ => true

/-- An optional value, `null` where it is absent. -/
def ofOption {α : Type} (f : α → Json) : Option α → Json
  | none => null
  | some a => f a

/-! ## Equality of values

Numbers are equal when their values are, whatever their kind, and a boolean counts as `0` or `1`.
Objects are equal when they hold equal values under the same names. -/

/-- The integer that a value stands for, `none` if it is no whole number. -/
def whole? : Json → Option Int
  | bool b => some (if b then 1 else 0)
  | int n => some n
  | float x => x.toInt?
  | _ => none

mutual

def sameValue : Json → Json → Bool
  | null, null => true
  | str s, str t => s == t
  | float x, float y => x.sameValue y
  | arr xs, arr ys => sameItems xs ys
  | obj xs, obj ys => xs.length == ys.length && sameMembers xs ys
  | a, b =>
    match whole? a, whole? b with
    | some m, some n => m == n
    | _, _ => false

def sameItems : List Json → List Json → Bool
  | [], [] => true
  | x :: xs, y :: ys => sameValue x y && sameItems xs ys
  | _, _ => false

def sameMembers : List (String × Json) → List (String × Json) → Bool
  | [], _ => true
  | (name, x) :: xs, ys =>
    (match find? name ys with
      | some y => sameValue x y
      | none => false) && sameMembers xs ys

end

end Json

end RuleCanvas
