import RuleCanvas.Json.Basic

/-! # Value types and literals

The type of a value that flows along a wire. `any` belongs to ports only: a literal and a catalog
variable always have one of the three concrete types. A literal keeps the kind of number that it was
given as.
-/

namespace RuleCanvas

inductive ValueType where
  | number
  | boolean
  | string
  | any
  deriving DecidableEq, Repr

namespace ValueType

def name : ValueType → String
  | number => "number"
  | boolean => "boolean"
  | string => "string"
  | any => "any"

def ofName? : String → Option ValueType
  | "number" => some number
  | "boolean" => some boolean
  | "string" => some string
  | "any" => some any
  | _ => none

theorem ofName?_name (t : ValueType) : ofName? t.name = some t := by cases t <;> rfl

theorem name_of_ofName? {s : String} {t : ValueType} (ht : ofName? s = some t) : t.name = s := by
  unfold ofName? at ht
  split at ht <;> cases ht <;> rfl

/-- Two ports can be wired when their types are equal or one of them is `any`. -/
def compatible (source target : ValueType) : Bool :=
  source == any || target == any || source == target

end ValueType

inductive Literal where
  | bool (value : Bool)
  | int (value : Int)
  | float (value : Double)
  | str (value : String)
  deriving DecidableEq, Repr

namespace Literal

def type : Literal → ValueType
  | bool _ => .boolean
  | int _ => .number
  | float _ => .number
  | str _ => .string

def toJson : Literal → Json
  | bool b => .bool b
  | int n => .int n
  | float x => .float x
  | str s => .str s

/-- The literal that a JSON value is; `null`, lists and objects are none. -/
def ofJson? : Json → Option Literal
  | .bool b => some (bool b)
  | .int n => some (int n)
  | .float x => some (float x)
  | .str s => some (str s)
  | _ => none

/-- The literal that stands for a type when none is given. -/
def default? : ValueType → Option Literal
  | .number => some (int 0)
  | .string => some (str "")
  | .boolean => some (bool false)
  | .any => none

theorem type_ne_any (l : Literal) : l.type ≠ .any := by cases l <;> simp [type]

theorem ofJson?_toJson (l : Literal) : ofJson? l.toJson = some l := by cases l <;> rfl

end Literal

/-- The value type of a literal given as JSON. -/
def Json.literalType? (v : Json) : Option ValueType := (Literal.ofJson? v).map Literal.type

end RuleCanvas
