import RuleCanvas.Json.Printer

/-! # Issues of fields

What is wrong with a field of a document, and where. A report lists issues in the order of their
JSON text, so that it does not depend on the order in which fields were looked at.
-/

namespace RuleCanvas.Form

/-- A step from a value into a part of it. -/
inductive Step where
  | name (name : String)
  | item (index : Nat)
  /-- A name that is a whole number. -/
  | number (n : Int)
  deriving DecidableEq, Repr

def Step.toJson : Step → Json
  | name s => .str s
  | item i => .int i
  | number n => .int n

inductive Cause where
  | missing
  | extraForbidden
  | invalidKey
  | enumName
  | stringType
  | boolType
  | boolParsing
  | intType
  | intParsing
  | intParsingSize
  | intFromFloat
  | finiteNumber
  | floatType
  | floatParsing
  | belowMinimum
  | listType
  | dictType
  | modelType
  | modelAttributesType
  | jsonInvalid
  /-- A rule of the field itself is broken, in its own words. -/
  | ruleBroken (text : String)
  deriving DecidableEq, Repr

def Cause.word : Cause → String
  | missing => "missing"
  | extraForbidden => "extra_forbidden"
  | invalidKey => "invalid_key"
  | enumName => "enum"
  | stringType => "string_type"
  | boolType => "bool_type"
  | boolParsing => "bool_parsing"
  | intType => "int_type"
  | intParsing => "int_parsing"
  | intParsingSize => "int_parsing_size"
  | intFromFloat => "int_from_float"
  | finiteNumber => "finite_number"
  | floatType => "float_type"
  | floatParsing => "float_parsing"
  | belowMinimum => "greater_than_equal"
  | listType => "list_type"
  | dictType => "dict_type"
  | modelType => "model_type"
  | modelAttributesType => "model_attributes_type"
  | jsonInvalid => "json_invalid"
  | ruleBroken _ => "value_error"

/-- One thing wrong, with the way to the field from the outside in. -/
structure Issue where
  path : List Step
  cause : Cause
  deriving DecidableEq, Repr

namespace Issue

/-- The issue as a report shows it; only a broken rule has words of its own. -/
def toJson (i : Issue) : Json :=
  let loc := ("loc", Json.arr (i.path.map Step.toJson))
  let type := ("type", Json.str i.cause.word)
  match i.cause with
  | .ruleBroken text => .obj [loc, ("msg", .str ("Value error, " ++ text)), type]
  | _ => .obj [loc, type]

/-- The issue seen from further outside. -/
def inside (step : Step) (i : Issue) : Issue := { i with path := step :: i.path }

end Issue

/-- The report of issues, sorted by their text. -/
def report (issues : List Issue) : Json :=
  let rows := issues.map fun i => (i.toJson.render Json.Layout.spaced, i.toJson)
  .arr ((rows.mergeSort fun r s => decide (r.1 ≤ s.1)).map (·.2))

end RuleCanvas.Form
