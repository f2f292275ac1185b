import RuleCanvas.NodeKind
import RuleCanvas.ValueType
import RuleCanvas.Form.Reader
import RuleCanvas.Text.Shown

/-! # Payloads

What a node carries, by kind. The value type of a constant is the type of its literal, so a payload
that disagrees with itself cannot be built; `Payload.read` reports the disagreement of a document.
-/

namespace RuleCanvas

inductive Payload where
  | logic (operator : LogicOperator)
  | compare (operator : CompareOperator)
  | var (key : String)
  | constant (value : Literal)
  | choice
  | result
  deriving DecidableEq, Repr

namespace Payload

def kind : Payload → NodeKind
  | logic _ => .logic
  | compare _ => .compare
  | var _ => .var
  | constant _ => .constant
  | choice => .choice
  | result => .result

def fields : Payload → Json.Members
  | logic o => [("operator", .str o.symbol)]
  | compare o => [("operator", .str o.symbol)]
  | var key => [("key", .str key)]
  | constant l => [("valueType", .str l.type.name), ("value", l.toJson)]
  | choice => []
  | result => []

/-! ## Reading -/

open Form

def readConcrete : Reader ValueType := fun v =>
  match word ValueType.ofName? v with
  | .ok .any => fail (.ruleBroken "constants must be number, string or boolean")
  | answer => answer

/-- A literal of any type; a value of another kind is reported under each of the four. -/
def readLiteral : Reader Literal := fun v =>
  match Literal.ofJson? v with
  | some l => .ok l
  | none => .error [⟨[.name "bool"], .boolType⟩, ⟨[.name "int"], .intType⟩,
      ⟨[.name "float"], .floatType⟩, ⟨[.name "str"], .stringType⟩]

/-- A constant's literal, which has to be of the declared type. -/
def readConstant (members : Json.Members) : Checked Payload :=
  let typeName := ((present? "valueType" "value_type" members).map (·.1)).getD "valueType"
  let declared := defaulted "valueType" "value_type" .number readConcrete members
  let literal := defaulted "value" "value" (.int 0) readLiteral members
  match both (both declared literal) (noOthers ["kind", typeName, "value"] members) with
  | .error issues => .error issues
  | .ok ((declared, literal), _) =>
    if literal.type = declared then .ok (constant literal)
    else fail <| .ruleBroken <|
      "Constant value " ++ Text.shown literal.toJson ++ " does not match value type '" ++
        declared.name ++ "'"

/-- The payload of a node of kind `kind` with the given fields. Fields of another kind are refused,
`kind` itself is passed over, and issues start at the kind. -/
def read (kind : NodeKind) (members : Json.Members) : Checked Payload :=
  within (.name kind.name) <|
    match kind with
    | .logic =>
      (both (defaulted "operator" "operator" .and (word LogicOperator.ofSymbol?) members)
        (noOthers ["kind", "operator"] members)).map fun (o, _) => logic o
    | .compare =>
      (both (defaulted "operator" "operator" .greater (word CompareOperator.ofSymbol?) members)
        (noOthers ["kind", "operator"] members)).map fun (o, _) => compare o
    | .var =>
      (both (required "key" "key" string members) (noOthers ["kind", "key"] members)).map
        fun (key, _) => var key
    | .constant => readConstant members
    | .choice => (noOthers ["kind"] members).map fun _ => choice
    | .result => (noOthers ["kind"] members).map fun _ => result

/-! ## Names that are no texts -/

/-- The way to a field under a name that is no text. -/
def misnamedStep : Json → Step
  | .bool b => .number (if b then 1 else 0)
  | .int n => if -wordLimit ≤ n ∧ n < wordLimit then .number n else .name (Text.shown (.int n))
  | v => .name (Text.shown v)

/-- All that is wrong with fields of which some have names that are no texts. What is wrong with the
payload as a whole is not looked at then. -/
def misnamedIssues (kind : NodeKind) (members : Json.Members) (misnamed : List Json) : List Issue :=
  let others :=
    match read kind members with
    | .ok _ => []
    | .error issues => issues.filter fun i => 1 < i.path.length
  others ++ misnamed.map fun name => ⟨[.name kind.name, misnamedStep name], .invalidKey⟩

end Payload

end RuleCanvas
