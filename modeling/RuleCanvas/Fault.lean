import RuleCanvas.NodeKind
import RuleCanvas.ValueType
import RuleCanvas.Form.Issue
import RuleCanvas.Text.Shown
import RuleCanvas.Number.Argument

/-! # Faults

Why an operation did not happen. A `Refusal` is a cause from the editor's own rules: it has a
family, which decides how it is answered over HTTP, a message, and details for a program. A `Fault`
is a refusal or a failure of the values that an operation was given.
-/

namespace RuleCanvas

/-- The families of refusals. `invalidConnection` has `typeMismatch` and `cycleDetected` as special
cases; `general` stands for none of the others. -/
inductive Family where
  | general
  | invalidConnection
  | typeMismatch
  | cycleDetected
  | notFound
  | conflict
  | invalidPayload
  | malformedRuleTree
  deriving DecidableEq, Repr

namespace Family

def name : Family → String
  | general => "PolicyGraphError"
  | invalidConnection => "InvalidConnectionError"
  | typeMismatch => "TypeMismatchError"
  | cycleDetected => "CycleDetectedError"
  | notFound => "NotFoundError"
  | conflict => "ConflictError"
  | invalidPayload => "InvalidPayloadError"
  | malformedRuleTree => "MalformedRuleTreeError"

def all : List Family :=
  [general, invalidConnection, typeMismatch, cycleDetected, notFound, conflict, invalidPayload,
    malformedRuleTree]

def ofName? (s : String) : Option Family := all.find? fun f => f.name == s

def isConnection : Family → Bool
  | invalidConnection => true
  | typeMismatch => true
  | cycleDetected => true
  | _ => false

/-- The HTTP status that answers a refusal. -/
def status : Family → Nat
  | general => 500
  | invalidConnection => 422
  | typeMismatch => 422
  | cycleDetected => 409
  | notFound => 404
  | conflict => 409
  | invalidPayload => 400
  | malformedRuleTree => 422

end Family

/-- What a refusal says: its family, a message, and details for a program. -/
structure Statement where
  family : Family
  message : String
  details : Json.Members

/-- A statement about two types that do not fit; further details come last and win. -/
def Statement.typeMismatch (source target : String) (details : Json.Members) : Statement :=
  ⟨.typeMismatch, "Type mismatch: cannot connect " ++ source ++ " to " ++ target,
    Json.putAll [("from_type", .str source), ("to_type", .str target)] details⟩

inductive Malformation where
  | notObject (kind : String)
  | noRules (keys : List String)
  | rulesNotList (kind : String)
  | missingOperand (path : String)
  | badShape (path kind : String) (keys : Option (List String))
  | unnamedVariable (path : String) (given : Json)
  | unknownVariable (path key : String)
  | unknownOperator (path operator : String)
  | operandCount (path operator : String) (expected : Nat) (count : Option Nat)
  | notBoolean (path : String) (type : ValueType)

namespace Malformation

private def keyList (keys : List String) : Json :=
  .arr ((keys.mergeSort fun a b => decide (a ≤ b)).map .str)

def message : Malformation → String
  | notObject _ => "Rule tree must be an object"
  | noRules _ => "Rule tree is missing 'status_rules'"
  | rulesNotList _ => "'status_rules' must be a list"
  | missingOperand path => "Missing operand at " ++ path
  | badShape path _ _ =>
    "Invalid rule at " ++ path ++ ": must be a literal or an object with exactly one operator"
  | unnamedVariable path _ => "'var' must name a variable at " ++ path
  | unknownVariable path key => "Unknown variable '" ++ key ++ "' at " ++ path
  | unknownOperator path operator => "Unknown operator '" ++ operator ++ "' at " ++ path
  | operandCount path operator expected _ =>
    "'" ++ operator ++ "' requires exactly " ++ toString expected ++ " operands at " ++ path
  | notBoolean path type => "Expected a boolean at " ++ path ++ ", got " ++ type.name

def details : Malformation → Json.Members
  | notObject kind => [("type", .str kind)]
  | noRules keys => [("keys", keyList keys)]
  | rulesNotList kind => [("type", .str kind)]
  | missingOperand path => [("path", .str path)]
  | badShape path kind keys =>
    [("path", .str path), ("type", .str kind), ("keys", Json.ofOption keyList keys)]
  | unnamedVariable path given => [("path", .str path), ("var", given)]
  | unknownVariable path key => [("path", .str path), ("var", .str key)]
  | unknownOperator path operator => [("path", .str path), ("operator", .str operator)]
  | operandCount path operator _ count =>
    [("path", .str path), ("operator", .str operator),
      ("operand_count", Json.ofOption (fun n => .int (n : Nat)) count)]
  | notBoolean path type =>
    [("path", .str path), ("expected_type", .str "boolean"), ("actual_type", .str type.name)]

end Malformation

/-- Why the editor refuses an operation. -/
inductive Refusal where
  /-- One end of a connection names no node. -/
  | missingEnd (source target : String)
  | noSuchOutput (node : String) (kind : NodeKind) (index : Nat)
  | noSuchInput (node : String) (kind : NodeKind) (index : Nat)
  | selfLoop (node : String)
  | badReference (role : String) (issues : List Form.Issue)
  | typeMismatch (sourceType targetType : ValueType) (source target : String)
  | cycle (source target : String)
  | noNode (id : Json)
  | noEdge (id : Json)
  | nodeTaken (id : Json)
  | edgeTaken (id : Json)
  | unknownKind (kind : Json)
  | badPayload (kind : NodeKind) (issues : List Form.Issue)
  | unknownVariable (key : String)
  | kindChange (node : String) (kind : NodeKind)
  | badPosition (shown : String)
  | malformed (cause : Malformation)

namespace Refusal

def statement : Refusal → Statement
  | missingEnd source target =>
    ⟨.invalidConnection, "Connection references a node that does not exist",
      [("from", .str source), ("to", .str target)]⟩
  | noSuchOutput node kind index =>
    ⟨.invalidConnection, "Connection source must be an output port",
      [("node_id", .str node), ("kind", .str kind.name), ("port_index", .int index)]⟩
  | noSuchInput node kind index =>
    ⟨.invalidConnection, "Connection target must be an input port",
      [("node_id", .str node), ("kind", .str kind.name), ("port_index", .int index)]⟩
  | selfLoop node =>
    ⟨.invalidConnection, "A node cannot be connected to itself", [("node_id", .str node)]⟩
  | badReference role issues =>
    ⟨.invalidConnection, "Invalid '" ++ role ++ "' port reference",
      [("port", .str role), ("errors", Form.report issues)]⟩
  | typeMismatch sourceType targetType source target =>
    .typeMismatch sourceType.name targetType.name [("from", .str source), ("to", .str target)]
  | cycle source target =>
    ⟨.cycleDetected, "Connection would create a cycle",
      [("from", .str source), ("to", .str target)]⟩
  | noNode id => ⟨.notFound, "Node not found", [("node_id", id)]⟩
  | noEdge id => ⟨.notFound, "Edge not found", [("edge_id", id)]⟩
  | nodeTaken id => ⟨.conflict, "Node id already exists", [("node_id", id)]⟩
  | edgeTaken id => ⟨.conflict, "Edge id already exists", [("edge_id", id)]⟩
  | unknownKind kind =>
    ⟨.invalidPayload, "Unknown node kind '" ++ Text.bare kind ++ "'",
      [("kind", .str (Text.bare kind))]⟩
  | badPayload kind issues =>
    ⟨.invalidPayload, "Invalid payload for " ++ kind.name ++ " node",
      [("kind", .str kind.name), ("errors", Form.report issues)]⟩
  | unknownVariable key =>
    ⟨.invalidPayload, "Unknown variable '" ++ key ++ "'", [("key", .str key)]⟩
  | kindChange node kind =>
    ⟨.invalidPayload, "Payload update cannot change the node kind",
      [("node_id", .str node), ("kind", .str kind.name)]⟩
  | badPosition shown =>
    ⟨.invalidPayload, "Node position must be a pair of numbers", [("position", .str shown)]⟩
  | malformed cause => ⟨.malformedRuleTree, cause.message, cause.details⟩

def family (r : Refusal) : Family := r.statement.family

def message (r : Refusal) : String := r.statement.message

def details (r : Refusal) : Json.Members := r.statement.details

end Refusal

inductive Fault where
  | refused (refusal : Refusal)
  /-- A record does not have the fields it should. -/
  | invalid (issues : List Form.Issue)
  /-- A value outside the set that the operation is defined on, in its own words. -/
  | badValue (message : String)
  | missingMember (name : String)
  | wrongKind
  /-- Members were asked of a value that has none. -/
  | notDocument
  | indexOutOfRange
  | numberTooLarge
  | divisionByZero
  | notJson
  | noSuchFile

namespace Fault

/-- The fault of a number argument. -/
def ofUnreadable : Unreadable → Fault
  | .notNumber => wrongKind
  | .notNumeral text =>
    badValue ("could not convert string to float: " ++ Text.shown (.str text))
  | .tooLarge _ => numberTooLarge

/-- The fault of a name that is not in a fixed list. -/
def notA (set : String) (given : Json) : Fault :=
  badValue (Text.shown given ++ " is not a valid " ++ set)

end Fault

end RuleCanvas
