import RuleCanvas.Form.Issue
import RuleCanvas.Number.Argument

/-! # Readers of fields

A reader turns a JSON value into a value of a type or lists all that is wrong with it. Readers are
lenient where a text or a number of another kind clearly means the value: an integer field takes
`"7"` and `7.0`, a number field takes texts and booleans. A text field takes texts only.
-/

namespace RuleCanvas.Form

/-- A value, or everything that is wrong. -/
abbrev Checked (α : Type) := Except (List Issue) α

abbrev Reader (α : Type) := Json → Checked α

def fail {α : Type} (cause : Cause) : Checked α := .error [⟨[], cause⟩]

/-- The same with all issues seen from further outside. -/
def within {α : Type} (step : Step) : Checked α → Checked α
  | .ok a => .ok a
  | .error issues => .error (issues.map (Issue.inside step))

/-- Both values, or the issues of both. -/
def both {α β : Type} : Checked α → Checked β → Checked (α × β)
  | .ok a, .ok b => .ok (a, b)
  | .ok _, .error js => .error js
  | .error is, .ok _ => .error is
  | .error is, .error js => .error (is ++ js)

/-- All the values, or the issues of all. -/
def all {α : Type} : List (Checked α) → Checked (List α)
  | [] => .ok []
  | c :: rest => (both c (all rest)).map fun (a, as) => a :: as

/-! ## Single values -/

def string : Reader String
  | .str s => .ok s
  | _ => fail .stringType

def word {α : Type} (ofName? : String → Option α) : Reader α
  | .str s =>
    match ofName? s with
    | some a => .ok a
    | none => fail .enumName
  | _ => fail .enumName

/-- Whether two underscores stand side by side. -/
def hasDoubled (cs : List Char) : Bool :=
  (cs.zip (cs.drop 1)).any fun (a, b) => a == '_' && b == '_'

/-- Underscores removed, where each stands alone inside the text. -/
def joinUnderscores? (cs : List Char) : Option (List Char) :=
  if cs.head? == some '_' || cs.getLast? == some '_' || !cs.contains '_' || hasDoubled cs then none
  else some (cs.filter (· != '_'))

/-- The digits of an integer without its leading zeros. One zero stays if there is nothing else or
a point follows. -/
def dropZeros? (cs : List Char) : Option (List Char) :=
  match cs with
  | '0' :: rest =>
    let (zeros, after) := rest.span fun c => c == '0' || c == '_'
    if hasDoubled zeros then none
    else
      match after with
      | [] => cs.getLast?.map fun c => [c]
      | '.' :: _ => some (zeros.getLast?.getD '0' :: after)
      | c :: _ => if c.isDigit then some after else none
  | c :: _ => if c.isDigit || c == '-' then some cs else none
  | [] => none

/-- An integer's text without a fraction of zeros; any other fraction is refused. -/
def dropFraction? (cs : List Char) : Option (List Char) :=
  match cs.span (· != '.') with
  | (whole, '.' :: zeros) => if zeros.all (· == '0') then some whole else none
  | _ => some cs

/-- The integer of a plain text: an optional minus and digits without a leading zero. -/
def plainInt? (cs : List Char) : Option Int :=
  let (negative, ds) :=
    match cs with
    | '-' :: rest => (true, rest)
    | rest => (false, rest)
  if ds.isEmpty || !ds.all Char.isDigit || (ds.head? == some '0' && 1 < ds.length) then none
  else
    let n : Int := Numeral.value ds
    some (if negative then -n else n)

/-- The integer that a text spells between blanks: with an optional plus, leading zeros, underscores
between digits and a fraction of zeros. -/
def intText? (s : String) : Option Int :=
  let cs := s.toList
  match plainInt? cs with
  | some n => some n
  | none => do
    let cs := Text.trim Text.isSpace cs
    let cs ←
      match cs with
      | '+' :: rest => if rest.head? == some '-' then none else some rest
      | cs => some cs
    let cs ← dropZeros? cs
    let cs ← dropFraction? cs
    plainInt? ((joinUnderscores? cs).getD cs)

/-- The largest magnitude at which a binary64 number is still taken as an integer. -/
def wordLimit : Int := 0x8000000000000000

def integer : Reader Int
  | .int n => .ok n
  | .bool b => .ok (if b then 1 else 0)
  | .str s =>
    match intText? s with
    | some n => .ok n
    | none => fail .intParsing
  | .float x =>
    if !x.isFinite then fail .finiteNumber
    else
      match x.toInt? with
      | none => fail .intFromFloat
      | some n => if -wordLimit < n && n < wordLimit then .ok n else fail .intParsingSize
  | _ => fail .intType

def natural : Reader Nat := fun v =>
  match integer v with
  | .ok n => if n < 0 then fail .belowMinimum else .ok n.toNat
  | .error issues => .error issues

def number : Reader Double
  | .str s =>
    let spelled := Numeral.double? (Text.trim Text.isSpace s.toList)
    let joined := (joinUnderscores? s.toList).bind Numeral.double?
    match spelled <|> joined with
    | some x => .ok x
    | none => fail .floatParsing
  | v =>
    match v.operand with
    | .ok x => .ok x
    | .error _ => fail .floatType

/-- A switch, also as one of the usual words or as `0` or `1`. -/
def switch : Reader Bool
  | .bool b => .ok b
  | .str s =>
    let w := String.ofList (s.toList.map Char.toLower)
    if ["1", "on", "t", "true", "y", "yes"].contains w then .ok true
    else if ["0", "off", "f", "false", "n", "no"].contains w then .ok false
    else fail .boolParsing
  | .int n => if n = 0 then .ok false else if n = 1 then .ok true else fail .boolParsing
  | .float x =>
    match x.toInt? with
    | some n => if n = 0 then .ok false else if n = 1 then .ok true else fail .boolParsing
    | none => fail .boolType
  | _ => fail .boolType

def optional {α : Type} (reader : Reader α) : Reader (Option α)
  | .null => .ok none
  | v => (reader v).map some

/-- A list, each item read; issues are located by index. -/
def list {α : Type} (reader : Reader α) : Reader (List α)
  | .arr items => all (items.zipIdx.map fun (v, i) => within (.item i) (reader v))
  | _ => fail .listType

/-! ## Members of an object -/

/-- The members that a field is read from: those under its name, else under its other name. -/
def present? (name other : String) (members : Json.Members) : Option (String × Json) :=
  match Json.find? name members with
  | some v => some (name, v)
  | none => (Json.find? other members).map fun v => (other, v)

/-- A field that has to be there. Issues are located by its name, whichever name was used. -/
def required {α : Type} (name other : String) (reader : Reader α) (members : Json.Members) :
    Checked α :=
  within (.name name) <|
    match present? name other members with
    | some (_, v) => reader v
    | none => fail .missing

def defaulted {α : Type} (name other : String) (default : α) (reader : Reader α)
    (members : Json.Members) : Checked α :=
  match present? name other members with
  | some (_, v) => within (.name name) (reader v)
  | none => .ok default

/-- Refuses every member that no field was read from. -/
def noOthers (used : List String) (members : Json.Members) : Checked Unit :=
  match members.filter fun m => !used.contains m.1 with
  | [] => .ok ()
  | extra => .error (extra.map fun m => ⟨[.name m.1], .extraForbidden⟩)

def model {α : Type} (otherwise : Cause) (reader : Json.Members → Checked α) : Reader α
  | .obj members => reader members
  | _ => fail otherwise

end RuleCanvas.Form
