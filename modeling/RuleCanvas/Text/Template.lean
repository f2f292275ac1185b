import RuleCanvas.Fault

/-! # Text templates

A template is a text with slots: a percent sign, flags, a width, a precision and a letter that says
how the next argument is written. A slot may name its argument instead of taking the next one. The
slots are filled from left to right, and the first that cannot be filled ends the work. A percent
sign of the text itself is written twice.
-/

namespace RuleCanvas.Text.Template

structure Style where
  /-- Show the base of an integer, and the point of a number without a fraction. -/
  alternate : Bool
  /-- Fill up with zeros instead of blanks. -/
  zeros : Bool
  left : Bool
  /-- A blank, or a plus, where a minus would stand. -/
  blank : Bool
  plus : Bool
  width : Nat
  precision : Option Nat

/-! ## Layout -/

/-- A text within the width of a slot; `lead` stays in front of filling zeros. -/
def Style.fit (s : Style) (fillable : Bool) (lead body : List Char) : List Char :=
  let missing := s.width - (lead.length + body.length)
  if s.left then lead ++ body ++ List.replicate missing ' '
  else if s.zeros && fillable then lead ++ List.replicate missing '0' ++ body
  else List.replicate missing ' ' ++ lead ++ body

def Style.sign (s : Style) (negative : Bool) : List Char :=
  if negative then ['-'] else if s.plus then ['+'] else if s.blank then [' '] else []

/-- A text at most as long as the precision. -/
def Style.word (s : Style) (body : List Char) : List Char :=
  s.fit false [] (match s.precision with | some p => body.take p | none => body)

/-- An integer in a base, with at least as many digits as the precision says. -/
def Style.integer (s : Style) (base : Nat) (mark : List Char) (upper : Bool) (n : Int) :
    List Char :=
  let digits := Nat.toDigits base n.natAbs
  let digits := if upper then digits.map Char.toUpper else digits
  let body := List.replicate (s.precision.getD 0 - digits.length) '0' ++ digits
  s.fit true (s.sign (n < 0) ++ (if s.alternate then mark else [])) body

/-! ## Numbers with a fraction -/

/-- The magnitude of a finite number as a quotient. -/
def quotient (x : Double) : Nat × Nat :=
  let (m, q) := x.magnitude
  (m * Nat.pow 2 q.toNat, Nat.pow 2 (-q).toNat)

/-- A mark and what follows it, nothing where nothing follows and the mark is not wanted. -/
def fraction (keepPoint : Bool) (ds : List Char) : List Char :=
  if ds.isEmpty && !keepPoint then [] else '.' :: ds

def fixed (keepPoint : Bool) (places num den : Nat) : List Char :=
  let digits := Numeral.ofNat (Double.roundDiv (num * Nat.pow 10 places) den)
  let digits := List.replicate (places + 1 - digits.length) '0' ++ digits
  let whole := digits.length - places
  digits.take whole ++ fraction keepPoint (digits.drop whole)

/-- The digits of a quotient, one and `places` more, and the exponent of the first. -/
def scientificParts (places num den : Nat) : Nat × Int :=
  if num = 0 then (0, 0)
  else
    let guess : Int := (Numeral.ofNat num).length - (Numeral.ofNat den).length
    let reached := den * Nat.pow 10 guess.toNat ≤ num * Nat.pow 10 (-guess).toNat
    let e := if reached then guess else guess - 1
    let shift := (places : Int) - e
    let digits := Double.roundDiv (num * Nat.pow 10 shift.toNat) (den * Nat.pow 10 (-shift).toNat)
    if Nat.pow 10 (places + 1) ≤ digits then (digits / 10, e + 1) else (digits, e)

/-- An exponent with its sign and at least two digits. -/
def exponent (e : Int) : List Char :=
  let digits := Numeral.ofNat e.natAbs
  'e' :: (if e < 0 then '-' else '+') :: (List.replicate (2 - digits.length) '0' ++ digits)

def scientific (keepPoint : Bool) (places num den : Nat) : List Char :=
  let (digits, e) := scientificParts places num den
  let ds := Numeral.ofNat digits
  let ds := ds ++ List.replicate (places + 1 - ds.length) '0'
  ds.take 1 ++ fraction keepPoint (ds.drop 1) ++ exponent e

/-- A text without the zeros at the end of its fraction. -/
def dropZeros (cs : List Char) : List Char :=
  if cs.contains '.' then
    match cs.reverse.dropWhile (· == '0') with
    | '.' :: rest => rest.reverse
    | rest => rest.reverse
  else cs

/-- A quotient with a number of significant digits, by exponent if it is far from one. -/
def general (keepZeros : Bool) (digits num den : Nat) : List Char :=
  let digits := max 1 digits
  let (_, e) := scientificParts (digits - 1) num den
  let trimmed (cs : List Char) : List Char := if keepZeros then cs else dropZeros cs
  if -4 ≤ e && e < digits then
    trimmed (fixed keepZeros ((digits : Int) - 1 - e).toNat num den)
  else
    let cs := scientific keepZeros (digits - 1) num den
    let (mantissa, tail) := cs.span (· != 'e')
    trimmed mantissa ++ tail

/-- A number by the letter of a slot: `f`, `e` or `g`. -/
def Style.number (s : Style) (letter : Char) (upper : Bool) (x : Double) : List Char :=
  let (num, den) := quotient x
  let places := s.precision.getD 6
  let body :=
    if x.isNaN then "nan".toList
    else if x.isInfinite then "inf".toList
    else if letter == 'f' then fixed s.alternate places num den
    else if letter == 'e' then scientific s.alternate places num den
    else general s.alternate places num den
  s.fit true (s.sign (x.negative && !x.isNaN)) (if upper then body.map Char.toUpper else body)

/-! ## Slots -/

/-- A value as an integer; a number loses its fraction. -/
def asInteger : Json → Except Fault Int
  | .float x =>
    if x.isNaN then .error (.badValue "cannot convert float NaN to integer")
    else if x.isInfinite then .error .numberTooLarge
    else
      let (num, den) := quotient x
      .ok (if x.negative then -((num / den : Nat) : Int) else (num / den : Nat))
  | v => asWhole v
where
  asWhole : Json → Except Fault Int
    | .int n => .ok n
    | .bool b => .ok (if b then 1 else 0)
    | _ => .error .wrongKind

def asDouble (v : Json) : Except Fault Double :=
  match v.operand with
  | .ok x => .ok x
  | .error e => .error (.ofUnreadable e)

/-- A value as one character: a text of length one, or a code point. -/
def asChar : Json → Except Fault Char
  | .str s =>
    match s.toList with
    | [c] => .ok c
    | _ => .error .wrongKind
  | v =>
    match asInteger.asWhole v with
    | .ok n => if 0 ≤ n && n < 0x110000 then .ok (Char.ofNat n.toNat) else .error .numberTooLarge
    | .error fault => .error fault

/-- A text with escapes for all characters outside ASCII. -/
def escaped (cs : List Char) : List Char := cs.flatMap fun c =>
  let n := c.toNat
  if n < 0x80 then [c]
  else if n < 0x100 then '\\' :: 'x' :: hexDigits 2 n
  else if n < 0x10000 then '\\' :: 'u' :: hexDigits 4 n
  else '\\' :: 'U' :: hexDigits 8 n

/-- The fault of a letter that no slot has, at its place in the template. -/
def unknownLetter (letter : Char) (place : Nat) : Fault :=
  .badValue ("unsupported format character '" ++ String.ofList [letter] ++ "' (0x" ++
    String.ofList (Nat.toDigits 16 letter.toNat) ++ ") at index " ++ toString place)

/-- A value written by the letter of its slot, which stands at `place`. -/
def Style.write (s : Style) (letter : Char) (place : Nat) (v : Json) : Except Fault (List Char) :=
  match letter with
  | 's' => .ok (s.word (bare v).toList)
  | 'r' => .ok (s.word (shownChars v))
  | 'a' => .ok (s.word (escaped (shownChars v)))
  | 'c' => (asChar v).map fun c => s.fit false [] [c]
  | 'd' => (asInteger v).map (s.integer 10 [] false)
  | 'i' => (asInteger v).map (s.integer 10 [] false)
  | 'u' => (asInteger v).map (s.integer 10 [] false)
  | 'o' => (asInteger.asWhole v).map (s.integer 8 ['0', 'o'] false)
  | 'x' => (asInteger.asWhole v).map (s.integer 16 ['0', 'x'] false)
  | 'X' => (asInteger.asWhole v).map (s.integer 16 ['0', 'X'] true)
  | 'f' => (asDouble v).map (s.number 'f' false)
  | 'F' => (asDouble v).map (s.number 'f' true)
  | 'e' => (asDouble v).map (s.number 'e' false)
  | 'E' => (asDouble v).map (s.number 'e' true)
  | 'g' => (asDouble v).map (s.number 'g' false)
  | 'G' => (asDouble v).map (s.number 'g' true)
  | letter => .error (unknownLetter letter place)

/-! ## Filling -/

/-- The arguments that are left, and those that slots can name. -/
structure Arguments where
  left : List Json
  named : Option Json.Members

namespace Arguments

/-- The arguments of a list; a single object with members can be named from. -/
def ofList : List Json → Arguments
  | [.obj (m :: ms)] => ⟨[.obj (m :: ms)], some (m :: ms)⟩
  | args => ⟨args, none⟩

def next (a : Arguments) : Except Fault (Json × Arguments) :=
  match a.left with
  | [] => .error .wrongKind
  | v :: rest => .ok (v, { a with left := rest })

/-- The argument of a slot, by its name if it has one. -/
def take (a : Arguments) : Option String → Except Fault (Json × Arguments)
  | none => a.next
  | some name =>
    match a.named with
    | none => .error .wrongKind
    | some members =>
      match Json.find? name members with
      | some v => .ok (v, a)
      | none => .error (.missingMember name)

end Arguments

/-- A number in a slot, which may be an argument. -/
def count? (cs : List Char) (a : Arguments) : Except Fault (Option Int × List Char × Arguments) :=
  match cs with
  | '*' :: rest => do
    let (v, a) ← a.next
    match v with
    | .int n => return (some n, rest, a)
    | _ => throw .wrongKind
  | cs =>
    match Numeral.digits cs with
    | ([], _) => .ok (none, cs, a)
    | (ds, rest) => .ok (some (Numeral.value ds), rest, a)

/-- The name of a slot, which stands in brackets. -/
def name? : List Char → Except Fault (Option String × List Char)
  | '(' :: rest =>
    match rest.span (· != ')') with
    | (name, ')' :: rest) => .ok (some (String.ofList name), rest)
    | _ => .error (.badValue "incomplete format key")
  | cs => .ok (none, cs)

/-- Fills the slot at the front, behind its percent sign. -/
def slot (total : Nat) (cs : List Char) (a : Arguments) :
    Except Fault (List Char × List Char × Arguments) := do
  let (name, cs) ← name? cs
  let (flags, cs) := cs.span fun c => c == '-' || c == '+' || c == ' ' || c == '#' || c == '0'
  let (width, cs, a) ← count? cs a
  let (precision, cs, a) ←
    match cs with
    | '.' :: rest => do
      let (n, rest, a) ← count? rest a
      pure (some (n.getD 0).toNat, rest, a)
    | cs => pure (none, cs, a)
  let cs :=
    match cs with
    | c :: rest => if c == 'h' || c == 'l' || c == 'L' then rest else cs
    | [] => []
  let width := width.getD 0
  let style : Style := {
    alternate := flags.contains '#'
    zeros := flags.contains '0'
    left := flags.contains '-' || width < 0
    blank := flags.contains ' '
    plus := flags.contains '+'
    width := width.natAbs
    precision := precision }
  match cs with
  | [] => throw (.badValue "incomplete format")
  | letter :: rest =>
    let (v, a) ← a.take name
    return (← style.write letter (total - rest.length - 1) v, rest, a)

/-- Fills the slots of what is left of a template of length `total`, which `steps` bounds. -/
def fillFrom (total : Nat) : Nat → List Char → Arguments → Except Fault (List Char)
  | _, [], a => if a.left.isEmpty || a.named.isSome then .ok [] else .error .wrongKind
  | 0, _ :: _, _ => .ok []
  | steps + 1, '%' :: '%' :: rest, a => do
    return '%' :: (← fillFrom total steps rest a)
  | steps + 1, '%' :: rest, a => do
    let (written, rest, a) ← slot total rest a
    return written ++ (← fillFrom total steps rest a)
  | steps + 1, c :: rest, a => do
    return c :: (← fillFrom total steps rest a)

def fill (template : String) (args : List Json) : Except Fault String :=
  let cs := template.toList
  (fillFrom cs.length cs.length cs (.ofList args)).map String.ofList

end RuleCanvas.Text.Template
