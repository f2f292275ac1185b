import RuleCanvas.Json.Basic

/-! # Reading JSON text

`Json.parse` reads one value with nothing but blanks around it, or gives the place where the text
goes wrong. Beside the standard grammar it takes the names `NaN`, `Infinity` and `-Infinity` as
numbers. A number with a fraction or an exponent is a binary64 number, any other an integer. A name
that is repeated in an object keeps its first place and its last value. An escaped half of a
surrogate pair that stands alone is read as the replacement character.
-/

namespace RuleCanvas.Json

namespace Parser

/-- A part that was read and what follows it, or what is left of the text where it goes wrong. -/
abbrev Step (β : Type) := Except (List Char) (β × List Char)

def skipBlanks : List Char → List Char :=
  List.dropWhile fun c => c == ' ' || c == '\n' || c == '\t' || c == '\r'

def hexValue? (c : Char) : Option Nat :=
  if c.isDigit then some (c.toNat - '0'.toNat)
  else if 'a' ≤ c && c ≤ 'f' then some (c.toNat - 'a'.toNat + 10)
  else if 'A' ≤ c && c ≤ 'F' then some (c.toNat - 'A'.toNat + 10)
  else none

/-- Four hexadecimal digits, which are not the end of the text. -/
def unit? : List Char → Option (Nat × List Char)
  | a :: b :: c :: d :: e :: rest => do
    let a ← hexValue? a
    let b ← hexValue? b
    let c ← hexValue? c
    let d ← hexValue? d
    return (((a * 16 + b) * 16 + c) * 16 + d, e :: rest)
  | _ => none

def replacement : Char := '\ufffd'

/-- The character of a code unit that is no half of a pair. -/
def unitChar (n : Nat) : Char :=
  if 0xd800 ≤ n && n < 0xe000 then replacement else Char.ofNat n

/-- The character of an escaped unit; `rest` is what follows it, perhaps the
other half of a pair. -/
def pairChar (unit : Nat) (rest : List Char) : Step Char :=
  if 0xd800 ≤ unit && unit < 0xdc00 then
    match rest with
    | '\\' :: 'u' :: more =>
      match unit? more with
      | none => .error ('u' :: more)
      | some (low, after) =>
        if 0xdc00 ≤ low && low < 0xe000 then
          .ok (Char.ofNat (0x10000 + (unit - 0xd800) * 0x400 + (low - 0xdc00)), after)
        else .ok (replacement, rest)
    | _ => .ok (replacement, rest)
  else .ok (unitChar unit, rest)

/-- The character that an escape stands for; `cs` follows the backslash. -/
def escape (cs : List Char) : Step Char :=
  match cs with
  | '"' :: rest => .ok ('"', rest)
  | '\\' :: rest => .ok ('\\', rest)
  | '/' :: rest => .ok ('/', rest)
  | 'b' :: rest => .ok ('\x08', rest)
  | 'f' :: rest => .ok ('\x0c', rest)
  | 'n' :: rest => .ok ('\n', rest)
  | 'r' :: rest => .ok ('\r', rest)
  | 't' :: rest => .ok ('\t', rest)
  | 'u' :: rest =>
    match unit? rest with
    | some (unit, rest) => pairChar unit rest
    | none => .error ('u' :: rest)
  | cs => .error ('\\' :: cs)

/-- The rest of a string from inside it on, after the reversed characters `acc`. A string without an
end goes wrong at its opening quote, where `opening` begins. -/
def string (opening : List Char) (fuel : Nat) (acc : List Char) (cs : List Char) : Step String :=
  match fuel, cs with
  | _, [] => .error opening
  | _, ['\\'] => .error opening
  | 0, cs => .error cs
  | _ + 1, '"' :: rest => .ok (String.ofList acc.reverse, rest)
  | fuel + 1, '\\' :: rest =>
    match escape rest with
    | .ok (c, rest) => string opening fuel (c :: acc) rest
    | .error left => .error left
  | fuel + 1, c :: rest =>
    if c.toNat < 32 then .error (c :: rest) else string opening fuel (c :: acc) rest

def number (cs : List Char) : Step Json :=
  let (negative, body) :=
    match cs with
    | '-' :: rest => (true, rest)
    | rest => (false, rest)
  let (whole, rest) :=
    match body with
    | '0' :: rest => (['0'], rest)
    | rest => Numeral.digits rest
  if whole.isEmpty then .error cs
  else
    let (fraction, afterFraction) :=
      match rest with
      | '.' :: more =>
        match Numeral.digits more with
        | ([], _) => ([], rest)
        | found => found
      | _ => ([], rest)
    let (exponent, afterExponent) :=
      match afterFraction with
      | e :: more =>
        if e == 'e' || e == 'E' then
          let (below, more) := Numeral.sign more
          match Numeral.digits more with
          | ([], _) => (none, afterFraction)
          | (ds, more) =>
            let n : Int := Numeral.value ds
            (some (if below then -n else n), more)
        else (none, afterFraction)
      | [] => (none, afterFraction)
    if fraction.isEmpty && exponent.isNone then
      let n : Int := Numeral.value whole
      .ok (int (if negative then -n else n), rest)
    else
      let digits := Numeral.value (whole ++ fraction)
      .ok (float (Double.ofDecimal negative digits (exponent.getD 0 - fraction.length)),
        afterExponent)

/-- What follows `word` at the front of `cs`. -/
def word? (word : String) (cs : List Char) : Option (List Char) :=
  if word.toList.isPrefixOf cs then some (cs.drop word.length) else none

mutual

def value (fuel : Nat) (cs : List Char) : Step Json :=
  match fuel with
  | 0 => .error cs
  | fuel + 1 =>
    match cs with
    | '"' :: rest => (string cs rest.length [] rest).map fun (s, rest) => (str s, rest)
    | '\x7b' :: rest =>
      match skipBlanks rest with
      | '\x7d' :: rest => .ok (obj [], rest)
      | rest => members fuel [] rest
    | '[' :: rest =>
      match skipBlanks rest with
      | ']' :: rest => .ok (arr [], rest)
      | rest => items fuel [] rest
    | cs =>
      let words : List (String × Json) :=
        [("null", null), ("true", bool true), ("false", bool false),
          ("NaN", float Double.nan), ("Infinity", float (Double.infinity false)),
          ("-Infinity", float (Double.infinity true))]
      match words.findSome? fun (w, v) => (word? w cs).map fun rest => (v, rest) with
      | some found => .ok found
      | none => number cs

/-- The items of a list from the one at the front on; `acc` holds those before it, reversed. -/
def items (fuel : Nat) (acc : List Json) (cs : List Char) : Step Json :=
  match fuel with
  | 0 => .error cs
  | fuel + 1 =>
    match value fuel cs with
    | .error left => .error left
    | .ok (v, rest) =>
      match skipBlanks rest with
      | ']' :: rest => .ok (arr (v :: acc).reverse, rest)
      | ',' :: rest => items fuel (v :: acc) (skipBlanks rest)
      | left => .error left

/-- The members of an object from the one at the front on, after those of `acc`. -/
def members (fuel : Nat) (acc : Members) (cs : List Char) : Step Json :=
  match fuel with
  | 0 => .error cs
  | fuel + 1 =>
    match cs with
    | '"' :: rest =>
      match string cs rest.length [] rest with
      | .error left => .error left
      | .ok (name, rest) =>
        match skipBlanks rest with
        | ':' :: rest =>
          match value fuel (skipBlanks rest) with
          | .error left => .error left
          | .ok (v, rest) =>
            let acc := put name v acc
            match skipBlanks rest with
            | '\x7d' :: rest => .ok (obj acc, rest)
            | ',' :: rest => members fuel acc (skipBlanks rest)
            | left => .error left
        | left => .error left
    | left => .error left

end

end Parser

/-- The value that a text spells, or the number of characters in front of the place where it goes
wrong. -/
def parse (text : String) : Except Nat Json :=
  let cs := text.toList
  let wrong (left : List Char) : Except Nat Json := .error (cs.length - left.length)
  match Parser.value (2 * cs.length + 2) (Parser.skipBlanks cs) with
  | .error left => wrong left
  | .ok (v, rest) =>
    match Parser.skipBlanks rest with
    | [] => .ok v
    | left => wrong left

/-- The value that a text spells, `none` if it spells none. -/
def parse? (text : String) : Option Json :=
  match parse text with
  | .ok v => some v
  | .error _ => none

end RuleCanvas.Json
