import RuleCanvas.Digest.Sha256
import RuleCanvas.Json.Basic

/-! # JSON text

A `Layout` says how a value is spaced and whether characters outside ASCII are escaped. Strings
escape the quote, the backslash and the control characters; numbers are written so that a
binary64 number always shows a point or an exponent and an integer never does.

Two values that differ only in the order of object members have the same canonical text: the members
of every object are written in the order of their names by code point. The order of lists and the
kinds of numbers are kept. The fingerprint of a value is the digest of its canonical text.
-/

namespace RuleCanvas.Json

structure Layout where
  /-- Between two items on one line. -/
  comma : String
  colon : String
  /-- Spaces per level, where every item has a line of its own. -/
  indent : Option Nat
  asciiOnly : Bool

namespace Layout

/-- No spaces; characters stand for themselves. -/
def compact : Layout := ⟨",", ":", none, false⟩

/-- A line per item, two spaces per level. -/
def pretty : Layout := ⟨",", ": ", some 2, false⟩

/-- One line with a space after each separator, in ASCII. -/
def spaced : Layout := ⟨", ", ": ", none, true⟩

end Layout

/-- A digit of a base up to sixteen, in lower case. -/
def hexDigit (n : Nat) : Char := Nat.digitChar (n % 16)

def unitEscape (n : Nat) : List Char :=
  ['\\', 'u', hexDigit (n / 4096), hexDigit (n / 256), hexDigit (n / 16), hexDigit n]

/-- The text of one character inside a string. -/
def charText (asciiOnly : Bool) (c : Char) : List Char :=
  if c = '"' then ['\\', '"']
  else if c = '\\' then ['\\', '\\']
  else if c = '\n' then ['\\', 'n']
  else if c = '\r' then ['\\', 'r']
  else if c = '\t' then ['\\', 't']
  else if c = '\x08' then ['\\', 'b']
  else if c = '\x0c' then ['\\', 'f']
  else
    let n := c.toNat
    if n < 32 then unitEscape n
    else if asciiOnly && 126 < n then
      if n < 0x10000 then unitEscape n
      else unitEscape (0xd800 + (n - 0x10000) / 0x400) ++ unitEscape (0xdc00 + n % 0x400)
    else [c]

def stringText (asciiOnly : Bool) (s : String) : List Char :=
  '"' :: (s.toList.flatMap (charText asciiOnly) ++ ['"'])

/-- The text between items, and before the first, at nesting level `level`. -/
def lineBreak (layout : Layout) (level : Nat) : List Char :=
  match layout.indent with
  | none => []
  | some width => '\n' :: List.replicate (width * level) ' '

mutual

/-- The text of a value at nesting level `level`, followed by `rest`. -/
def chars (layout : Layout) (level : Nat) (v : Json) (rest : List Char) : List Char :=
  match v with
  | null => "null".toList ++ rest
  | bool true => "true".toList ++ rest
  | bool false => "false".toList ++ rest
  | int n => Numeral.ofInt n ++ rest
  | float x => DecimalStyle.document.write x ++ rest
  | str s => stringText layout.asciiOnly s ++ rest
  | arr [] => '[' :: ']' :: rest
  | arr (x :: xs) =>
    '[' :: (lineBreak layout (level + 1) ++ chars layout (level + 1) x
      (itemChars layout (level + 1) xs (lineBreak layout level ++ ']' :: rest)))
  | obj [] => '\x7b' :: '\x7d' :: rest
  | obj ((name, x) :: ms) =>
    '\x7b' :: (lineBreak layout (level + 1) ++ stringText layout.asciiOnly name ++
      layout.colon.toList ++ chars layout (level + 1) x
      (memberChars layout (level + 1) ms (lineBreak layout level ++ '\x7d' :: rest)))

def itemChars (layout : Layout) (level : Nat) (items : List Json) (rest : List Char) : List Char :=
  match items with
  | [] => rest
  | x :: xs =>
    layout.comma.toList ++ lineBreak layout level ++
      chars layout level x (itemChars layout level xs rest)

def memberChars (layout : Layout) (level : Nat) (members : List (String × Json))
    (rest : List Char) : List Char :=
  match members with
  | [] => rest
  | (name, x) :: ms =>
    layout.comma.toList ++ lineBreak layout level ++ stringText layout.asciiOnly name ++
      layout.colon.toList ++ chars layout level x (memberChars layout level ms rest)

end

def render (layout : Layout) (v : Json) : String := String.ofList (chars layout 0 v [])

/-! ## Canonical text -/

def sortMembers (members : Members) : Members :=
  members.mergeSort fun m n => decide (m.1 ≤ n.1)

mutual

/-- The value with the members of every object sorted. -/
def canonical : Json → Json
  | arr items => arr (canonicalItems items)
  | obj members => obj (sortMembers (canonicalMembers members))
  | v => v

def canonicalItems : List Json → List Json
  | [] => []
  | x :: xs => canonical x :: canonicalItems xs

def canonicalMembers : List (String × Json) → List (String × Json)
  | [] => []
  | (name, x) :: ms => (name, canonical x) :: canonicalMembers ms

end

/-- The canonical text, without blanks. -/
def canonicalText (v : Json) : String := v.canonical.render Layout.compact

def prettyText (v : Json) : String := v.canonical.render Layout.pretty

/-- The digest of the canonical text, in hexadecimal. -/
def fingerprint (v : Json) : String := Digest.hex (Digest.sha256 v.canonicalText.toUTF8.toList)

end RuleCanvas.Json
