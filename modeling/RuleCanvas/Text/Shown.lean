import RuleCanvas.Json.Printer
import RuleCanvas.Text.Printable

/-! # Shown values

Messages show a value in a form of their own: text in quotes with escapes for the characters that
have no visible form, capitalised `True`, `False` and `None`, numbers as they are written in a plain
text. `shown` puts quotes around a text, `bare` gives a text as it is.
-/

namespace RuleCanvas.Text

/-- The `count` lowest hexadecimal digits of `n`. -/
def hexDigits (count n : Nat) : List Char :=
  (List.range count).reverse.map fun i => Json.hexDigit (n / Nat.pow 16 i)

def shownChar (quote c : Char) : List Char :=
  if c = quote || c = '\\' then ['\\', c]
  else if c = '\t' then ['\\', 't']
  else if c = '\n' then ['\\', 'n']
  else if c = '\r' then ['\\', 'r']
  else if isPrintable c then [c]
  else
    let n := c.toNat
    if n < 0x100 then '\\' :: 'x' :: hexDigits 2 n
    else if n < 0x10000 then '\\' :: 'u' :: hexDigits 4 n
    else '\\' :: 'U' :: hexDigits 8 n

/-- A text in single quotes, or in double quotes if it holds a single quote and no double one. -/
def quoted (s : String) : List Char :=
  let cs := s.toList
  let quote := if cs.contains '\'' && !cs.contains '"' then '"' else '\''
  quote :: (cs.flatMap (shownChar quote) ++ [quote])

/-- Parts with a comma and a space between them. -/
def commaList : List (List Char) → List Char
  | [] => []
  | [part] => part
  | part :: rest => part ++ ',' :: ' ' :: commaList rest

mutual

def shownChars : Json → List Char
  | .null => "None".toList
  | .bool true => "True".toList
  | .bool false => "False".toList
  | .int n => Numeral.ofInt n
  | .float x => DecimalStyle.plain.write x
  | .str s => quoted s
  | .arr items => '[' :: (commaList (shownItems items) ++ [']'])
  | .obj members => '\x7b' :: (commaList (shownMembers members) ++ ['\x7d'])

def shownItems : List Json → List (List Char)
  | [] => []
  | x :: xs => shownChars x :: shownItems xs

def shownMembers : List (String × Json) → List (List Char)
  | [] => []
  | (name, x) :: ms => (quoted name ++ ':' :: ' ' :: shownChars x) :: shownMembers ms

end

def shown (v : Json) : String := String.ofList (shownChars v)

/-- The shown form of a value, a text without quotes. -/
def bare : Json → String
  | .str s => s
  | v => shown v

/-- The shown form of a fixed row of values; a row of one keeps its comma. -/
def shownRow : List Json → String
  | [v] => String.ofList ('(' :: (shownChars v ++ [',', ')']))
  | items => String.ofList ('(' :: (commaList (shownItems items) ++ [')']))

end RuleCanvas.Text
