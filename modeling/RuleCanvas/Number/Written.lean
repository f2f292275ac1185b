import RuleCanvas.Number.Shortest

/-! # Written numbers

How a number is written in decimal, and how one is read. `DecimalStyle` holds the choices of a
written form: which magnitudes are positional, how an exponent looks, the names of the values that
have no digits. Reading accepts an optional sign, digits with an optional point and exponent, and
the names `inf`, `infinity` and `nan` in any case.
-/

namespace RuleCanvas

/-- The decimal digits of a natural number, most significant first. -/
def Numeral.ofNat (n : Nat) : List Char := Nat.toDigits 10 n

def Numeral.ofInt (n : Int) : List Char :=
  if n < 0 then '-' :: Numeral.ofNat n.natAbs else Numeral.ofNat n.natAbs

/-- The choices of a written form of numbers. A magnitude is positional when its point stands after
more than `positionalAbove` and at most `positionalUpTo` of its digits. -/
structure DecimalStyle where
  positionalAbove : Int
  positionalUpTo : Int
  /-- The least number of exponent digits. -/
  exponentWidth : Nat
  infinityName : String
  nanName : String

namespace DecimalStyle

/-- Positional from `0.0001` up to below `10 ^ 16`, always with a point or an exponent. -/
def plain : DecimalStyle := ⟨-4, 16, 2, "inf", "nan"⟩

/-- The same digits with the names that rule documents use. -/
def document : DecimalStyle := { plain with infinityName := "Infinity", nanName := "NaN" }

/-- The written form of the digits `ds` with the point after the first `point` of them. -/
def layOut (style : DecimalStyle) (ds : List Char) (point : Int) : List Char :=
  if style.positionalAbove < point && point ≤ style.positionalUpTo then
    if point ≤ 0 then '0' :: '.' :: (List.replicate (-point).toNat '0' ++ ds)
    else if (ds.length : Int) ≤ point then
      ds ++ List.replicate (point.toNat - ds.length) '0' ++ ['.', '0']
    else ds.take point.toNat ++ '.' :: ds.drop point.toNat
  else
    let e := point - 1
    let digits := Numeral.ofNat e.natAbs
    let mantissa :=
      match ds with
      | d :: rest@(_ :: _) => d :: '.' :: rest
      | short => short
    mantissa ++ 'e' :: (if e < 0 then '-' else '+') ::
      (List.replicate (style.exponentWidth - digits.length) '0' ++ digits)

def write (style : DecimalStyle) (x : Double) : List Char :=
  if x.isNaN then style.nanName.toList
  else
    let sign := if x.negative then ['-'] else []
    if x.isInfinite then sign ++ style.infinityName.toList
    else
      let c := x.shortest
      let ds := Numeral.ofNat c.digits
      let point := if c.digits = 0 then 1 else (ds.length : Int) + c.exponent
      sign ++ style.layOut ds point

end DecimalStyle

/-! ## Reading -/

namespace Numeral

def value (ds : List Char) : Nat :=
  ds.foldl (fun n c => n * 10 + (c.toNat - '0'.toNat)) 0

def sign : List Char → Bool × List Char
  | '-' :: rest => (true, rest)
  | '+' :: rest => (false, rest)
  | cs => (false, cs)

def digits (cs : List Char) : List Char × List Char := cs.span Char.isDigit

/-- The decimal exponent that `cs` consists of, `0` where it is empty. -/
def exponent? : List Char → Option Int
  | [] => some 0
  | c :: rest =>
    if c == 'e' || c == 'E' then
      let (negative, rest) := sign rest
      match digits rest with
      | (ds@(_ :: _), []) => some (if negative then -(value ds : Int) else value ds)
      | _ => none
    else none

/-- The number that all of `cs` spells: digits with an optional point and exponent, at least one
digit beside the point. -/
def unsigned? (negative : Bool) (cs : List Char) : Option Double :=
  let name := cs.map Char.toLower
  if name == "inf".toList || name == "infinity".toList then some (Double.infinity negative)
  else if name == "nan".toList then some Double.nan
  else
    let (whole, rest) := digits cs
    let (fraction, rest) :=
      match rest with
      | '.' :: rest => digits rest
      | rest => ([], rest)
    if whole.isEmpty && fraction.isEmpty then none
    else (exponent? rest).map fun e =>
      Double.ofDecimal negative (value (whole ++ fraction)) (e - fraction.length)

/-- The number that all of `cs` spells, with an optional sign. -/
def double? (cs : List Char) : Option Double :=
  let (negative, rest) := sign cs
  unsigned? negative rest

end Numeral

end RuleCanvas
