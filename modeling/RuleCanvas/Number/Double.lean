/-! # Binary64 numbers

A `Double` is the 64 bits of an IEEE binary64 number. Keeping the bits makes equality decidable and
keeps `0.0` and `-0.0` apart; the arithmetic goes through `Float`. A finite number has magnitude
`m * 2 ^ q` for the natural `m` and the integer `q` of `Double.magnitude`, and `Double.nearest` is
the rounding of an exact quotient to the nearest number, ties to the even significand.
-/

namespace RuleCanvas

structure Double where
  bits : UInt64
  deriving DecidableEq, Inhabited, Repr

namespace Double

def ofFloat (f : Float) : Double := ⟨f.toBits⟩

def toFloat (x : Double) : Float := Float.ofBits x.bits

/-- The sign bit, which zeros and infinities have too. -/
def negative (x : Double) : Bool := x.bits.toNat / Nat.pow 2 63 == 1

def exponentField (x : Double) : Nat := x.bits.toNat / Nat.pow 2 52 % 2048

def fractionField (x : Double) : Nat := x.bits.toNat % Nat.pow 2 52

def isNaN (x : Double) : Bool := x.exponentField == 2047 && x.fractionField != 0

def isInfinite (x : Double) : Bool := x.exponentField == 2047 && x.fractionField == 0

def isFinite (x : Double) : Bool := x.exponentField != 2047

/-- The magnitude of a finite number as `(m, q)`, meaning `m * 2 ^ q`. -/
def magnitude (x : Double) : Nat × Int :=
  if x.exponentField = 0 then (x.fractionField, -1074)
  else (x.fractionField + Nat.pow 2 52, (x.exponentField : Int) - 1075)

/-- The number with the given sign and magnitude field (exponent and fraction together). -/
def ofFields (negative : Bool) (field : Nat) : Double :=
  ⟨UInt64.ofNat ((if negative then Nat.pow 2 63 else 0) + field)⟩

def infinity (negative : Bool) : Double := ofFields negative (2047 * Nat.pow 2 52)

def nan : Double := ofFields false (2047 * Nat.pow 2 52 + Nat.pow 2 51)

def zero (negative : Bool) : Double := ofFields negative 0

/-- The quotient rounded to the nearest natural number, a tie to the even one. -/
def roundDiv (num den : Nat) : Nat :=
  let quotient := num / den
  let twice := 2 * (num % den)
  if twice < den then quotient
  else if den < twice then quotient + 1
  else quotient + quotient % 2

/-- The exponent of the unit in the last place for the positive quotient `num / den`. -/
def unitExponent (num den : Nat) : Int :=
  let guess : Int := (num.log2 : Int) - den.log2 - 52
  let below := num * Nat.pow 2 (-guess).toNat < Nat.pow 2 52 * (den * Nat.pow 2 guess.toNat)
  max (-1074) (if below then guess - 1 else guess)

/-- The number nearest to `num / den`, with the given sign; `den` is positive. From half a unit
beyond the largest finite number on, the answer is infinite. -/
def nearest (negative : Bool) (num den : Nat) : Double :=
  if num = 0 then zero negative
  else
    let q := unitExponent num den
    let m := roundDiv (num * Nat.pow 2 (-q).toNat) (den * Nat.pow 2 q.toNat)
    let field :=
      if m < Nat.pow 2 52 then m else (q + 1075).toNat * Nat.pow 2 52 + (m - Nat.pow 2 52)
    if 2047 * Nat.pow 2 52 ≤ field then infinity negative else ofFields negative field

/-- The number nearest to `digits * 10 ^ exponent`. Exponents far outside the range are answered
without computing the power. -/
def ofDecimal (negative : Bool) (digits : Nat) (exponent : Int) : Double :=
  let length : Int := digits.log2 / 3 + 1
  if digits = 0 then zero negative
  else if 400 < exponent then infinity negative
  else if exponent + length < -400 then zero negative
  else nearest negative (digits * Nat.pow 10 exponent.toNat) (Nat.pow 10 (-exponent).toNat)

/-- The number nearest to an integer, or `none` where that would be infinite. -/
def ofInt? (n : Int) : Option Double :=
  let x := nearest (n < 0) n.natAbs 1
  if x.isFinite then some x else none

/-- The integer that a number is equal to, if it is one. -/
def toInt? (x : Double) : Option Int :=
  if !x.isFinite then none
  else
    let (m, q) := x.magnitude
    let unit := Nat.pow 2 (-q).toNat
    if m % unit = 0 then
      let n : Int := (m / unit * Nat.pow 2 q.toNat : Nat)
      some (if x.negative then -n else n)
    else none

/-! ## Arithmetic and order -/

instance : Add Double := ⟨fun x y => ofFloat (x.toFloat + y.toFloat)⟩
instance : Sub Double := ⟨fun x y => ofFloat (x.toFloat - y.toFloat)⟩
instance : Mul Double := ⟨fun x y => ofFloat (x.toFloat * y.toFloat)⟩
instance : Div Double := ⟨fun x y => ofFloat (x.toFloat / y.toFloat)⟩
instance : Neg Double := ⟨fun x => ofFloat (-x.toFloat)⟩

/-- Order of values: nothing is below or above a NaN, and the two zeros are equal. -/
instance : LT Double := ⟨fun x y => x.toFloat < y.toFloat⟩
instance : LE Double := ⟨fun x y => x.toFloat ≤ y.toFloat⟩
instance (x y : Double) : Decidable (x < y) := inferInstanceAs (Decidable (x.toFloat < y.toFloat))
instance (x y : Double) : Decidable (x ≤ y) := inferInstanceAs (Decidable (x.toFloat ≤ y.toFloat))

/-- Equality of values, which differs from equality of bits at the zeros and at NaN. -/
def sameValue (x y : Double) : Bool := x.toFloat == y.toFloat

end Double

/-! ## Coordinates

Positions, the view and the layout are computed over any type of coordinates that has the four
operations, an order and the rational constants. The editor runs on binary64 numbers; exact
statements about geometry use rational ones. -/

/-- A type of coordinates. -/
class Scalar (α : Type) extends Add α, Sub α, Mul α, Div α, Neg α, LT α, LE α where
  ratio (num : Int) (den : Nat) : α
  isZero : α → Bool
  ltDecidable : ∀ a b : α, Decidable (a < b)
  leDecidable : ∀ a b : α, Decidable (a ≤ b)

namespace Scalar

variable {α : Type} [Scalar α]

instance (a b : α) : Decidable (a < b) := ltDecidable a b
instance (a b : α) : Decidable (a ≤ b) := leDecidable a b

def ofInt (n : Int) : α := ratio n 1

def abs (a : α) : α := if a < ofInt 0 then -a else a

/-- The larger of two, the first unless the second is above it. -/
def larger (a b : α) : α := if a < b then b else a

/-- The smaller of two, the first unless the second is below it. -/
def smaller (a b : α) : α := if b < a then b else a

end Scalar

instance : Scalar Double where
  ratio num den := Double.nearest (num < 0) num.natAbs den
  isZero x := x.sameValue (Double.zero false)
  ltDecidable := inferInstance
  leDecidable := inferInstance

/-- A position, in the world of the graph or on the screen. -/
structure Point (α : Type) where
  x : α
  y : α
  deriving DecidableEq, Repr

end RuleCanvas
