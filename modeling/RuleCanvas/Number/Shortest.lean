import RuleCanvas.Number.Double

/-! # The fewest digits that read back

`Double.shortest` answers with a decimal `digits * 10 ^ exponent` that rounds to the given number
and has as few digits as any such decimal; of two that have as few, the nearer. For a fixed number
of digits only the two neighbours of the value on that decimal grid need a test, because the values
that round to a number form an interval around it.
-/

namespace RuleCanvas.Double

/-- A decimal magnitude `digits * 10 ^ exponent`. -/
structure Decimal where
  digits : Nat
  exponent : Int
  deriving DecidableEq, Repr

/-- The same value without trailing zero digits. -/
def Decimal.strip (c : Decimal) : Decimal :=
  if c.digits ≠ 0 ∧ c.digits % 10 = 0 then strip ⟨c.digits / 10, c.exponent + 1⟩ else c
termination_by c.digits
decreasing_by omega

/-- The exponent of the leading decimal digit of the positive quotient `num / den`. -/
def leadingExponent (num den : Nat) : Int :=
  let guess : Int := ((num.log2 : Int) - den.log2) * 30103 / 100000
  let atLeast (e : Int) : Bool := Nat.pow 10 e.toNat * den ≤ num * Nat.pow 10 (-e).toNat
  if atLeast (guess + 1) then guess + 1
  else if atLeast guess then guess
  else guess - 1

/-- The value of a finite number as a quotient of naturals. -/
def quotient (x : Double) : Nat × Nat :=
  let (m, q) := x.magnitude
  (m * Nat.pow 2 q.toNat, Nat.pow 2 (-q).toNat)

/-- The neighbours of `num / den` among the multiples of `10 ^ unit`, the nearer first, an exact tie
to the even one. -/
def neighbours (num den : Nat) (unit : Int) : List Decimal :=
  let n := num * Nat.pow 10 (-unit).toNat
  let d := den * Nat.pow 10 unit.toNat
  let floor := n / d
  let near := roundDiv n d
  [⟨near, unit⟩, ⟨if near = floor then floor + 1 else floor, unit⟩]

/-- Whether the decimal, with the sign of `x`, is read as `x`. -/
def readsAs (x : Double) (c : Decimal) : Bool :=
  ofDecimal x.negative c.digits c.exponent == x

/-- The exact decimal expansion, which every binary fraction has. -/
def exactDecimal (x : Double) : Decimal :=
  let (m, q) := x.magnitude
  ⟨m * Nat.pow 2 q.toNat * Nat.pow 5 (-q).toNat, min q 0⟩

/-- A decimal of fewest digits that reads back as the finite number `x`. Seventeen digits suffice
for every number; the exact expansion stands behind them. -/
def shortest (x : Double) : Decimal :=
  let (num, den) := x.quotient
  if num = 0 then ⟨0, 0⟩
  else
    let lead := leadingExponent num den
    let found := (List.range 17).findSome? fun (k : Nat) =>
      (neighbours num den (lead - k)).find? x.readsAs
    (found.getD x.exactDecimal).strip

end RuleCanvas.Double
