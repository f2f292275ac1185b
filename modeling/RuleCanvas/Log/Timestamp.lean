import RuleCanvas.Fault

/-! # Timestamps

A moment is a number of seconds since the first of January 1970, rounded to microseconds. It is
written as a date and a time of day in universal time.
-/

namespace RuleCanvas

/-- A moment, in seconds and microseconds since the first of January 1970. -/
structure Timestamp where
  seconds : Int
  micros : Nat

namespace Timestamp

/-- The product of a number and a million, rounded once to a number and then to an integer; a tie
goes to the even neighbour. -/
def toMicros (x : Double) : Nat :=
  let (m, q) := x.magnitude
  let scaled := Double.nearest false (m * Nat.pow 2 q.toNat * 1000000) (Nat.pow 2 (-q).toNat)
  let (m, q) := scaled.magnitude
  Double.roundDiv (m * Nat.pow 2 q.toNat) (Nat.pow 2 (-q).toNat)

def ofDouble (x : Double) : Timestamp :=
  let (m, q) := x.magnitude
  let unit := Nat.pow 2 (-q).toNat
  let whole := m * Nat.pow 2 q.toNat / unit
  let rest := m * Nat.pow 2 q.toNat % unit
  let micros := toMicros (Double.nearest false rest unit)
  if x.negative then
    if micros = 0 then ⟨-(whole : Int), 0⟩
    else if 1000000 ≤ micros then ⟨-(whole : Int) - 1, 0⟩
    else ⟨-(whole : Int) - 1, 1000000 - micros⟩
  else if 1000000 ≤ micros then ⟨whole + 1, 0⟩
  else ⟨whole, micros⟩

structure Date where
  year : Int
  month : Nat
  day : Nat

/-- The date of a day, by the days since the first of January 1970. Years are counted from March, so
that the leap day comes last, in cycles of four hundred years. -/
def dateOf (days : Int) : Date :=
  let shifted := days + 719468
  let cycle := Int.fdiv shifted 146097
  let dayOfCycle := (shifted - cycle * 146097).toNat
  let yearOfCycle :=
    (dayOfCycle - dayOfCycle / 1460 + dayOfCycle / 36524 - dayOfCycle / 146096) / 365
  let dayOfYear := dayOfCycle - (365 * yearOfCycle + yearOfCycle / 4 - yearOfCycle / 100)
  let monthFromMarch := (5 * dayOfYear + 2) / 153
  let day := dayOfYear - (153 * monthFromMarch + 2) / 5 + 1
  let month := if monthFromMarch < 10 then monthFromMarch + 3 else monthFromMarch - 9
  let year : Int := yearOfCycle + cycle * 400
  ⟨if month ≤ 2 then year + 1 else year, month, day⟩

def padded (width n : Nat) : List Char :=
  let digits := Numeral.ofNat n
  List.replicate (width - digits.length) '0' ++ digits

/-- The date and the time of day, with the microseconds where there are any. Only years from one to
9999 are written. -/
def write (t : Timestamp) : Except Fault String :=
  let days := Int.fdiv t.seconds 86400
  let second := (t.seconds - days * 86400).toNat
  let date := dateOf days
  if date.year < 1 ∨ 9999 < date.year then
    .error (.badValue ("year " ++ toString date.year ++ " is out of range"))
  else
    let micros := if t.micros = 0 then [] else '.' :: padded 6 t.micros
    .ok <| String.ofList <|
      padded 4 date.year.toNat ++ '-' :: padded 2 date.month ++ '-' :: padded 2 date.day ++
        'T' :: padded 2 (second / 3600) ++ ':' :: padded 2 (second / 60 % 60) ++
        ':' :: padded 2 (second % 60) ++ micros ++ "+00:00".toList

end Timestamp

end RuleCanvas
