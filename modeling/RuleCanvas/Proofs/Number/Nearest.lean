import Mathlib.Data.Int.Log
import Mathlib.Data.Rat.Floor
import Mathlib.Tactic.FieldSimp
import Mathlib.Tactic.Ring
import RuleCanvas.Number.Shortest

/-! # Rounding to the nearest number

The number nearest to a quotient depends on the quotient alone, however it is written: the unit in
the last place is a binary logarithm, and rounding is blind to a common factor. A quotient that is a
number is rounded to itself.
-/

namespace RuleCanvas.Double

/-! ## Rounding to a natural number -/

theorem roundDiv_mul_right (num den : Nat) {k : Nat} (hk : 0 < k) :
    roundDiv (num * k) (den * k) = roundDiv num den := by
  have htwice : 2 * (num % den * k) = 2 * (num % den) * k := (Nat.mul_assoc _ _ _).symm
  unfold roundDiv
  dsimp only
  rw [Nat.mul_div_mul_right _ _ hk, Nat.mul_mod_mul_right, htwice]
  simp only [Nat.mul_lt_mul_right hk]

/-- Equal quotients are rounded equally. -/
theorem roundDiv_congr {num den num' den' : Nat} (hden : 0 < den) (hden' : 0 < den')
    (heq : num * den' = num' * den) : roundDiv num den = roundDiv num' den' :=
  calc roundDiv num den = roundDiv (num * den') (den * den') :=
        (roundDiv_mul_right num den hden').symm
    _ = roundDiv (num' * den) (den' * den) := by rw [heq, Nat.mul_comm den den']
    _ = roundDiv num' den' := roundDiv_mul_right num' den' hden

theorem roundDiv_mul_self (m : Nat) {den : Nat} (hden : 0 < den) : roundDiv (m * den) den = m := by
  simp [roundDiv, Nat.mul_div_cancel _ hden, hden]

theorem div_le_roundDiv (num den : Nat) : num / den ≤ roundDiv num den := by
  unfold roundDiv
  dsimp only
  split
  · exact le_rfl
  · split <;> omega

theorem roundDiv_of_lt_half {num den : Nat} (hlt : 2 * num < den) : roundDiv num den = 0 := by
  have hdiv : num / den = 0 := Nat.div_eq_of_lt (by omega)
  have hmod : num % den = num := Nat.mod_eq_of_lt (by omega)
  unfold roundDiv
  dsimp only
  rw [hdiv, hmod, if_pos hlt]

theorem roundDiv_mul_pow_of_small {num den n : Nat} (hsmall : num * 2 ^ (n + 1) < den) :
    roundDiv (num * 2 ^ n) den = 0 := by
  rw [Nat.pow_succ', Nat.mul_left_comm] at hsmall
  exact roundDiv_of_lt_half hsmall

/-! ## The unit in the last place -/

/-- A power as the quotient by which it is computed. -/
theorem zpow_eq_div (b : Nat) (e : Int) :
    (b : ℚ) ^ e = ((b ^ e.toNat : Nat) : ℚ) / ((b ^ (-e).toNat : Nat) : ℚ) := by
  rcases Int.le_total 0 e with he | he
  · obtain ⟨n, rfl⟩ := Int.eq_ofNat_of_zero_le he
    simp
  · obtain ⟨n, hn⟩ := Int.eq_ofNat_of_zero_le (Int.neg_nonneg_of_nonpos he)
    obtain rfl : e = -n := by omega
    simp

theorem quotient_pos {num den : Nat} (hnum : 0 < num) (hden : 0 < den) : (0 : ℚ) < num / den :=
  div_pos (Nat.cast_pos.mpr hnum) (Nat.cast_pos.mpr hden)

/-- Whether a quotient is below a power of two, as it is computed. -/
theorem lt_two_zpow_iff {num den : Nat} (hden : 0 < den) (e : Int) :
    (num : ℚ) / den < 2 ^ e ↔ num * 2 ^ (-e).toNat < den * 2 ^ e.toNat := by
  have hpow : (2 : ℚ) ^ e = ((2 ^ e.toNat : Nat) : ℚ) / ((2 ^ (-e).toNat : Nat) : ℚ) :=
    zpow_eq_div 2 e
  have hden' : (0 : ℚ) < den := Nat.cast_pos.mpr hden
  have hunit : (0 : ℚ) < ((2 ^ (-e).toNat : Nat) : ℚ) := Nat.cast_pos.mpr (Nat.two_pow_pos _)
  rw [hpow, div_lt_div_iff₀ hden' hunit, mul_comm (((2 ^ e.toNat : Nat) : ℚ)) (den : ℚ)]
  exact_mod_cast Iff.rfl

/-- A quotient and the binary logarithms of its parts. -/
theorem two_zpow_le_quotient {num den : Nat} (hnum : 0 < num) (hden : 0 < den) :
    (2 : ℚ) ^ ((num.log2 : Int) - den.log2 - 1) ≤ num / den := by
  have hlow : (2 : ℚ) ^ num.log2 ≤ num := by
    exact_mod_cast Nat.log2_self_le (Nat.pos_iff_ne_zero.mp hnum)
  have hhigh : (den : ℚ) ≤ 2 ^ (den.log2 + 1) := by exact_mod_cast Nat.lt_log2_self.le
  have hsplit : (2 : ℚ) ^ ((num.log2 : Int) - den.log2 - 1) =
      2 ^ num.log2 / 2 ^ (den.log2 + 1) := by
    rw [sub_sub, zpow_sub₀ two_ne_zero, zpow_natCast]
    norm_cast
  rw [hsplit]
  exact div_le_div₀ (Nat.cast_nonneg _) hlow (Nat.cast_pos.mpr hden) hhigh

theorem quotient_lt_two_zpow (num : Nat) {den : Nat} (hden : 0 < den) :
    (num : ℚ) / den < 2 ^ ((num.log2 : Int) - den.log2 + 1) := by
  have hhigh : (num : ℚ) < 2 ^ (num.log2 + 1) := by exact_mod_cast Nat.lt_log2_self
  have hlow : (2 : ℚ) ^ den.log2 ≤ den := by
    exact_mod_cast Nat.log2_self_le (Nat.pos_iff_ne_zero.mp hden)
  have hsplit : (2 : ℚ) ^ ((num.log2 : Int) - den.log2 + 1) =
      2 ^ (num.log2 + 1) / 2 ^ den.log2 := by
    rw [sub_add_eq_add_sub, zpow_sub₀ two_ne_zero, zpow_natCast]
    norm_cast
  rw [hsplit]
  exact div_lt_div₀ hhigh hlow (by positivity) (by positivity)

/-- The unit in the last place is two to the binary logarithm less fifty-two, but for the least
numbers. -/
theorem unitExponent_eq {num den : Nat} (hnum : 0 < num) (hden : 0 < den) :
    unitExponent num den = max (-1074) (Int.log 2 ((num : ℚ) / den) - 52) := by
  have hpos : (0 : ℚ) < num / den := quotient_pos hnum hden
  have hlow : (num.log2 : Int) - den.log2 - 1 ≤ Int.log 2 ((num : ℚ) / den) :=
    (Int.zpow_le_iff_le_log (by decide) hpos).mp (two_zpow_le_quotient hnum hden)
  have hhigh : Int.log 2 ((num : ℚ) / den) < (num.log2 : Int) - den.log2 + 1 :=
    (Int.lt_zpow_iff_log_lt (by decide) hpos).mp (quotient_lt_two_zpow num hden)
  unfold unitExponent
  dsimp only
  simp only [Nat.pow_eq]
  generalize hguess : (num.log2 : Int) - den.log2 - 52 = guess
  -- The logarithm is one of two, and comparing the quotient with the guess tells which.
  have hbelow : num * 2 ^ (-guess).toNat < 2 ^ 52 * (den * 2 ^ guess.toNat) ↔
      Int.log 2 ((num : ℚ) / den) < guess + 52 := by
    have hscale : (num : ℚ) / ((2 ^ 52 * den : Nat) : ℚ) < 2 ^ guess ↔
        (num : ℚ) / den < ((2 : Nat) : ℚ) ^ (guess + 52) := by
      rw [Nat.cast_mul, mul_comm, ← div_div, div_lt_iff₀ (by positivity),
        zpow_add₀ (by norm_num)]
      norm_cast
    rw [← Nat.mul_assoc, ← lt_two_zpow_iff (by positivity) guess, hscale]
    exact Int.lt_zpow_iff_log_lt (by decide) hpos
  congr 1
  split
  next h =>
    have hlt := hbelow.mp h
    omega
  next h =>
    have hle := mt hbelow.mpr h
    omega

/-! ## The parts of the nearest number -/

/-- The quotient in units of the last place, rounded. -/
def significand (num den : Nat) : Nat :=
  roundDiv (num * 2 ^ (-unitExponent num den).toNat) (den * 2 ^ (unitExponent num den).toNat)

/-- The magnitude field of a significand with its unit. -/
def fieldOf (q : Int) (m : Nat) : Nat :=
  if m < 2 ^ 52 then m else (q + 1075).toNat * 2 ^ 52 + (m - 2 ^ 52)

/-- The number with a magnitude field, infinite from the first one that is too large. -/
def bounded (negative : Bool) (field : Nat) : Double :=
  if 2047 * 2 ^ 52 ≤ field then infinity negative else ofFields negative field

theorem nearest_eq (negative : Bool) (num : Nat) {den : Nat} (hden : 0 < den) :
    nearest negative num den =
      bounded negative (fieldOf (unitExponent num den) (significand num den)) := by
  rcases Nat.eq_zero_or_pos num with rfl | hnum
  · have hzero : significand 0 den = 0 := by
      rw [significand, Nat.zero_mul]
      exact roundDiv_of_lt_half (Nat.mul_pos hden (Nat.two_pow_pos _))
    rw [nearest, if_pos rfl, hzero]
    rfl
  · rw [nearest, if_neg hnum.ne']
    rfl

/-- Equal quotients have the same nearest number. -/
theorem nearest_congr (negative : Bool) {num den num' den' : Nat} (hden : 0 < den)
    (hden' : 0 < den') (hquotient : (num : ℚ) / den = num' / den') :
    nearest negative num den = nearest negative num' den' := by
  have hcross : num * den' = num' * den := by
    rw [div_eq_div_iff (by positivity) (by positivity)] at hquotient
    exact_mod_cast hquotient
  rcases Nat.eq_zero_or_pos num with rfl | hnum
  · have hnum' : num' = 0 := by
      rw [Nat.zero_mul] at hcross
      exact (Nat.mul_eq_zero.mp hcross.symm).resolve_right hden.ne'
    rw [hnum', nearest, nearest, if_pos rfl, if_pos rfl]
  · have hnum' : 0 < num' := Nat.pos_of_mul_pos_right (hcross ▸ Nat.mul_pos hnum hden')
    have hunit : unitExponent num den = unitExponent num' den' := by
      rw [unitExponent_eq hnum hden, unitExponent_eq hnum' hden', hquotient]
    have hsignificand : significand num den = significand num' den' := by
      rw [significand, significand, hunit]
      generalize unitExponent num' den' = q
      refine roundDiv_congr (by positivity) (by positivity) ?_
      calc num * 2 ^ (-q).toNat * (den' * 2 ^ q.toNat)
          = num * den' * (2 ^ (-q).toNat * 2 ^ q.toNat) := by ring
        _ = num' * den * (2 ^ (-q).toNat * 2 ^ q.toNat) := by rw [hcross]
        _ = num' * 2 ^ (-q).toNat * (den * 2 ^ q.toNat) := by ring
    rw [nearest_eq negative num hden, nearest_eq negative num' hden', hunit, hsignificand]

/-! ## Quotients that are numbers -/

theorem log_mul_zpow {m : Nat} (hm : 0 < m) (q : Int) :
    Int.log 2 ((m : ℚ) * 2 ^ q) = m.log2 + q := by
  have hunit : (0 : ℚ) < 2 ^ q := zpow_pos two_pos q
  have hpos : (0 : ℚ) < (m : ℚ) * 2 ^ q := mul_pos (Nat.cast_pos.mpr hm) hunit
  have hlow : ((2 : Nat) : ℚ) ^ ((m.log2 : Int) + q) ≤ (m : ℚ) * 2 ^ q := by
    rw [zpow_add₀ (by norm_num), zpow_natCast]
    refine mul_le_mul_of_nonneg_right ?_ hunit.le
    exact_mod_cast Nat.log2_self_le hm.ne'
  have hhigh : (m : ℚ) * 2 ^ q < ((2 : Nat) : ℚ) ^ ((m.log2 : Int) + 1 + q) := by
    rw [zpow_add₀ (by norm_num)]
    refine mul_lt_mul_of_pos_right ?_ hunit
    exact_mod_cast Nat.lt_log2_self
  have hle : (m.log2 : Int) + q ≤ Int.log 2 ((m : ℚ) * 2 ^ q) :=
    (Int.zpow_le_iff_le_log (by decide) hpos).mp hlow
  have hlt : Int.log 2 ((m : ℚ) * 2 ^ q) < (m.log2 : Int) + 1 + q :=
    (Int.lt_zpow_iff_log_lt (by decide) hpos).mp hhigh
  omega

/-- A magnitude of a number is a natural multiple of its unit in the last place. -/
theorem unitExponent_magnitude {m : Nat} {q : Int} (hm : 0 < m) (hlt : m < 2 ^ 53)
    (hq : -1074 ≤ q) (hnormal : 2 ^ 52 ≤ m ∨ q = -1074) :
    unitExponent (m * 2 ^ q.toNat) (2 ^ (-q).toNat) = q := by
  have hvalue : ((m * 2 ^ q.toNat : Nat) : ℚ) / ((2 ^ (-q).toNat : Nat) : ℚ) = m * 2 ^ q := by
    have hpow : (2 : ℚ) ^ q = _ := zpow_eq_div 2 q
    rw [hpow, Nat.cast_mul, mul_div_assoc]
  have hlog : m.log2 < 53 := (Nat.log2_lt hm.ne').mpr hlt
  rw [unitExponent_eq (by positivity) (by positivity), hvalue, log_mul_zpow hm]
  rcases hnormal with hnormal | rfl
  · have hle : 52 ≤ m.log2 := (Nat.le_log2 hm.ne').mpr hnormal
    rw [max_eq_right] <;> omega
  · exact max_eq_left (by omega)

theorem significand_magnitude {m : Nat} {q : Int}
    (hunit : unitExponent (m * 2 ^ q.toNat) (2 ^ (-q).toNat) = q) :
    significand (m * 2 ^ q.toNat) (2 ^ (-q).toNat) = m := by
  rw [significand, hunit, Nat.mul_assoc, Nat.mul_comm (2 ^ q.toNat)]
  exact roundDiv_mul_self m (by positivity)

/-! ## The fields of a number -/

theorem fields_eq (x : Double) :
    x.bits.toNat = (if x.negative then 2 ^ 63 else 0) + (x.exponentField * 2 ^ 52 + x.fractionField)
    := by
  have hlt : x.bits.toNat < 2 ^ 64 := x.bits.toNat_lt
  unfold negative exponentField fractionField
  simp only [Nat.pow_eq, beq_iff_eq]
  split <;> omega

theorem ofFields_fields (x : Double) :
    ofFields x.negative (x.exponentField * 2 ^ 52 + x.fractionField) = x := by
  have hbits : UInt64.ofNat x.bits.toNat = x.bits := UInt64.ofNat_toNat
  rw [fields_eq] at hbits
  exact congrArg Double.mk hbits

/-- What the magnitude of a finite number is: a multiple of the unit in its last place, whose field
is that of the number and not too large. -/
theorem magnitude_spec {x : Double} (hx : x.isFinite = true) :
    x.magnitude.1 < 2 ^ 53 ∧ -1074 ≤ x.magnitude.2 ∧
      (2 ^ 52 ≤ x.magnitude.1 ∨ x.magnitude.2 = -1074) ∧
      fieldOf x.magnitude.2 x.magnitude.1 = x.exponentField * 2 ^ 52 + x.fractionField ∧
      x.exponentField * 2 ^ 52 + x.fractionField < 2047 * 2 ^ 52 := by
  have hfraction : x.fractionField < 2 ^ 52 := Nat.mod_lt _ (by decide)
  have hexponent : x.exponentField < 2048 := Nat.mod_lt _ (by decide)
  have hfinite : x.exponentField ≠ 2047 := by simpa [isFinite] using hx
  unfold magnitude fieldOf
  simp only [Nat.pow_eq]
  split
  next hzero =>
    dsimp only
    rw [hzero]
    exact ⟨by omega, by omega, .inr rfl, by omega, by omega⟩
  next hnormal =>
    dsimp only
    rw [if_neg (by omega)]
    refine ⟨by omega, by omega, .inl (by omega), ?_, by omega⟩
    have hunit : ((x.exponentField : Int) - 1075 + 1075).toNat = x.exponentField := by omega
    rw [hunit]
    omega

/-- A finite number is the one nearest to its value. -/
theorem nearest_quotient {x : Double} (hx : x.isFinite = true) :
    nearest x.negative x.quotient.1 x.quotient.2 = x := by
  obtain ⟨hlt, hq, hnormal, hfield, hbound⟩ := magnitude_spec hx
  rcases hmagnitude : x.magnitude with ⟨m, q⟩
  have hquotient : x.quotient = (m * 2 ^ q.toNat, 2 ^ (-q).toNat) := by
    rw [quotient, hmagnitude]
    rfl
  rw [hmagnitude] at hlt hq hnormal hfield
  have hfields : bounded x.negative (fieldOf q m) = x := by
    rw [bounded, hfield, if_neg (by omega), ofFields_fields]
  rw [hquotient]
  rcases Nat.eq_zero_or_pos m with rfl | hm
  · rw [Nat.zero_mul]
    exact hfields
  · have hunit := unitExponent_magnitude hm hlt hq hnormal
    rw [nearest_eq _ _ (Nat.two_pow_pos _), hunit, significand_magnitude hunit]
    exact hfields

/-! ## Numbers read from decimals -/

/-- From a power of two beyond the largest number on, the nearest number is infinite. -/
theorem nearest_of_large (negative : Bool) {num den : Nat} (hden : 0 < den)
    (hlarge : 2 ^ 1024 * den ≤ num) : nearest negative num den = infinity negative := by
  have hnum : 0 < num := lt_of_lt_of_le (by positivity) hlarge
  have hpos : (0 : ℚ) < num / den := quotient_pos hnum hden
  have hlog : 1024 ≤ Int.log 2 ((num : ℚ) / den) := by
    rw [← Int.zpow_le_iff_le_log (by decide) hpos, le_div_iff₀ (by positivity)]
    exact_mod_cast hlarge
  obtain ⟨n, hn⟩ := Int.eq_ofNat_of_zero_le (Int.sub_nonneg_of_le hlog)
  have hn : Int.log 2 ((num : ℚ) / den) = (1024 + n : Nat) := by omega
  have hpower : 2 ^ (1024 + n) * den ≤ num := by
    have hle : ((2 : Nat) : ℚ) ^ ((1024 + n : Nat) : Int) ≤ num / den :=
      (Int.zpow_le_iff_le_log (by decide) hpos).mpr hn.ge
    rw [le_div_iff₀ (by positivity), zpow_natCast] at hle
    exact_mod_cast hle
  have hunit : unitExponent num den = (972 + n : Nat) := by
    rw [unitExponent_eq hnum hden, hn, max_eq_right (by omega)]
    omega
  have hsignificand : 2 ^ 52 ≤ significand num den := by
    refine le_trans ?_ (div_le_roundDiv _ _)
    rw [hunit, Nat.le_div_iff_mul_le (by positivity), Int.toNat_natCast, Int.toNat_neg_natCast]
    calc 2 ^ 52 * (den * 2 ^ (972 + n)) = 2 ^ (1024 + n) * den := by
          rw [Nat.mul_left_comm, ← Nat.pow_add, Nat.mul_comm, ← Nat.add_assoc]
      _ ≤ num := hpower
      _ = num * 2 ^ 0 := (Nat.mul_one num).symm
  have hfield : 2047 * 2 ^ 52 ≤ fieldOf (unitExponent num den) (significand num den) := by
    rw [fieldOf, if_neg (by omega), hunit]
    omega
  rw [nearest_eq negative num hden, bounded, if_pos hfield]

/-- Below half the least number, the nearest number is zero. -/
theorem nearest_of_small (negative : Bool) {num den : Nat} (hden : 0 < den)
    (hsmall : num * 2 ^ (1074 + 1) < den) : nearest negative num den = zero negative := by
  rcases Nat.eq_zero_or_pos num with rfl | hnum
  · rw [nearest, if_pos rfl]
  · have hpos : (0 : ℚ) < num / den := quotient_pos hnum hden
    have hlog : Int.log 2 ((num : ℚ) / den) < -1075 := by
      have hlt : (num : ℚ) / den < 2 ^ (-1075 : Int) := (lt_two_zpow_iff hden (-1075)).mpr <| by
        have hup : (-(-1075 : Int)).toNat = 1074 + 1 := rfl
        have hdown : (-1075 : Int).toNat = 0 := rfl
        rw [hup, hdown, pow_zero, Nat.mul_one]
        exact hsmall
      exact (Int.lt_zpow_iff_log_lt (by decide) hpos).mp hlt
    have hunit : unitExponent num den = -1074 := by
      rw [unitExponent_eq hnum hden]
      exact max_eq_left (by omega)
    have hsignificand : significand num den = 0 := by
      have hup : (-(-1074 : Int)).toNat = 1074 := rfl
      have hdown : (-1074 : Int).toNat = 0 := rfl
      rw [significand, hunit, hup, hdown, pow_zero, Nat.mul_one]
      exact roundDiv_mul_pow_of_small hsmall
    rw [nearest_eq negative num hden, hsignificand]
    rfl

/-- A decimal is read as the number nearest to it: where the power is not computed, the value is far
beyond the range. -/
theorem ofDecimal_eq_nearest (negative : Bool) (digits : Nat) (exponent : Int) :
    ofDecimal negative digits exponent =
      nearest negative (digits * 10 ^ exponent.toNat) (10 ^ (-exponent).toNat) := by
  unfold ofDecimal
  dsimp only
  split
  next hzero => rw [hzero, Nat.zero_mul, nearest, if_pos rfl]
  next hdigits =>
    have hpos : 0 < digits := Nat.pos_of_ne_zero hdigits
    split
    next hlarge =>
      refine (nearest_of_large negative (by positivity) ?_).symm
      have hunit : (-exponent).toNat = 0 := by omega
      have hpower : 2 ^ 1024 ≤ 10 ^ exponent.toNat :=
        calc 2 ^ 1024 ≤ 10 ^ 401 := by decide +kernel
          _ ≤ 10 ^ exponent.toNat := Nat.pow_le_pow_right (by decide) (by omega)
      rw [hunit, pow_zero, Nat.mul_one]
      exact hpower.trans (Nat.le_mul_of_pos_left _ hpos)
    next =>
      split
      next hsmall =>
        refine (nearest_of_small negative (by positivity) ?_).symm
        have hunit : exponent.toNat = 0 := by omega
        have hlength : digits < 10 ^ (digits.log2 / 3 + 1) :=
          calc digits < 2 ^ (digits.log2 + 1) := Nat.lt_log2_self
            _ ≤ 2 ^ (3 * (digits.log2 / 3 + 1)) := Nat.pow_le_pow_right (by decide) (by omega)
            _ = 8 ^ (digits.log2 / 3 + 1) := by rw [pow_mul]; norm_num
            _ ≤ 10 ^ (digits.log2 / 3 + 1) := Nat.pow_le_pow_left (by decide) _
        rw [hunit]
        calc digits * 10 ^ 0 * 2 ^ (1074 + 1) = digits * 2 ^ 1075 := by rw [pow_zero, Nat.mul_one]
          _ < 10 ^ (digits.log2 / 3 + 1) * 2 ^ 1075 :=
            Nat.mul_lt_mul_of_pos_right hlength (Nat.two_pow_pos _)
          _ ≤ 10 ^ (digits.log2 / 3 + 1) * 10 ^ 401 :=
            Nat.mul_le_mul_left _ (by decide +kernel)
          _ = 10 ^ (digits.log2 / 3 + 1 + 401) := (pow_add _ _ _).symm
          _ ≤ 10 ^ (-exponent).toNat := Nat.pow_le_pow_right (by decide) (by omega)
      next => rfl

/-! ## Decimals by their value -/

/-- The magnitude that a decimal stands for. -/
def Decimal.value (c : Decimal) : ℚ := c.digits * 10 ^ c.exponent

theorem Decimal.value_eq_div (c : Decimal) :
    c.value = ((c.digits * 10 ^ c.exponent.toNat : Nat) : ℚ) /
      ((10 ^ (-c.exponent).toNat : Nat) : ℚ) := by
  have hpower : (10 : ℚ) ^ c.exponent = _ := zpow_eq_div 10 c.exponent
  rw [Decimal.value, hpower, Nat.cast_mul, mul_div_assoc]

/-- Decimals of one value are read as one number. -/
theorem ofDecimal_congr (negative : Bool) {c c' : Decimal} (hvalue : c.value = c'.value) :
    ofDecimal negative c.digits c.exponent = ofDecimal negative c'.digits c'.exponent := by
  rw [c.value_eq_div, c'.value_eq_div] at hvalue
  rw [ofDecimal_eq_nearest, ofDecimal_eq_nearest]
  exact nearest_congr negative (by positivity) (by positivity) hvalue

theorem Decimal.value_strip (c : Decimal) : c.strip.value = c.value := by
  induction c using Decimal.strip.induct with
  | case1 c hzero ih =>
      rw [strip, if_pos hzero, ih, value, value]
      have hdigits : (c.digits : ℚ) = ((c.digits / 10 : Nat) : ℚ) * 10 := by
        exact_mod_cast (Nat.div_mul_cancel (Nat.dvd_of_mod_eq_zero hzero.2)).symm
      rw [hdigits, zpow_add_one₀ (by norm_num)]
      ring
  | case2 c hzero => rw [strip, if_neg hzero]

theorem value_exactDecimal (x : Double) :
    x.exactDecimal.value = (x.quotient.1 : ℚ) / x.quotient.2 := by
  unfold exactDecimal quotient Decimal.value
  rcases x.magnitude with ⟨m, q⟩
  dsimp only [Nat.pow_eq]
  rcases Int.le_total 0 q with hq | hq
  · obtain ⟨n, rfl⟩ := Int.eq_ofNat_of_zero_le hq
    simp
  · obtain ⟨n, hn⟩ := Int.eq_ofNat_of_zero_le (Int.neg_nonneg_of_nonpos hq)
    obtain rfl : q = -n := by omega
    have hten : (10 : ℚ) ^ n = 2 ^ n * 5 ^ n := by rw [← mul_pow]; norm_num
    simp only [min_eq_left hq, Int.toNat_neg_natCast, Int.neg_neg, Int.toNat_natCast, pow_zero,
      Nat.mul_one, zpow_neg, zpow_natCast, hten]
    push_cast
    field_simp

/-- The fewest digits are those of a decimal that is read as the number. -/
theorem ofDecimal_shortest {x : Double} (hx : x.isFinite = true) :
    ofDecimal x.negative x.shortest.digits x.shortest.exponent = x := by
  have hden : 0 < x.quotient.2 := Nat.two_pow_pos _
  have hexact : ofDecimal x.negative x.exactDecimal.digits x.exactDecimal.exponent = x := by
    have hvalue := x.value_exactDecimal
    rw [Decimal.value_eq_div] at hvalue
    rw [ofDecimal_eq_nearest, nearest_congr x.negative (by positivity) hden hvalue,
      nearest_quotient hx]
  unfold shortest
  dsimp only
  split
  next hzero =>
    have hself := nearest_quotient hx
    rw [hzero, nearest, if_pos rfl] at hself
    exact hself
  next =>
    rw [ofDecimal_congr _ (Decimal.value_strip _)]
    generalize hfound : List.findSome? _ _ = found
    cases found with
    | none => exact hexact
    | some c =>
        obtain ⟨k, _, hneighbour⟩ := List.exists_of_findSome?_eq_some hfound
        have hreads : x.readsAs c = true := List.find?_some hneighbour
        exact beq_iff_eq.mp hreads

end RuleCanvas.Double
