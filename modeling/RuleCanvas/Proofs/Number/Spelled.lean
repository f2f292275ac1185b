import RuleCanvas.Number.Written
import RuleCanvas.Proofs.Number.Nearest

/-! # Spelled numbers

A written number is a sign and a spelling: digits without needless leading zeros, a fraction that
may be left out, and an exponent that may be left out. The spelling of a finite number has a
fraction or an exponent, and is read as that number; the spelling of an integer has neither.
-/

namespace RuleCanvas

/-! ## Digits -/

namespace Numeral

theorem value_eq (ds : List Char) : value ds = Nat.ofDigitChars 10 ds 0 := by
  rw [value, Nat.ofDigitChars_eq_foldl]
  congr 1
  funext n c
  rw [Nat.mul_comm]

theorem value_ofNat (n : Nat) : value (ofNat n) = n := by
  rw [value_eq]
  exact Nat.ofDigitChars_toDigits (by decide) (by decide)

theorem value_append (xs ys : List Char) :
    value (xs ++ ys) = value xs * 10 ^ ys.length + value ys := by
  rw [value_eq, value_eq, value_eq, Nat.ofDigitChars_append, Nat.ofDigitChars_eq_ofDigitChars_zero,
    Nat.mul_comm]

theorem value_zeros (n : Nat) : value (List.replicate n '0') = 0 := by
  rw [value_eq, Nat.ofDigitChars_replicate_zero, Nat.mul_zero]

theorem isDigit_of_mem_ofNat {n : Nat} {c : Char} (hc : c ∈ ofNat n) : c.isDigit = true :=
  Nat.isDigit_of_mem_toDigits (by decide) (by decide) hc

theorem isDigit_of_mem_zeros {n : Nat} {c : Char} (hc : c ∈ List.replicate n '0') :
    c.isDigit = true := by
  rw [List.eq_of_mem_replicate hc]
  rfl

/-- The first digit of a positive number is not zero. -/
theorem exists_ofNat_eq_cons {n : Nat} (hn : n ≠ 0) :
    ∃ d rest, ofNat n = d :: rest ∧ d ≠ '0' := by
  induction n using Nat.strongRecOn with
  | ind n ih =>
      rcases Nat.lt_or_ge n 10 with hlt | hge
      · refine ⟨n.digitChar, [], Nat.toDigits_of_lt_base hlt, ?_⟩
        rw [ne_eq, Nat.digitChar_eq_zero]
        exact hn
      · obtain ⟨d, rest, hdigits, hd⟩ := ih (n / 10) (by omega) (by omega)
        refine ⟨d, rest ++ [(n % 10).digitChar], ?_, hd⟩
        rw [ofNat, Nat.toDigits_of_base_le (by decide) hge]
        exact congrArg (· ++ _) hdigits

end Numeral

/-! ## Spellings -/

/-- A number as it is spelled. -/
structure Spelling where
  whole : List Char
  fraction : List Char
  /-- Whether the exponent is below zero, and its digits. -/
  exponent : Option (Bool × List Char)
  /-- The whole part is a single zero or starts with another digit. -/
  whole_plain : whole = ['0'] ∨ ∃ d rest, whole = d :: rest ∧ d ≠ '0'
  whole_digits : ∀ c ∈ whole, c.isDigit = true
  fraction_digits : ∀ c ∈ fraction, c.isDigit = true
  exponent_digits : ∀ e ∈ exponent, e.2 ≠ [] ∧ ∀ c ∈ e.2, c.isDigit = true

namespace Spelling

open Numeral (value)

def fractionText (ds : List Char) : List Char := if ds = [] then [] else '.' :: ds

def exponentText : Option (Bool × List Char) → List Char
  | none => []
  | some (below, ds) => 'e' :: (if below then '-' else '+') :: ds

def text (s : Spelling) : List Char :=
  s.whole ++ (fractionText s.fraction ++ exponentText s.exponent)

/-- The text behind its sign, which is written below zero only. -/
def signed (s : Spelling) (negative : Bool) : List Char :=
  (if negative then ['-'] else []) ++ s.text

def exponentValue : Option (Bool × List Char) → Int
  | none => 0
  | some (below, ds) => if below then -(value ds : Int) else value ds

/-- The decimal that a spelling stands for, with all digits before the point. -/
def decimal (s : Spelling) : Double.Decimal :=
  ⟨value (s.whole ++ s.fraction), exponentValue s.exponent - s.fraction.length⟩

/-- A spelling without fraction and exponent, which is that of an integer. -/
def IsWhole (s : Spelling) : Prop := s.fraction = [] ∧ s.exponent = none

/-- The spelling of a natural number. -/
def ofNat (n : Nat) : Spelling where
  whole := Numeral.ofNat n
  fraction := []
  exponent := none
  whole_plain := by
    rcases Nat.eq_zero_or_pos n with rfl | hn
    · exact .inl rfl
    · exact .inr (Numeral.exists_ofNat_eq_cons hn.ne')
  whole_digits := fun _ => Numeral.isDigit_of_mem_ofNat
  fraction_digits := nofun
  exponent_digits := nofun

theorem text_ofNat (n : Nat) : (ofNat n).text = Numeral.ofNat n := List.append_nil _

theorem ofInt_eq_signed (n : Int) :
    Numeral.ofInt n = (ofNat n.natAbs).signed (decide (n < 0)) := by
  rw [signed, text_ofNat, Numeral.ofInt]
  by_cases hn : n < 0 <;> simp [hn]

theorem exists_whole_eq_cons (s : Spelling) :
    ∃ d ds, s.whole = d :: ds ∧ d.isDigit = true := by
  obtain ⟨d, ds, hwhole⟩ : ∃ d ds, s.whole = d :: ds := by
    rcases s.whole_plain with hzero | ⟨d, ds, hwhole, _⟩
    · exact ⟨_, _, hzero⟩
    · exact ⟨d, ds, hwhole⟩
  exact ⟨d, ds, hwhole, s.whole_digits d (hwhole ▸ List.mem_cons_self)⟩

theorem exists_text_eq_cons (s : Spelling) :
    ∃ d ds, s.text = d :: ds ∧ d.isDigit = true := by
  obtain ⟨d, ds, hwhole, hd⟩ := s.exists_whole_eq_cons
  exact ⟨d, _, by rw [text, hwhole, List.cons_append], hd⟩

theorem text_of_fraction {s : Spelling} (hfraction : s.fraction ≠ []) :
    s.text = s.whole ++ '.' :: (s.fraction ++ exponentText s.exponent) := by
  rw [text, fractionText, if_neg hfraction]
  rfl

/-- The value of a spelling whose digits are those of `n` and `k` zeros. -/
theorem value_decimal {s : Spelling} {n k : Nat} {unit : Int}
    (hdigits : value (s.whole ++ s.fraction) = n * 10 ^ k)
    (hunit : exponentValue s.exponent - s.fraction.length + k = unit) :
    s.decimal.value = n * 10 ^ unit := by
  rw [Double.Decimal.value, decimal, hdigits, ← hunit, zpow_add₀ (by norm_num), zpow_natCast]
  push_cast
  ring

end Spelling

/-! ## Laying out digits -/

namespace DecimalStyle

open Numeral (value_ofNat value_append value_zeros isDigit_of_mem_ofNat isDigit_of_mem_zeros
  exists_ofNat_eq_cons)

/-- A text spells `n * 10 ^ unit`, and not as an integer. -/
def Spells (text : List Char) (n : Nat) (unit : Int) : Prop :=
  ∃ s : Spelling, text = s.text ∧ ¬ s.IsWhole ∧ s.decimal.value = n * 10 ^ unit

variable {n : Nat} {point : Int}

/-- The point stands before all digits. -/
theorem spells_small (n : Nat) (hpoint : point ≤ 0) :
    Spells ('0' :: '.' :: (List.replicate (-point).toNat '0' ++ Numeral.ofNat n)) n
      (point - (Numeral.ofNat n).length) := by
  have hne : List.replicate (-point).toNat '0' ++ Numeral.ofNat n ≠ [] :=
    List.append_ne_nil_of_right_ne_nil _ Nat.toDigits_ne_nil
  let s : Spelling := {
    whole := ['0']
    fraction := List.replicate (-point).toNat '0' ++ Numeral.ofNat n
    exponent := none
    whole_plain := .inl rfl
    whole_digits := by simp
    fraction_digits := fun c hc =>
      (List.mem_append.mp hc).elim isDigit_of_mem_zeros isDigit_of_mem_ofNat
    exponent_digits := nofun }
  refine ⟨s, ?_, fun hwhole => hne hwhole.1, Spelling.value_decimal (k := 0) ?_ ?_⟩
  · rw [Spelling.text_of_fraction hne]
    exact congrArg (fun cs => '0' :: '.' :: cs) (List.append_nil _).symm
  · change Numeral.value (['0'] ++ (List.replicate (-point).toNat '0' ++ Numeral.ofNat n)) = _
    rw [value_append, value_append, value_zeros, value_ofNat]
    simp [Numeral.value]
  · simp only [s, Spelling.exponentValue, List.length_append, List.length_replicate]
    omega

/-- The digits are followed by zeros, the point and one more zero. -/
theorem spells_padded (hzero : n = 0 → point = 1)
    (hpoint : ((Numeral.ofNat n).length : Int) ≤ point) :
    Spells (Numeral.ofNat n ++ List.replicate (point.toNat - (Numeral.ofNat n).length) '0' ++
      ['.', '0']) n (point - (Numeral.ofNat n).length) := by
  let s : Spelling := {
    whole := Numeral.ofNat n ++ List.replicate (point.toNat - (Numeral.ofNat n).length) '0'
    fraction := ['0']
    exponent := none
    whole_plain := by
      rcases Nat.eq_zero_or_pos n with rfl | hn
      · rw [hzero rfl]
        exact .inl rfl
      · obtain ⟨d, rest, hdigits, hd⟩ := exists_ofNat_eq_cons hn.ne'
        rw [hdigits]
        exact .inr ⟨d, _, rfl, hd⟩
    whole_digits := fun c hc =>
      (List.mem_append.mp hc).elim isDigit_of_mem_ofNat isDigit_of_mem_zeros
    fraction_digits := by simp
    exponent_digits := nofun }
  refine ⟨s, ?_, fun hwhole => List.cons_ne_nil _ _ hwhole.1,
    Spelling.value_decimal (k := point.toNat - (Numeral.ofNat n).length + 1) ?_ ?_⟩
  · rw [Spelling.text_of_fraction (List.cons_ne_nil _ _)]
    rfl
  · change Numeral.value (Numeral.ofNat n ++
      List.replicate (point.toNat - (Numeral.ofNat n).length) '0' ++ ['0']) = _
    rw [value_append, value_append, value_zeros, value_ofNat, List.length_replicate, Nat.pow_succ]
    simp [Numeral.value, Nat.mul_assoc]
  · simp only [s, Spelling.exponentValue, List.length_singleton]
    omega

/-- The point stands between digits. -/
theorem spells_split (hlow : 0 < point) (hhigh : point < (Numeral.ofNat n).length) :
    Spells ((Numeral.ofNat n).take point.toNat ++ '.' :: (Numeral.ofNat n).drop point.toNat) n
      (point - (Numeral.ofNat n).length) := by
  have hne : (Numeral.ofNat n).drop point.toNat ≠ [] := by
    rw [ne_eq, List.drop_eq_nil_iff]
    omega
  have hn : n ≠ 0 := by
    rintro rfl
    have hlength : (Numeral.ofNat 0).length = 1 := rfl
    omega
  let s : Spelling := {
    whole := (Numeral.ofNat n).take point.toNat
    fraction := (Numeral.ofNat n).drop point.toNat
    exponent := none
    whole_plain := by
      obtain ⟨d, rest, hdigits, hd⟩ := exists_ofNat_eq_cons hn
      obtain ⟨k, hk⟩ : ∃ k, point.toNat = k + 1 := ⟨point.toNat - 1, by omega⟩
      rw [hdigits, hk]
      exact .inr ⟨d, _, rfl, hd⟩
    whole_digits := fun c hc => isDigit_of_mem_ofNat (List.mem_of_mem_take hc)
    fraction_digits := fun c hc => isDigit_of_mem_ofNat (List.mem_of_mem_drop hc)
    exponent_digits := nofun }
  refine ⟨s, ?_, fun hwhole => hne hwhole.1, Spelling.value_decimal (k := 0) ?_ ?_⟩
  · rw [Spelling.text_of_fraction hne]
    exact congrArg (fun cs => s.whole ++ '.' :: cs) (List.append_nil s.fraction).symm
  · change Numeral.value
      ((Numeral.ofNat n).take point.toNat ++ (Numeral.ofNat n).drop point.toNat) = _
    rw [List.take_append_drop, value_ofNat, pow_zero, Nat.mul_one]
  · simp only [s, Spelling.exponentValue, List.length_drop]
    omega

/-- The digits with an exponent. -/
theorem spells_scientific (style : DecimalStyle) (n : Nat) (point : Int) :
    Spells
      ((match Numeral.ofNat n with
        | d :: rest@(_ :: _) => d :: '.' :: rest
        | short => short) ++
        'e' :: (if point - 1 < 0 then '-' else '+') ::
          (List.replicate (style.exponentWidth - (Numeral.ofNat (point - 1).natAbs).length) '0' ++
            Numeral.ofNat (point - 1).natAbs)) n
      (point - (Numeral.ofNat n).length) := by
  obtain ⟨d, rest, hdigits⟩ : ∃ d rest, Numeral.ofNat n = d :: rest :=
    List.exists_cons_of_ne_nil Nat.toDigits_ne_nil
  let ds := List.replicate (style.exponentWidth - (Numeral.ofNat (point - 1).natAbs).length) '0' ++
    Numeral.ofNat (point - 1).natAbs
  let s : Spelling := {
    whole := [d]
    fraction := rest
    exponent := some (decide (point - 1 < 0), ds)
    whole_plain := by
      by_cases hd : d = '0'
      · exact .inl (congrArg (fun c => [c]) hd)
      · exact .inr ⟨d, [], rfl, hd⟩
    whole_digits := fun c hc => isDigit_of_mem_ofNat (n := n) <| by
      rw [hdigits]
      exact List.mem_append_left rest hc
    fraction_digits := fun c hc => isDigit_of_mem_ofNat (n := n) <| by
      rw [hdigits]
      exact List.mem_cons_of_mem d hc
    exponent_digits := by
      rintro e ⟨⟩
      exact ⟨List.append_ne_nil_of_right_ne_nil _ Nat.toDigits_ne_nil, fun c hc =>
        (List.mem_append.mp hc).elim isDigit_of_mem_zeros isDigit_of_mem_ofNat⟩ }
  have hexponent : Spelling.exponentValue s.exponent = point - 1 := by
    have hvalue : Numeral.value ds = (point - 1).natAbs := by
      rw [value_append, value_zeros, value_ofNat, Nat.zero_mul, Nat.zero_add]
    simp only [s, Spelling.exponentValue, hvalue, decide_eq_true_eq]
    split <;> omega
  refine ⟨s, ?_, fun hwhole => Option.some_ne_none _ hwhole.2,
    Spelling.value_decimal (k := 0) ?_ ?_⟩
  · rw [hdigits]
    cases rest with
    | nil => simp [Spelling.text, Spelling.fractionText, Spelling.exponentText, s, ds]
    | cons => simp [Spelling.text, Spelling.fractionText, Spelling.exponentText, s, ds]
  · change Numeral.value ([d] ++ rest) = _
    rw [List.singleton_append, ← hdigits, value_ofNat, pow_zero, Nat.mul_one]
  · rw [hexponent, hdigits, List.length_cons]
    simp only [s]
    omega

/-- However digits are laid out, the point stands for its power of ten. -/
theorem spells_layOut (style : DecimalStyle) (hzero : n = 0 → point = 1) :
    Spells (style.layOut (Numeral.ofNat n) point) n (point - (Numeral.ofNat n).length) := by
  unfold layOut
  split
  next =>
    split
    next hsmall => exact spells_small n hsmall
    next hlarge =>
      split
      next hpadded => exact spells_padded hzero hpadded
      next hsplit => exact spells_split (by omega) (by omega)
  next => exact style.spells_scientific n point

/-- A finite number is written as its sign and a spelling of it. -/
theorem exists_write_eq (style : DecimalStyle) {x : Double} (hx : x.isFinite = true) :
    ∃ s : Spelling, style.write x = s.signed x.negative ∧ ¬ s.IsWhole ∧
      Double.ofDecimal x.negative s.decimal.digits s.decimal.exponent = x := by
  have hexponent : x.exponentField ≠ 2047 := by simpa [Double.isFinite] using hx
  have hnan : x.isNaN = false := by simp [Double.isNaN, hexponent]
  have hinfinite : x.isInfinite = false := by simp [Double.isInfinite, hexponent]
  generalize hpoint : (if x.shortest.digits = 0 then (1 : Int) else
    ((Numeral.ofNat x.shortest.digits).length : Int) + x.shortest.exponent) = point
  have hzero : x.shortest.digits = 0 → point = 1 := fun hdigits => by
    rw [← hpoint, if_pos hdigits]
  obtain ⟨s, htext, hbroken, hvalue⟩ := style.spells_layOut hzero
  refine ⟨s, ?_, hbroken, ?_⟩
  · rw [write, hnan, hinfinite, Spelling.signed]
    simp only [Bool.false_eq_true, if_false, hpoint, htext]
  · have hsame : s.decimal.value = x.shortest.value := by
      rw [hvalue, Double.Decimal.value]
      by_cases hdigits : x.shortest.digits = 0
      · simp [hdigits]
      · rw [← hpoint, if_neg hdigits, add_sub_cancel_left]
    rw [Double.ofDecimal_congr x.negative hsame, Double.ofDecimal_shortest hx]

end DecimalStyle

end RuleCanvas
