import RuleCanvas.Json.Parser
import RuleCanvas.Json.Printer
import RuleCanvas.Proofs.Number.Spelled

/-! # Printed strings and numbers are read back

Inside a string the text of a character is the character or an escape, and the parser takes either
for the character. A number is read to its end because what follows a value never continues a
number; its parts are those of its spelling.
-/

namespace RuleCanvas.Json

namespace Parser

/-! ## Strings -/

theorem hexValue?_hexDigit (n : Nat) : hexValue? (hexDigit n) = some (n % 16) := by
  have hall : ∀ k < 16, hexValue? (Nat.digitChar k) = some k := by decide
  exact hall (n % 16) (Nat.mod_lt n (by decide))

theorem unit?_hexDigits {n : Nat} (hn : n < 0x10000) (c : Char) (rest : List Char) :
    unit? (hexDigit (n / 4096) :: hexDigit (n / 256) :: hexDigit (n / 16) :: hexDigit n ::
      c :: rest) = some (n, c :: rest) := by
  have hvalue : ((n / 4096 % 16 * 16 + n / 256 % 16) * 16 + n / 16 % 16) * 16 + n % 16 = n := by
    omega
  rw [unit?, hexValue?_hexDigit, hexValue?_hexDigit, hexValue?_hexDigit, hexValue?_hexDigit]
  exact congrArg (fun m => some (m, c :: rest)) hvalue

theorem pairChar_of_lt {n : Nat} (hn : n < 0xd800) (rest : List Char) :
    pairChar n rest = .ok (Char.ofNat n, rest) := by
  have hlow : decide (0xd800 ≤ n) = false := decide_eq_false (Nat.not_le.mpr hn)
  unfold pairChar unitChar
  rw [hlow]
  rfl

/-- The escape of a code unit that is no half of a pair is read as its character. -/
theorem escape_unitEscape {n : Nat} (hn : n < 0xd800) (c : Char) (rest : List Char) :
    ∃ cs, unitEscape n ++ c :: rest = '\\' :: cs ∧ escape cs = .ok (Char.ofNat n, c :: rest) := by
  refine ⟨'u' :: hexDigit (n / 4096) :: hexDigit (n / 256) :: hexDigit (n / 16) :: hexDigit n ::
    c :: rest, rfl, ?_⟩
  rw [escape, unit?_hexDigits (by omega)]
  exact pairChar_of_lt hn _

/-- The characters that have an escape of their own, with its letter. -/
def shortEscapes : List (Char × Char) :=
  [('"', '"'), ('\\', '\\'), ('\n', 'n'), ('\r', 'r'), ('\t', 't'), ('\x08', 'b'), ('\x0c', 'f')]

theorem charText_short {c letter : Char} (hshort : (c, letter) ∈ shortEscapes) (rest : List Char) :
    charText false c = ['\\', letter] ∧ escape (letter :: rest) = .ok (c, rest) := by
  simp only [shortEscapes, List.mem_cons, Prod.mk.injEq, List.not_mem_nil, or_false] at hshort
  rcases hshort with ⟨rfl, rfl⟩ | ⟨rfl, rfl⟩ | ⟨rfl, rfl⟩ | ⟨rfl, rfl⟩ | ⟨rfl, rfl⟩ | ⟨rfl, rfl⟩ |
    ⟨rfl, rfl⟩ <;> exact ⟨rfl, rfl⟩

theorem charText_long {c : Char} (hlong : ∀ letter, (c, letter) ∉ shortEscapes) :
    charText false c = if c.toNat < 32 then unitEscape c.toNat else [c] := by
  have hne : ∀ d letter, (d, letter) ∈ shortEscapes → c ≠ d := by
    rintro d letter hmem rfl
    exact hlong letter hmem
  unfold charText
  rw [if_neg (hne '"' '"' (by decide)), if_neg (hne '\\' '\\' (by decide)),
    if_neg (hne '\n' 'n' (by decide)), if_neg (hne '\r' 'r' (by decide)),
    if_neg (hne '\t' 't' (by decide)), if_neg (hne '\x08' 'b' (by decide)),
    if_neg (hne '\x0c' 'f' (by decide))]
  rfl

/-- The text of a character is the character or an escape of it. -/
theorem charText_cases (c : Char) :
    (charText false c = [c] ∧ c ≠ '"' ∧ c ≠ '\\' ∧ ¬ c.toNat < 32) ∨
      ∀ (e : Char) (rest : List Char), ∃ cs, charText false c ++ e :: rest = '\\' :: cs ∧
        escape cs = .ok (c, e :: rest) := by
  by_cases hshort : ∃ letter, (c, letter) ∈ shortEscapes
  · obtain ⟨letter, hshort⟩ := hshort
    refine .inr fun e rest => ⟨letter :: e :: rest, ?_, (charText_short hshort _).2⟩
    rw [(charText_short hshort []).1]
    rfl
  · have hlong : ∀ letter, (c, letter) ∉ shortEscapes := fun letter hmem => hshort ⟨letter, hmem⟩
    rw [charText_long hlong]
    split
    next hcontrol =>
      refine .inr fun e rest => ?_
      have hread := escape_unitEscape (by omega : c.toNat < 0xd800) e rest
      rwa [Char.ofNat_toNat] at hread
    next hprint =>
      refine .inl ⟨rfl, ?_, ?_, hprint⟩
      · rintro rfl
        exact hlong '"' (by decide)
      · rintro rfl
        exact hlong '\\' (by decide)

theorem string_escaped {cs : List Char} {c e : Char} {rest : List Char}
    (hescape : escape cs = .ok (c, e :: rest)) (opening : List Char) (fuel : Nat)
    (acc : List Char) :
    string opening (fuel + 1) acc ('\\' :: cs) = string opening fuel (c :: acc) (e :: rest) := by
  cases cs with
  | nil => cases hescape
  | cons d ds => rw [string, hescape]; simp

theorem string_plain {c : Char} (hquote : c ≠ '"') (hslash : c ≠ '\\') (hprint : ¬ c.toNat < 32)
    (opening : List Char) (fuel : Nat) (acc rest : List Char) :
    string opening (fuel + 1) acc (c :: rest) = string opening fuel (c :: acc) rest := by
  rw [string.eq_def]
  split <;> simp_all

/-- Inside a string, the text of characters is read as these characters up to the closing quote. -/
theorem string_charText (opening : List Char) (s acc rest : List Char) {fuel : Nat}
    (hfuel : s.length < fuel) :
    string opening fuel acc (s.flatMap (charText false) ++ '"' :: rest) =
      .ok (String.ofList (acc.reverse ++ s), rest) := by
  induction s generalizing acc fuel with
  | nil =>
      obtain ⟨fuel, rfl⟩ := Nat.exists_eq_succ_of_ne_zero (Nat.ne_of_gt hfuel)
      simp [string]
  | cons c s ih =>
      obtain ⟨fuel, rfl⟩ := Nat.exists_eq_succ_of_ne_zero (Nat.ne_of_gt (Nat.zero_lt_of_lt hfuel))
      have hnext := ih (c :: acc) (Nat.lt_of_succ_lt_succ hfuel)
      rw [List.reverse_cons, List.append_assoc, List.singleton_append] at hnext
      obtain ⟨e, tail, htail⟩ : ∃ e tail, s.flatMap (charText false) ++ '"' :: rest = e :: tail :=
        List.exists_cons_of_ne_nil (List.append_ne_nil_of_right_ne_nil _ (List.cons_ne_nil _ _))
      rw [List.flatMap_cons, List.append_assoc, ← hnext, htail]
      rcases charText_cases c with ⟨htext, hquote, hslash, hprint⟩ | hescape
      · rw [htext]
        exact string_plain hquote hslash hprint opening fuel acc _
      · obtain ⟨cs, hcs, hread⟩ := hescape e tail
        rw [hcs]
        exact string_escaped hread opening fuel acc

theorem length_le_flatMap_charText (s : List Char) :
    s.length ≤ (s.flatMap (charText false)).length := by
  induction s with
  | nil => exact Nat.zero_le _
  | cons c s ih =>
      have hne : 0 < (charText false c).length := by
        rcases charText_cases c with ⟨htext, _⟩ | hescape
        · rw [htext]
          exact Nat.one_pos
        · obtain ⟨cs, hcs, _⟩ := hescape ' ' []
          rw [List.length_pos_iff]
          rintro hempty
          rw [hempty] at hcs
          cases hcs
      rw [List.flatMap_cons, List.length_append, List.length_cons]
      omega

/-- A printed string is read from behind its opening quote. -/
theorem string_stringText (opening : List Char) (s : String) (rest : List Char) :
    ∃ cs, stringText false s ++ rest = '"' :: cs ∧
      string opening cs.length [] cs = .ok (s, rest) := by
  refine ⟨s.toList.flatMap (charText false) ++ '"' :: rest, by simp [stringText], ?_⟩
  have hlength := length_le_flatMap_charText s.toList
  rw [string_charText opening s.toList [] rest
    (by rw [List.length_append, List.length_cons]; omega),
    List.reverse_nil, List.nil_append, String.ofList_toList]

/-! ## Numbers -/

/-- What follows a number does not continue it. -/
def Ends (rest : List Char) : Prop :=
  ∀ c ∈ rest.head?, c.isDigit = false ∧ c ≠ '.' ∧ c ≠ 'e' ∧ c ≠ 'E'

theorem Ends.nil : Ends [] := nofun

theorem Ends.cons {c : Char} (hc : c.isDigit = false ∧ c ≠ '.' ∧ c ≠ 'e' ∧ c ≠ 'E')
    (rest : List Char) : Ends (c :: rest) := by
  rintro d ⟨⟩
  exact hc

theorem digits_append {ds rest : List Char} (hds : ∀ c ∈ ds, c.isDigit = true)
    (hrest : ∀ c ∈ rest.head?, c.isDigit = false) : Numeral.digits (ds ++ rest) = (ds, rest) := by
  rw [Numeral.digits, List.span_eq_takeWhile_dropWhile, List.takeWhile_append_of_pos hds,
    List.dropWhile_append_of_pos hds]
  cases rest with
  | nil => simp
  | cons c rest => simp [hrest c rfl]

/-- The sign, the whole part, the fraction and the exponent at the front of a text. -/
def splitSign : List Char → Bool × List Char
  | '-' :: rest => (true, rest)
  | rest => (false, rest)

def splitWhole : List Char → List Char × List Char
  | '0' :: rest => (['0'], rest)
  | rest => Numeral.digits rest

def splitFraction (rest : List Char) : List Char × List Char :=
  match rest with
  | '.' :: more =>
    match Numeral.digits more with
    | ([], _) => ([], rest)
    | found => found
  | _ => ([], rest)

def splitExponent (rest : List Char) : Option Int × List Char :=
  match rest with
  | e :: more =>
    if e == 'e' || e == 'E' then
      let (below, more) := Numeral.sign more
      match Numeral.digits more with
      | ([], _) => (none, rest)
      | (ds, more) =>
        let n : Int := Numeral.value ds
        (some (if below then -n else n), more)
    else (none, rest)
  | [] => (none, rest)

theorem number_eq (cs : List Char) :
    number cs =
      let (negative, body) := splitSign cs
      let (whole, rest) := splitWhole body
      if whole.isEmpty then .error cs
      else
        let (fraction, afterFraction) := splitFraction rest
        let (exponent, afterExponent) := splitExponent afterFraction
        if fraction.isEmpty && exponent.isNone then
          let n : Int := Numeral.value whole
          .ok (int (if negative then -n else n), rest)
        else
          let digits := Numeral.value (whole ++ fraction)
          .ok (float (Double.ofDecimal negative digits (exponent.getD 0 - fraction.length)),
            afterExponent) := rfl

section

variable (s : Spelling) {rest : List Char}

theorem splitSign_signed (negative : Bool) (rest : List Char) :
    splitSign (s.signed negative ++ rest) = (negative, s.text ++ rest) := by
  obtain ⟨d, ds, htext, hd⟩ := s.exists_text_eq_cons
  rw [Spelling.signed, htext]
  cases negative with
  | true => rfl
  | false =>
      rw [splitSign.eq_def]
      split
      next heq =>
        obtain rfl : d = '-' := (List.cons.inj heq).1
        exact absurd hd (by decide)
      next => rfl

theorem splitWhole_whole (hrest : ∀ c ∈ rest.head?, c.isDigit = false) :
    splitWhole (s.whole ++ rest) = (s.whole, rest) := by
  rcases s.whole_plain with hzero | ⟨d, ds, hwhole, hd⟩
  · rw [hzero]
    rfl
  · rw [splitWhole.eq_def]
    split
    next heq =>
      rw [hwhole] at heq
      exact (hd (List.cons.inj heq).1).elim
    next => exact digits_append s.whole_digits hrest

theorem splitFraction_fraction
    (hrest : ∀ c ∈ rest.head?, c.isDigit = false ∧ c ≠ '.') :
    splitFraction (Spelling.fractionText s.fraction ++ rest) = (s.fraction, rest) := by
  unfold Spelling.fractionText
  split
  next hnone =>
    rw [hnone, List.nil_append, splitFraction.eq_def]
    split
    next more => exact ((hrest '.' rfl).2 rfl).elim
    next => rfl
  next hsome =>
    rw [List.cons_append, splitFraction,
      digits_append s.fraction_digits fun c hc => (hrest c hc).1]
    split
    next heq => exact (hsome (Prod.mk.inj heq).1).elim
    next => rfl

theorem splitExponent_exponent (hrest : Ends rest) :
    splitExponent (Spelling.exponentText s.exponent ++ rest) =
      (s.exponent.map fun e => Spelling.exponentValue (some e), rest) := by
  rcases hexponent : s.exponent with _ | ⟨below, ds⟩
  · cases rest with
    | nil => rfl
    | cons c rest =>
        obtain ⟨_, _, hlower, hupper⟩ := hrest c rfl
        simp [splitExponent, Spelling.exponentText, hlower, hupper]
  · obtain ⟨hne, hdigits⟩ := s.exponent_digits (below, ds) hexponent
    have hread : Numeral.digits (ds ++ rest) = (ds, rest) :=
      digits_append hdigits fun c hc => (hrest c hc).1
    obtain ⟨d, tail, rfl⟩ := List.exists_cons_of_ne_nil hne
    rw [List.cons_append] at hread
    cases below <;>
      simp [splitExponent, Spelling.exponentText, Spelling.exponentValue, Numeral.sign, hread]

theorem head_exponentText (hrest : Ends rest) :
    ∀ c ∈ (Spelling.exponentText s.exponent ++ rest).head?, c.isDigit = false ∧ c ≠ '.' := by
  rcases s.exponent with _ | ⟨below, ds⟩
  · exact fun c hc => ⟨(hrest c hc).1, (hrest c hc).2.1⟩
  · rintro c ⟨⟩
    decide

theorem head_fractionText (hrest : ∀ c ∈ rest.head?, c.isDigit = false ∧ c ≠ '.') :
    ∀ c ∈ (Spelling.fractionText s.fraction ++ rest).head?, c.isDigit = false := by
  unfold Spelling.fractionText
  split
  · exact fun c hc => (hrest c hc).1
  · rintro c ⟨⟩
    decide

/-- A spelling is taken apart into its parts. -/
theorem number_signed (negative : Bool) (hrest : Ends rest) :
    number (s.signed negative ++ rest) =
      if s.fraction.isEmpty && s.exponent.isNone then
        .ok (int (if negative then -Numeral.value s.whole else Numeral.value s.whole), rest)
      else
        .ok (float (Double.ofDecimal negative s.decimal.digits s.decimal.exponent), rest) := by
  have hafter := head_exponentText s hrest
  have htext : s.text ++ rest = s.whole ++
      (Spelling.fractionText s.fraction ++ (Spelling.exponentText s.exponent ++ rest)) := by
    simp only [Spelling.text, List.append_assoc]
  have hempty : s.whole.isEmpty = false := by
    obtain ⟨d, ds, hwhole, _⟩ := s.exists_whole_eq_cons
    rw [hwhole]
    rfl
  have hexponent : (s.exponent.map fun e => Spelling.exponentValue (some e)).getD 0 =
      Spelling.exponentValue s.exponent := by cases s.exponent <;> rfl
  rw [number_eq, splitSign_signed, htext]
  dsimp only
  rw [splitWhole_whole s (head_fractionText s hafter)]
  dsimp only
  rw [hempty, splitFraction_fraction s hafter]
  dsimp only
  rw [splitExponent_exponent s hrest]
  dsimp only
  rw [hexponent, Option.isNone_map, if_neg Bool.false_ne_true]
  split
  next hwhole =>
    rw [Bool.and_eq_true, List.isEmpty_iff, Option.isNone_iff_eq_none] at hwhole
    rw [hwhole.1, hwhole.2]
    rfl
  next => rfl

end

theorem number_ofInt (n : Int) {rest : List Char} (hrest : Ends rest) :
    number (Numeral.ofInt n ++ rest) = .ok (int n, rest) := by
  have hvalue : Numeral.value (Spelling.ofNat n.natAbs).whole = n.natAbs :=
    Numeral.value_ofNat n.natAbs
  have hsigned : (if decide (n < 0) = true then -(n.natAbs : Int) else n.natAbs) = n := by
    by_cases hn : n < 0
    · rw [if_pos (decide_eq_true hn)]
      omega
    · rw [if_neg (by simpa using hn)]
      omega
  rw [Spelling.ofInt_eq_signed, number_signed _ _ hrest, hvalue, hsigned]
  rfl

theorem number_write {x : Double} (hx : x.isFinite = true) {rest : List Char} (hrest : Ends rest) :
    number (DecimalStyle.document.write x ++ rest) = .ok (float x, rest) := by
  obtain ⟨s, htext, hbroken, hvalue⟩ := DecimalStyle.document.exists_write_eq hx
  have hparts : ¬ (s.fraction.isEmpty && s.exponent.isNone) = true := by
    rwa [Bool.and_eq_true, List.isEmpty_iff, Option.isNone_iff_eq_none]
  rw [htext, number_signed s _ hrest, if_neg hparts, hvalue]

/-! ## Names and numbers as values -/

/-- The values that are spelled by a name. -/
def words : List (String × Json) :=
  [("null", null), ("true", bool true), ("false", bool false),
    ("NaN", float Double.nan), ("Infinity", float (Double.infinity false)),
    ("-Infinity", float (Double.infinity true))]

/-- Away from quotes and brackets a value is a name or a number. -/
theorem value_plain {c : Char} (hquote : c ≠ '"') (hbrace : c ≠ '\x7b') (hbracket : c ≠ '[')
    (cs : List Char) (fuel : Nat) :
    value (fuel + 1) (c :: cs) =
      match words.findSome? fun (w, v) => (word? w (c :: cs)).map fun rest => (v, rest) with
      | some found => .ok found
      | none => number (c :: cs) := by
  rw [value.eq_def]
  dsimp only
  split
  next heq => exact (hquote (List.cons.inj heq).1).elim
  next heq => exact (hbrace (List.cons.inj heq).1).elim
  next heq => exact (hbracket (List.cons.inj heq).1).elim
  next => rfl

theorem value_name {word : String} {v : Json} (hword : (word, v) ∈ words) (rest : List Char)
    (fuel : Nat) : value (fuel + 1) (word.toList ++ rest) = .ok (v, rest) := by
  simp only [words, List.mem_cons, Prod.mk.injEq, List.not_mem_nil, or_false] at hword
  rcases hword with ⟨rfl, rfl⟩ | ⟨rfl, rfl⟩ | ⟨rfl, rfl⟩ | ⟨rfl, rfl⟩ | ⟨rfl, rfl⟩ | ⟨rfl, rfl⟩ <;>
    · simp only [String.reduceToList, List.cons_append, List.nil_append]
      rw [value_plain (by decide) (by decide) (by decide)]
      simp [words, word?, ← String.length_toList]

theorem value_signed (s : Spelling) (negative : Bool) (rest : List Char) (fuel : Nat) :
    value (fuel + 1) (s.signed negative ++ rest) = number (s.signed negative ++ rest) := by
  obtain ⟨d, ds, htext, hd⟩ := s.exists_text_eq_cons
  have hne : ∀ c, c.isDigit = false → c ≠ d := by
    rintro c hc rfl
    rw [hc] at hd
    cases hd
  rw [Spelling.signed, htext]
  cases negative with
  | true =>
      refine (value_plain (by decide) (by decide) (by decide) (d :: ds ++ rest) fuel).trans ?_
      simp [words, word?, hne 'I' (by decide)]
  | false =>
      refine (value_plain (hne '"' (by decide)).symm (hne '\x7b' (by decide)).symm
        (hne '[' (by decide)).symm (ds ++ rest) fuel).trans ?_
      simp [words, word?, hne 'I' (by decide), hne 'n' (by decide), hne 't' (by decide),
        hne 'f' (by decide), hne 'N' (by decide), hne '-' (by decide)]

theorem value_ofInt (n : Int) {rest : List Char} (hrest : Ends rest) (fuel : Nat) :
    value (fuel + 1) (Numeral.ofInt n ++ rest) = .ok (int n, rest) := by
  rw [← number_ofInt n hrest, Spelling.ofInt_eq_signed, value_signed]

theorem value_write {x : Double} (hx : x.isFinite = true) {rest : List Char} (hrest : Ends rest)
    (fuel : Nat) :
    value (fuel + 1) (DecimalStyle.document.write x ++ rest) = .ok (float x, rest) := by
  obtain ⟨s, htext, _⟩ := DecimalStyle.document.exists_write_eq hx
  rw [← number_write hx hrest, htext, value_signed]

theorem value_stringText (s : String) (rest : List Char) (fuel : Nat) :
    value (fuel + 1) (stringText false s ++ rest) = .ok (str s, rest) := by
  obtain ⟨cs, hcs, hread⟩ := string_stringText (stringText false s ++ rest) s rest
  rw [hcs] at hread ⊢
  rw [value, hread]
  rfl

end Parser

end RuleCanvas.Json
