import Mathlib.Data.List.TakeWhile
import RuleCanvas.Proofs.Json.Token

/-! # Printed text is read back

A value in which no object names a member twice and all binary64 numbers are finite is read back
from its text, whatever the layout, as long as separators are padded by blanks only and characters
stand for themselves. Two such values with the same text are therefore the same.
-/

namespace RuleCanvas.Json

namespace Parser

/-! ## Lists and objects -/

theorem put_of_notMem {name : String} (v : Json) {members : Members}
    (hname : name ∉ members.map (·.1)) : put name v members = members ++ [(name, v)] := by
  induction members with
  | nil => rfl
  | cons m rest ih =>
      rw [List.map_cons, List.mem_cons, not_or] at hname
      rw [put, if_neg (Ne.symm hname.1), ih hname.2, List.cons_append]

theorem skipBlanks_append {bs : List Char} (hbs : skipBlanks bs = []) (cs : List Char) :
    skipBlanks (bs ++ cs) = skipBlanks cs :=
  List.dropWhile_append_of_pos (List.dropWhile_eq_nil_iff.mp hbs)

/-- A value can start here: no blank and no closing bracket is at the front. -/
def Starts (cs : List Char) : Prop :=
  ∃ c rest, cs = c :: rest ∧ c ∉ [' ', '\n', '\t', '\r', ']', '\x7d']

theorem Starts.skipBlanks {cs : List Char} (hcs : Starts cs) : skipBlanks cs = cs := by
  obtain ⟨c, rest, rfl, hc⟩ := hcs
  simp only [List.mem_cons, not_or] at hc
  exact List.dropWhile_cons_of_neg (by simp [hc])

theorem Starts.of_isDigit {d : Char} (hd : d.isDigit = true) (rest : List Char) :
    Starts (d :: rest) := by
  have hnone : [' ', '\n', '\t', '\r', ']', '\x7d'].any Char.isDigit = false := by decide
  exact ⟨d, rest, rfl, fun hmem => List.any_eq_false.mp hnone d hmem hd⟩

theorem value_bracket {bs cs : List Char} (hbs : skipBlanks bs = []) (hcs : Starts cs)
    (fuel : Nat) : value (fuel + 1) ('[' :: (bs ++ cs)) = items fuel [] cs := by
  rw [value, skipBlanks_append hbs, hcs.skipBlanks]
  obtain ⟨c, rest, rfl, hc⟩ := hcs
  split
  next heq => exact (hc (by simp [(List.cons.inj heq).1])).elim
  next => rfl

theorem value_brace {bs cs : List Char} (hbs : skipBlanks bs = []) (hcs : Starts cs) (fuel : Nat) :
    value (fuel + 1) ('\x7b' :: (bs ++ cs)) = members fuel [] cs := by
  rw [value, skipBlanks_append hbs, hcs.skipBlanks]
  obtain ⟨c, rest, rfl, hc⟩ := hcs
  split
  next heq => exact (hc (by simp [(List.cons.inj heq).1])).elim
  next => rfl

section

variable {fuel : Nat} {cs bs next rest : List Char} {v : Json}

theorem items_last (hv : value fuel cs = .ok (v, bs ++ ']' :: rest)) (hbs : skipBlanks bs = [])
    (acc : List Json) :
    items (fuel + 1) acc cs = .ok (arr (acc.reverse ++ [v]), rest) := by
  rw [items, hv, ← List.reverse_cons]
  dsimp only
  rw [skipBlanks_append hbs]
  rfl

theorem items_next (hv : value fuel cs = .ok (v, ',' :: (bs ++ next))) (hbs : skipBlanks bs = [])
    (hnext : Starts next) (acc : List Json) :
    items (fuel + 1) acc cs = items fuel (v :: acc) next := by
  rw [items, hv]
  change items fuel (v :: acc) (skipBlanks (bs ++ next)) = _
  rw [skipBlanks_append hbs, hnext.skipBlanks]

theorem notMem_of_nodup {acc rest : Members} {m : String × Json}
    (hnodup : ((acc ++ m :: rest).map (·.1)).Nodup) : m.1 ∉ acc.map (·.1) := by
  rw [List.map_append, List.nodup_append] at hnodup
  exact fun hmem => hnodup.2.2 m.1 hmem m.1 List.mem_cons_self rfl

/-- What follows a member: the end of the object or another member. -/
def nextMember (fuel : Nat) (acc : Members) (after : List Char) : Step Json :=
  match skipBlanks after with
  | '\x7d' :: rest => .ok (obj acc, rest)
  | ',' :: rest => members fuel acc (skipBlanks rest)
  | left => .error left

/-- What follows the colon of a member. -/
def memberValue (fuel : Nat) (acc : Members) (name : String) (cs : List Char) : Step Json :=
  match value fuel cs with
  | .error left => .error left
  | .ok (v, after) => nextMember fuel (put name v acc) after

theorem members_value {acc : Members} {name : String} (hname : name ∉ acc.map (·.1))
    {after : List Char} (hv : value fuel cs = .ok (v, after)) (hbs : skipBlanks bs = [])
    (hcs : Starts cs) :
    members (fuel + 1) acc (stringText false name ++ ':' :: (bs ++ cs)) =
      nextMember fuel (acc ++ [(name, v)]) after := by
  obtain ⟨text, htext, hread⟩ := string_stringText
    (stringText false name ++ ':' :: (bs ++ cs)) name (':' :: (bs ++ cs))
  rw [htext] at hread ⊢
  rw [members, hread]
  change memberValue fuel acc name (skipBlanks (bs ++ cs)) = _
  rw [skipBlanks_append hbs, hcs.skipBlanks]
  simp only [memberValue, hv, put_of_notMem v hname]

theorem members_last {acc : Members} {name : String} (hname : name ∉ acc.map (·.1))
    {gap : List Char} (hv : value fuel cs = .ok (v, gap ++ '\x7d' :: rest))
    (hgap : skipBlanks gap = []) (hbs : skipBlanks bs = []) (hcs : Starts cs) :
    members (fuel + 1) acc (stringText false name ++ ':' :: (bs ++ cs)) =
      .ok (obj (acc ++ [(name, v)]), rest) := by
  rw [members_value hname hv hbs hcs, nextMember, skipBlanks_append hgap]
  rfl

theorem members_next {acc : Members} {name : String} (hname : name ∉ acc.map (·.1))
    {gap : List Char} (hv : value fuel cs = .ok (v, ',' :: (gap ++ next)))
    (hgap : skipBlanks gap = []) (hnext : Starts next) (hbs : skipBlanks bs = [])
    (hcs : Starts cs) :
    members (fuel + 1) acc (stringText false name ++ ':' :: (bs ++ cs)) =
      members fuel (acc ++ [(name, v)]) next := by
  rw [members_value hname hv hbs hcs]
  change members fuel (acc ++ [(name, v)]) (skipBlanks (gap ++ next)) = _
  rw [skipBlanks_append hgap, hnext.skipBlanks]

end

end Parser

/-! ## Whole texts -/

/-- No object names a member twice and every binary64 number is finite, at every depth. -/
inductive Proper : Json → Prop
  | null : Proper null
  | bool (b : Bool) : Proper (bool b)
  | int (n : Int) : Proper (int n)
  | float {x : Double} (hx : x.isFinite = true) : Proper (float x)
  | str (s : String) : Proper (str s)
  | arr {items : List Json} (hitems : ∀ v ∈ items, Proper v) : Proper (arr items)
  | obj {members : Members} (hnodup : (members.map (·.1)).Nodup)
      (hmembers : ∀ m ∈ members, Proper m.2) : Proper (obj members)

/-- Separators are padded by blanks only and characters stand for themselves. -/
structure Layout.Readable (layout : Layout) : Prop where
  comma : ∃ bs, layout.comma.toList = ',' :: bs ∧ Parser.skipBlanks bs = []
  colon : ∃ bs, layout.colon.toList = ':' :: bs ∧ Parser.skipBlanks bs = []
  plain : layout.asciiOnly = false

theorem Layout.readable_compact : compact.Readable :=
  ⟨⟨[], by simp [compact], rfl⟩, ⟨[], by simp [compact], rfl⟩, rfl⟩

theorem Layout.readable_pretty : pretty.Readable :=
  ⟨⟨[], by simp [pretty], rfl⟩, ⟨[' '], by simp [pretty], rfl⟩, rfl⟩

open RuleCanvas.Json.Parser

variable {layout : Layout}

theorem skipBlanks_lineBreak (layout : Layout) (level : Nat) :
    skipBlanks (lineBreak layout level) = [] := by
  unfold lineBreak
  split
  next => rfl
  next width _ =>
    refine List.dropWhile_eq_nil_iff.mpr fun c hc => ?_
    rcases List.mem_cons.mp hc with rfl | hspace
    · rfl
    · rw [List.eq_of_mem_replicate hspace]
      rfl

/-! What follows a value in a printed text never continues a number. -/

theorem ends_lineBreak (layout : Layout) (level : Nat) {rest : List Char} (hrest : Ends rest) :
    Ends (lineBreak layout level ++ rest) := by
  unfold lineBreak
  split
  · exact hrest
  · exact .cons (by decide) _

theorem ends_itemChars (hl : layout.Readable) (level : Nat) (items : List Json)
    {rest : List Char} (hrest : Ends rest) : Ends (itemChars layout level items rest) := by
  obtain ⟨bs, hcomma, _⟩ := hl.comma
  cases items with
  | nil => exact hrest
  | cons x xs =>
      rw [itemChars, hcomma]
      exact .cons (by decide) _

theorem ends_memberChars (hl : layout.Readable) (level : Nat) (members : Members)
    {rest : List Char} (hrest : Ends rest) : Ends (memberChars layout level members rest) := by
  obtain ⟨bs, hcomma, _⟩ := hl.comma
  cases members with
  | nil => exact hrest
  | cons m ms =>
      rw [memberChars, hcomma]
      exact .cons (by decide) _

theorem starts_signed (s : Spelling) (negative : Bool) (rest : List Char) :
    Starts (s.signed negative ++ rest) := by
  obtain ⟨d, ds, htext, hd⟩ := s.exists_text_eq_cons
  rw [Spelling.signed, htext]
  cases negative with
  | true => exact ⟨'-', _, rfl, by decide⟩
  | false => exact .of_isDigit hd _

theorem starts_chars {v : Json} (hv : v.Proper) (layout : Layout) (level : Nat)
    (rest : List Char) : Starts (chars layout level v rest) := by
  cases hv with
  | null =>
      simp only [chars, String.reduceToList]
      exact ⟨'n', _, rfl, by decide⟩
  | bool b =>
      cases b <;>
        · simp only [chars, String.reduceToList]
          exact ⟨_, _, rfl, by decide⟩
  | int n =>
      rw [chars, Spelling.ofInt_eq_signed]
      exact starts_signed _ _ rest
  | float hx =>
      obtain ⟨s, htext, _⟩ := DecimalStyle.document.exists_write_eq hx
      rw [chars, htext]
      exact starts_signed s _ rest
  | str s => exact ⟨'"', _, by rw [chars]; rfl, by decide⟩
  | @arr items _ => cases items <;> exact ⟨'[', _, by rw [chars], by decide⟩
  | @obj members _ _ => cases members <;> exact ⟨'\x7b', _, by rw [chars], by decide⟩

mutual

theorem length_le_chars (layout : Layout) (level : Nat) (v : Json) (rest : List Char) :
    rest.length ≤ (chars layout level v rest).length := by
  cases v with
  | null => exact (List.suffix_append _ _).length_le
  | bool b => cases b <;> exact (List.suffix_append _ _).length_le
  | int n => exact (List.suffix_append _ _).length_le
  | float x => exact (List.suffix_append _ _).length_le
  | str s => exact (List.suffix_append _ _).length_le
  | arr items =>
      cases items with
      | nil =>
          simp only [chars, List.length_cons]
          omega
      | cons x xs =>
          have hitems := length_le_itemChars layout (level + 1) xs
            (lineBreak layout level ++ ']' :: rest)
          have hx := length_le_chars layout (level + 1) x
            (itemChars layout (level + 1) xs (lineBreak layout level ++ ']' :: rest))
          simp only [List.length_append, List.length_cons] at hitems
          simp only [chars, List.length_append, List.length_cons]
          omega
  | obj members =>
      cases members with
      | nil =>
          simp only [chars, List.length_cons]
          omega
      | cons m ms =>
          obtain ⟨name, x⟩ := m
          have hmembers := length_le_memberChars layout (level + 1) ms
            (lineBreak layout level ++ '\x7d' :: rest)
          have hx := length_le_chars layout (level + 1) x
            (memberChars layout (level + 1) ms (lineBreak layout level ++ '\x7d' :: rest))
          simp only [List.length_append, List.length_cons] at hmembers
          simp only [chars, List.length_append, List.length_cons]
          omega

theorem length_le_itemChars (layout : Layout) (level : Nat) (items : List Json)
    (rest : List Char) : rest.length ≤ (itemChars layout level items rest).length := by
  cases items with
  | nil => exact Nat.le_refl _
  | cons x xs =>
      have hitems := length_le_itemChars layout level xs rest
      have hx := length_le_chars layout level x (itemChars layout level xs rest)
      simp only [itemChars, List.length_append]
      omega

theorem length_le_memberChars (layout : Layout) (level : Nat) (members : Members)
    (rest : List Char) : rest.length ≤ (memberChars layout level members rest).length := by
  cases members with
  | nil => exact Nat.le_refl _
  | cons m ms =>
      obtain ⟨name, x⟩ := m
      have hmembers := length_le_memberChars layout level ms rest
      have hx := length_le_chars layout level x (memberChars layout level ms rest)
      simp only [memberChars, List.length_append]
      omega

end

/-- The text of a value opens a value and is read as this one, with fuel for two steps per
character. -/
structure ReadBack (layout : Layout) (v : Json) : Prop where
  starts : ∀ level rest, Starts (chars layout level v rest)
  value_eq : ∀ {level rest fuel}, Ends rest → 2 * (chars layout level v rest).length ≤ fuel →
    value (fuel + 1) (chars layout level v rest) = .ok (v, rest)

/-- An item and those after it, up to the closing bracket. -/
theorem items_itemChars (hl : layout.Readable) {items : List Json} {v : Json}
    (hread : ∀ w ∈ v :: items, ReadBack layout w) (inner level : Nat) (rest : List Char)
    (acc : List Json) {fuel : Nat}
    (hfuel : 2 * (chars layout inner v
      (itemChars layout inner items (lineBreak layout level ++ ']' :: rest))).length + 2 ≤ fuel) :
    Parser.items fuel acc (chars layout inner v
        (itemChars layout inner items (lineBreak layout level ++ ']' :: rest))) =
      .ok (arr (acc.reverse ++ v :: items), rest) := by
  obtain ⟨bs, hcomma, hbs⟩ := hl.comma
  have hends : Ends (lineBreak layout level ++ ']' :: rest) :=
    ends_lineBreak layout level (.cons (by decide) rest)
  induction items generalizing v acc fuel with
  | nil =>
      obtain ⟨fuel, rfl⟩ := Nat.exists_eq_add_of_le' (Nat.le_of_add_left_le hfuel)
      exact items_last
        ((hread v List.mem_cons_self).value_eq hends (Nat.le_of_add_le_add_right hfuel))
        (skipBlanks_lineBreak layout level) acc
  | cons x xs ih =>
      obtain ⟨fuel, rfl⟩ := Nat.exists_eq_add_of_le' (Nat.le_of_add_left_le hfuel)
      let next := chars layout inner x
        (itemChars layout inner xs (lineBreak layout level ++ ']' :: rest))
      have hgap : skipBlanks (bs ++ lineBreak layout inner) = [] := by
        rw [skipBlanks_append hbs, skipBlanks_lineBreak]
      have htext : itemChars layout inner (x :: xs) (lineBreak layout level ++ ']' :: rest) =
          ',' :: (bs ++ lineBreak layout inner ++ next) := by
        rw [itemChars, hcomma]
        simp only [List.cons_append, next]
      have hfirst := (hread v List.mem_cons_self).value_eq
        (ends_itemChars hl inner (x :: xs) hends) (Nat.le_of_add_le_add_right hfuel)
      have hlength := length_le_chars layout inner v (',' :: (bs ++ lineBreak layout inner ++ next))
      rw [htext] at hfirst hfuel ⊢
      have hshorter : 2 * next.length + 2 ≤ fuel + 1 := by
        simp only [List.length_cons, List.length_append] at hlength
        omega
      rw [items_next hfirst hgap ((hread x (by simp)).starts _ _) acc,
        ih (fun w hw => hread w (List.mem_cons_of_mem v hw)) (v :: acc) hshorter,
        List.reverse_cons, List.append_assoc, List.singleton_append]

/-- A member at nesting level `level`, followed by `rest`. -/
def memberText (layout : Layout) (level : Nat) (m : String × Json) (rest : List Char) : List Char :=
  stringText false m.1 ++ (layout.colon.toList ++ chars layout level m.2 rest)

theorem chars_members (hl : layout.Readable) (level : Nat) (m : String × Json) (ms : Members)
    (rest : List Char) :
    chars layout level (obj (m :: ms)) rest =
      '\x7b' :: (lineBreak layout (level + 1) ++ memberText layout (level + 1) m
        (memberChars layout (level + 1) ms (lineBreak layout level ++ '\x7d' :: rest))) := by
  rw [chars, hl.plain]
  simp only [memberText, List.append_assoc]

theorem memberChars_cons (hl : layout.Readable) (level : Nat) (m : String × Json) (ms : Members)
    (rest : List Char) :
    memberChars layout level (m :: ms) rest =
      layout.comma.toList ++ lineBreak layout level ++
        memberText layout level m (memberChars layout level ms rest) := by
  rw [memberChars, hl.plain]
  simp only [memberText, List.append_assoc]

theorem starts_memberText (layout : Layout) (level : Nat) (m : String × Json) (rest : List Char) :
    Starts (memberText layout level m rest) := ⟨'"', _, rfl, by decide⟩

theorem length_chars_le_memberText (layout : Layout) (level : Nat) (m : String × Json)
    (rest : List Char) :
    (chars layout level m.2 rest).length ≤ (memberText layout level m rest).length :=
  (List.suffix_append _ _).length_le.trans (List.suffix_append _ _).length_le

/-- A member and those after it, up to the closing brace. -/
theorem members_memberText (hl : layout.Readable) {acc ms : Members} {m : String × Json}
    (hnodup : ((acc ++ m :: ms).map (·.1)).Nodup)
    (hread : ∀ m' ∈ m :: ms, ReadBack layout m'.2) (inner level : Nat) (rest : List Char)
    {fuel : Nat}
    (hfuel : 2 * (memberText layout inner m
      (memberChars layout inner ms (lineBreak layout level ++ '\x7d' :: rest))).length + 2 ≤ fuel) :
    Parser.members fuel acc (memberText layout inner m
        (memberChars layout inner ms (lineBreak layout level ++ '\x7d' :: rest))) =
      .ok (obj (acc ++ m :: ms), rest) := by
  obtain ⟨bs, hcomma, hbs⟩ := hl.comma
  obtain ⟨cs, hcolon, hcs⟩ := hl.colon
  have hends : Ends (lineBreak layout level ++ '\x7d' :: rest) :=
    ends_lineBreak layout level (.cons (by decide) rest)
  have hshape (m : String × Json) (text : List Char) : memberText layout inner m text =
      stringText false m.1 ++ ':' :: (cs ++ chars layout inner m.2 text) := by
    rw [memberText, hcolon, List.cons_append]
  induction ms generalizing m acc fuel with
  | nil =>
      obtain ⟨fuel, rfl⟩ := Nat.exists_eq_add_of_le' (Nat.le_of_add_left_le hfuel)
      have hself := hread m List.mem_cons_self
      have hlength := length_chars_le_memberText layout inner m
        (memberChars layout inner [] (lineBreak layout level ++ '\x7d' :: rest))
      rw [hshape]
      exact members_last (notMem_of_nodup hnodup) (hself.value_eq hends (by omega))
        (skipBlanks_lineBreak layout level) hcs (hself.starts _ _)
  | cons m' ms ih =>
      obtain ⟨fuel, rfl⟩ := Nat.exists_eq_add_of_le' (Nat.le_of_add_left_le hfuel)
      have hself := hread m List.mem_cons_self
      let next := memberText layout inner m'
        (memberChars layout inner ms (lineBreak layout level ++ '\x7d' :: rest))
      have hgap : skipBlanks (bs ++ lineBreak layout inner) = [] := by
        rw [skipBlanks_append hbs, skipBlanks_lineBreak]
      have htext : memberChars layout inner (m' :: ms) (lineBreak layout level ++ '\x7d' :: rest) =
          ',' :: (bs ++ lineBreak layout inner ++ next) := by
        rw [memberChars_cons hl, hcomma]
        simp only [List.cons_append, next]
      have hends' := ends_memberChars hl inner (m' :: ms) hends
      have hmember := length_chars_le_memberText layout inner m
        (',' :: (bs ++ lineBreak layout inner ++ next))
      have hlength := length_le_chars layout inner m.2
        (',' :: (bs ++ lineBreak layout inner ++ next))
      rw [htext] at hends' hfuel ⊢
      have hshorter : 2 * next.length + 2 ≤ fuel + 1 := by
        simp only [List.length_cons, List.length_append] at hlength
        omega
      rw [hshape, members_next (notMem_of_nodup hnodup) (hself.value_eq hends' (by omega)) hgap
        (starts_memberText layout inner m' _) hcs (hself.starts _ _)]
      rw [List.append_cons acc m (m' :: ms)] at hnodup ⊢
      exact ih hnodup (fun m'' hm => hread m'' (List.mem_cons_of_mem m hm)) hshorter

/-- A printed value is read as the value, with what follows it left. -/
theorem readBack_of_proper (hl : layout.Readable) {v : Json} (hv : v.Proper) :
    ReadBack layout v := by
  refine ⟨fun level rest => starts_chars hv layout level rest, ?_⟩
  induction hv with
  | null => exact fun _ _ => value_name (by simp [words]) _ _
  | bool b => cases b <;> exact fun _ _ => value_name (by simp [words]) _ _
  | int n => exact fun hrest _ => value_ofInt n hrest _
  | float hx => exact fun hrest _ => value_write hx hrest _
  | str s =>
      intro level rest fuel _ _
      rw [chars, hl.plain]
      exact value_stringText s rest fuel
  | @arr items hitems ih =>
      intro level rest fuel _ hfuel
      cases items with
      | nil => rfl
      | cons x xs =>
          rw [chars] at hfuel ⊢
          simp only [List.length_cons, List.length_append] at hfuel
          rw [value_bracket (skipBlanks_lineBreak layout _)
            (starts_chars (hitems x List.mem_cons_self) layout _ _)]
          exact items_itemChars hl (fun w hw => ⟨starts_chars (hitems w hw) layout, ih w hw⟩)
            (level + 1) level rest [] (by omega)
  | @obj members hnodup hmembers ih =>
      intro level rest fuel _ hfuel
      cases members with
      | nil => rfl
      | cons m ms =>
          rw [chars_members hl] at hfuel ⊢
          simp only [List.length_cons, List.length_append] at hfuel
          rw [value_brace (skipBlanks_lineBreak layout _) (starts_memberText layout _ _ _)]
          exact members_memberText hl hnodup
            (fun m' hm' => ⟨starts_chars (hmembers m' hm') layout, ih m' hm'⟩)
            (level + 1) level rest (by omega)

/-- A proper value is read back from its text. -/
theorem parse_render (hl : layout.Readable) {v : Json} (hv : v.Proper) :
    parse (v.render layout) = .ok v := by
  have hread := readBack_of_proper hl hv
  have hvalue : value (2 * (chars layout 0 v []).length + 2) (chars layout 0 v []) = .ok (v, []) :=
    hread.value_eq Ends.nil (Nat.le_succ _)
  rw [parse, render]
  simp only [String.toList_ofList]
  rw [(hread.starts 0 []).skipBlanks, hvalue]
  rfl

theorem render_injective (hl : layout.Readable) {v w : Json} (hv : v.Proper) (hw : w.Proper)
    (htext : v.render layout = w.render layout) : v = w := by
  have hread := parse_render hl hv
  rw [htext, parse_render hl hw] at hread
  exact (Except.ok.inj hread).symm

end RuleCanvas.Json
