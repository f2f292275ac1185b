import Mathlib.Data.List.Forall2
import Mathlib.Data.List.Nodup
import Mathlib.Data.List.Perm.Basic
import RuleCanvas.Json.Printer
import RuleCanvas.Proofs.Json.Parsed

/-! # Canonical text identifies a value up to the order of members

`Reordered` rearranges the members of objects at any depth and touches nothing else. A proper value
is a reordering of its canonical form, and reorderings have one canonical form, because the members
of an object are sorted by names that are all different. As text is read back, two proper values
have the same canonical text exactly if they are reorderings of each other.
-/

namespace RuleCanvas.Json

/-! ## Reordering -/

/-- Equality up to the order of the members of objects, at every depth. -/
inductive Reordered : Json → Json → Prop
  | refl (v : Json) : Reordered v v
  | trans {u v w : Json} (huv : Reordered u v) (hvw : Reordered v w) : Reordered u w
  | perm {ms ms' : Members} (hperm : ms.Perm ms') : Reordered (obj ms) (obj ms')
  | item (before after : List Json) {v w : Json} (h : Reordered v w) :
      Reordered (arr (before ++ v :: after)) (arr (before ++ w :: after))
  | member (before after : Members) (name : String) {v w : Json} (h : Reordered v w) :
      Reordered (obj (before ++ (name, v) :: after)) (obj (before ++ (name, w) :: after))

namespace Reordered

variable {v w : Json}

theorem symm (h : Reordered v w) : Reordered w v := by
  induction h with
  | refl v => exact .refl v
  | trans _ _ huv hvw => exact hvw.trans huv
  | perm hperm => exact .perm hperm.symm
  | item before after _ ih => exact .item before after ih
  | member before after name _ ih => exact .member before after name ih

/-- What is neither a list nor an object is kept, so an integer, a binary64 number and a boolean of
one value are kept apart. -/
theorem eq_of_isKey (h : Reordered v w) (hkey : v.isKey = true) : w = v := by
  induction h with
  | refl => rfl
  | trans _ _ huv hvw =>
      obtain rfl := huv hkey
      exact hvw hkey
  | perm => cases hkey
  | item => cases hkey
  | member => cases hkey

theorem items_trans {xs ys zs : List Json} (hxy : List.Forall₂ Reordered xs ys)
    (hyz : List.Forall₂ Reordered ys zs) : List.Forall₂ Reordered xs zs := by
  induction hxy generalizing zs with
  | nil => exact hyz
  | cons hxy _ ih =>
      cases hyz with
      | cons hyz hrest => exact .cons (hxy.trans hyz) (ih hrest)

/-- A list keeps its order. -/
theorem items_forall₂ {xs : List Json} (h : Reordered (arr xs) w) :
    ∃ ys, w = arr ys ∧ List.Forall₂ Reordered xs ys := by
  generalize hv : arr xs = v at h
  induction h generalizing xs with
  | refl => exact ⟨xs, hv.symm, List.forall₂_same.mpr fun x _ => .refl x⟩
  | trans _ _ huv hvw =>
      obtain ⟨ys, rfl, hys⟩ := huv hv
      obtain ⟨zs, rfl, hzs⟩ := hvw rfl
      exact ⟨zs, rfl, items_trans hys hzs⟩
  | perm => cases hv
  | item before after h =>
      cases hv
      exact ⟨_, rfl, List.rel_append (List.forall₂_same.mpr fun x _ => .refl x)
        (.cons h (List.forall₂_same.mpr fun x _ => .refl x))⟩
  | member => cases hv

/-- An object keeps its names, and under each name a reordering of what it holds there. -/
theorem members_perm {ms : Members} (h : Reordered (obj ms) w) :
    ∃ ms', w = obj ms' ∧ (ms.map (·.1)).Perm (ms'.map (·.1)) ∧
      ∀ m ∈ ms, ∃ u, (m.1, u) ∈ ms' ∧ Reordered m.2 u := by
  generalize hv : obj ms = v at h
  induction h generalizing ms with
  | refl => exact ⟨ms, hv.symm, .refl _, fun m hm => ⟨m.2, hm, .refl _⟩⟩
  | trans _ _ huv hvw =>
      obtain ⟨ms', rfl, hnames, hvalues⟩ := huv hv
      obtain ⟨ms'', rfl, hnames', hvalues'⟩ := hvw rfl
      refine ⟨ms'', rfl, hnames.trans hnames', fun m hm => ?_⟩
      obtain ⟨u, hu, hmu⟩ := hvalues m hm
      obtain ⟨u', hu', huu'⟩ := hvalues' (m.1, u) hu
      exact ⟨u', hu', hmu.trans huu'⟩
  | perm hperm =>
      cases hv
      exact ⟨_, rfl, hperm.map _, fun m hm => ⟨m.2, hperm.mem_iff.mp hm, .refl _⟩⟩
  | item => cases hv
  | @member before after name x y h =>
      cases hv
      refine ⟨_, rfl, by simp, fun m hm => ?_⟩
      rw [List.mem_append, List.mem_cons] at hm
      rcases hm with hm | rfl | hm
      · exact ⟨m.2, List.mem_append_left _ hm, .refl _⟩
      · exact ⟨y, List.mem_append_right _ List.mem_cons_self, h⟩
      · exact ⟨m.2, List.mem_append_right _ (List.mem_cons_of_mem _ hm), .refl _⟩

theorem proper (h : Reordered v w) (hv : v.Proper) : w.Proper := by
  induction h with
  | refl => exact hv
  | trans _ _ huv hvw => exact hvw (huv hv)
  | perm hperm =>
      cases hv with
      | obj hnodup hmembers =>
          exact .obj ((hperm.map _).nodup_iff.mp hnodup)
            fun m hm => hmembers m (hperm.mem_iff.mpr hm)
  | item before after _ ih =>
      cases hv with
      | arr hitems =>
          rw [List.forall_mem_append, List.forall_mem_cons] at hitems
          refine .arr ?_
          rw [List.forall_mem_append, List.forall_mem_cons]
          exact ⟨hitems.1, ih hitems.2.1, hitems.2.2⟩
  | member before after name _ ih =>
      cases hv with
      | obj hnodup hmembers =>
          rw [List.forall_mem_append, List.forall_mem_cons] at hmembers
          refine .obj (by simpa using hnodup) ?_
          rw [List.forall_mem_append, List.forall_mem_cons]
          exact ⟨hmembers.1, ih hmembers.2.1, hmembers.2.2⟩

end Reordered

/-! ## The canonical form -/

theorem canonicalItems_eq (items : List Json) : canonicalItems items = items.map canonical := by
  induction items with
  | nil => rfl
  | cons x xs ih => rw [canonicalItems, ih, List.map_cons]

theorem canonicalMembers_eq (members : Members) :
    canonicalMembers members = members.map fun m => (m.1, m.2.canonical) := by
  induction members with
  | nil => rfl
  | cons m ms ih => rw [canonicalMembers, ih, List.map_cons]

theorem sortMembers_perm (members : Members) : (sortMembers members).Perm members :=
  List.mergeSort_perm _ _

theorem sortMembers_pairwise (members : Members) :
    (sortMembers members).Pairwise fun m n => m.1 ≤ n.1 := by
  have htrans (k l m : String × Json) (hkl : decide (k.1 ≤ l.1) = true)
      (hlm : decide (l.1 ≤ m.1) = true) : decide (k.1 ≤ m.1) = true :=
    decide_eq_true (String.le_trans (of_decide_eq_true hkl) (of_decide_eq_true hlm))
  have htotal (m n : String × Json) : (decide (m.1 ≤ n.1) || decide (n.1 ≤ m.1)) = true := by
    simpa using String.le_total m.1 n.1
  exact (List.pairwise_mergeSort htrans htotal members).imp of_decide_eq_true

/-- Sorting forgets an order of members whose names all differ. -/
theorem sortMembers_eq_of_perm {ms ms' : Members} (hperm : ms.Perm ms')
    (hnodup : (ms.map (·.1)).Nodup) : sortMembers ms = sortMembers ms' := by
  have hsorted : (sortMembers ms).Perm (sortMembers ms') :=
    ((sortMembers_perm ms).trans hperm).trans (sortMembers_perm ms').symm
  refine hsorted.eq_of_pairwise (fun m n hm hn hle hge => ?_) (sortMembers_pairwise ms)
    (sortMembers_pairwise ms')
  have hn' := hsorted.mem_iff.mpr hn
  exact List.inj_on_of_nodup_map hnodup ((sortMembers_perm ms).mem_iff.mp hm)
    ((sortMembers_perm ms).mem_iff.mp hn') (String.le_antisymm hle hge)

/-- Reorderings have one canonical form. -/
theorem Reordered.canonical_eq {v w : Json} (h : Reordered v w) (hv : v.Proper) :
    v.canonical = w.canonical := by
  induction h with
  | refl => rfl
  | trans huv _ ihuv ihvw => exact (ihuv hv).trans (ihvw (huv.proper hv))
  | perm hperm =>
      cases hv with
      | obj hnodup _ =>
          rw [canonical, canonical, canonicalMembers_eq, canonicalMembers_eq]
          refine congrArg obj (sortMembers_eq_of_perm (hperm.map _) ?_)
          rw [List.map_map]
          exact hnodup
  | item before after _ ih =>
      cases hv with
      | arr hitems =>
          simp only [canonical, canonicalItems_eq, List.map_append, List.map_cons,
            ih (hitems _ (by simp))]
  | member before after name _ ih =>
      cases hv with
      | obj _ hmembers =>
          simp only [canonical, canonicalMembers_eq, List.map_append, List.map_cons,
            ih (hmembers (name, _) (by simp))]

/-- Items are reordered one after the other. -/
theorem reordered_map_items (f : Json → Json) (before : List Json) {items : List Json}
    (h : ∀ v ∈ items, Reordered v (f v)) :
    Reordered (arr (before ++ items)) (arr (before ++ items.map f)) := by
  induction items generalizing before with
  | nil => exact .refl _
  | cons x xs ih =>
      have hrest := ih (before ++ [f x]) fun v hv => h v (List.mem_cons_of_mem x hv)
      rw [← List.append_cons, ← List.append_cons] at hrest
      exact (Reordered.item before xs (h x List.mem_cons_self)).trans hrest

theorem reordered_map_members (f : Json → Json) (before : Members) {members : Members}
    (h : ∀ m ∈ members, Reordered m.2 (f m.2)) :
    Reordered (obj (before ++ members)) (obj (before ++ members.map fun m => (m.1, f m.2))) := by
  induction members generalizing before with
  | nil => exact .refl _
  | cons m ms ih =>
      have hrest := ih (before ++ [(m.1, f m.2)]) fun m' hm' => h m' (List.mem_cons_of_mem m hm')
      rw [← List.append_cons, ← List.append_cons] at hrest
      exact (Reordered.member before ms m.1 (h m List.mem_cons_self)).trans hrest

/-- A proper value is a reordering of its canonical form. -/
theorem Proper.reordered_canonical {v : Json} (hv : v.Proper) : Reordered v v.canonical := by
  induction hv with
  | null => exact .refl _
  | bool => exact .refl _
  | int => exact .refl _
  | float => exact .refl _
  | str => exact .refl _
  | arr _ ih =>
      rw [canonical, canonicalItems_eq]
      exact reordered_map_items canonical [] ih
  | obj _ _ ih =>
      rw [canonical, canonicalMembers_eq]
      exact (reordered_map_members canonical [] ih).trans (.perm (sortMembers_perm _).symm)

theorem canonical_eq_iff {v w : Json} (hv : v.Proper) (hw : w.Proper) :
    v.canonical = w.canonical ↔ Reordered v w := by
  refine ⟨fun heq => ?_, fun h => h.canonical_eq hv⟩
  have hback := hw.reordered_canonical.symm
  rw [← heq] at hback
  exact hv.reordered_canonical.trans hback

theorem render_canonical_eq_iff {layout : Layout} (hl : layout.Readable) {v w : Json}
    (hv : v.Proper) (hw : w.Proper) :
    v.canonical.render layout = w.canonical.render layout ↔ Reordered v w := by
  rw [← canonical_eq_iff hv hw]
  refine ⟨fun htext => ?_, fun heq => by rw [heq]⟩
  exact render_injective hl (hv.reordered_canonical.proper hv) (hw.reordered_canonical.proper hw)
    htext

theorem Reordered.fingerprint_eq {v w : Json} (h : Reordered v w) (hv : v.Proper) :
    v.fingerprint = w.fingerprint := by
  rw [fingerprint, fingerprint, canonicalText, canonicalText, h.canonical_eq hv]

/-- Both canonical texts tell two proper values apart exactly if these differ in more than the order
of object members. -/
theorem canonicalText_eq_iff {v w : Json} (hv : v.Proper) (hw : w.Proper) :
    (v.canonicalText = w.canonicalText ↔ Reordered v w) ∧
      (v.prettyText = w.prettyText ↔ Reordered v w) :=
  ⟨render_canonical_eq_iff Layout.readable_compact hv hw,
    render_canonical_eq_iff Layout.readable_pretty hv hw⟩

/-- Members that change places at two depths are not seen in the text, an integer and a
binary64 number that do are. -/
theorem canonicalText_eq_iff_swapped :
    let one : Double := ⟨0x3ff0000000000000⟩
    let plus : String × Json := ("y", float (Double.zero false))
    let minus : String × Json := ("x", float (Double.zero true))
    let v := obj [("b", arr [int 1, float one, bool true]), ("a", obj [plus, minus])]
    let w := obj [("a", obj [minus, plus]), ("b", arr [int 1, float one, bool true])]
    let u := obj [("b", arr [float one, int 1, bool true]), ("a", obj [plus, minus])]
    (v.Proper ∧ w.Proper ∧ u.Proper) ∧
      (v.canonicalText = w.canonicalText ∧ v.prettyText = w.prettyText) ∧
      (v.canonicalText ≠ u.canonicalText ∧ v.prettyText ≠ u.prettyText) := by
  intro one plus minus v w u
  have hone : Proper (float one) := .float (by decide)
  have hzeros : Proper (obj [plus, minus]) := .obj (by decide) (by
    rw [List.forall_mem_cons, List.forall_mem_singleton]
    exact ⟨.float (by decide), .float (by decide)⟩)
  have hv : v.Proper := .obj (by decide) (by
    rw [List.forall_mem_cons, List.forall_mem_singleton]
    refine ⟨.arr ?_, hzeros⟩
    rw [List.forall_mem_cons, List.forall_mem_cons, List.forall_mem_singleton]
    exact ⟨.int 1, hone, .bool true⟩)
  have hu : u.Proper := .obj (by decide) (by
    rw [List.forall_mem_cons, List.forall_mem_singleton]
    refine ⟨.arr ?_, hzeros⟩
    rw [List.forall_mem_cons, List.forall_mem_cons, List.forall_mem_singleton]
    exact ⟨hone, .int 1, .bool true⟩)
  have hvw : Reordered v w :=
    (Reordered.perm (.swap _ _ _)).trans (.member [] _ "a" (.perm (.swap _ _ _)))
  have hvu : ¬ Reordered v u := by
    intro h
    obtain ⟨ms, hms, _, hvalues⟩ := h.members_perm
    obtain rfl := obj.inj hms
    obtain ⟨x, hx, hlist⟩ := hvalues ("b", _) List.mem_cons_self
    obtain ⟨ys, rfl, hitems⟩ := hlist.items_forall₂
    simp only [List.mem_cons, Prod.mk.injEq, List.not_mem_nil, or_false] at hx
    obtain ⟨_, hx⟩ | ⟨hname, _⟩ := hx
    · cases hx
      cases hitems with
      | cons hfirst _ => cases hfirst.eq_of_isKey rfl
    · exact absurd hname (by decide)
  have hsame := canonicalText_eq_iff hv (hvw.proper hv)
  have hother := canonicalText_eq_iff hv hu
  exact ⟨⟨hv, hvw.proper hv, hu⟩, ⟨hsame.1.mpr hvw, hsame.2.mpr hvw⟩,
    fun htext => hvu (hother.1.mp htext), fun htext => hvu (hother.2.mp htext)⟩

end RuleCanvas.Json
