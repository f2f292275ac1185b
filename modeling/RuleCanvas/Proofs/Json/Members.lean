import Mathlib.Data.List.Nodup
import RuleCanvas.Json.Basic

/-! # Reading members

What is found under a name after members were written, taken away or merged, and
which names there are then.
-/

namespace RuleCanvas.Json

variable {name other : String} {v : Json} {members : Members}

/-! ## Values -/

theorem find?_cons (name other : String) (v : Json) (rest : Members) :
    find? name ((other, v) :: rest) = if other = name then some v else find? name rest := by
  by_cases heq : other = name <;> simp [find?, heq]

theorem find?_put (name other : String) (v : Json) (members : Members) :
    find? name (put other v members) = if other = name then some v else find? name members := by
  induction members with
  | nil => rw [put, find?_cons]
  | cons m rest ih =>
      obtain ⟨n, w⟩ := m
      rw [put]
      split
      next hsame =>
        subst hsame
        rw [find?_cons, find?_cons]
        split <;> rfl
      next hother =>
        rw [find?_cons, find?_cons, ih]
        -- The member in front is not the one that is written.
        by_cases hn : n = name
        · rw [if_pos hn, if_pos hn, if_neg fun h => hother (hn.trans h.symm)]
        · rw [if_neg hn, if_neg hn]

theorem find?_put_of_ne (hne : other ≠ name) (v : Json) (members : Members) :
    find? name (put other v members) = find? name members := by
  rw [find?_put, if_neg hne]

theorem find?_remove (name other : String) (members : Members) :
    find? name (remove other members) = if other = name then none else find? name members := by
  induction members with
  | nil => simp [remove, find?]
  | cons m rest ih =>
      obtain ⟨n, w⟩ := m
      by_cases hn : n = other
      · rw [show remove other ((n, w) :: rest) = remove other rest by simp [remove, hn], ih,
          find?_cons, hn]
        split <;> rfl
      · rw [show remove other ((n, w) :: rest) = (n, w) :: remove other rest by simp [remove, hn],
          find?_cons, find?_cons, ih]
        by_cases hname : n = name
        · rw [if_pos hname, if_pos hname, if_neg fun h => hn (hname.trans h.symm)]
        · rw [if_neg hname, if_neg hname]

/-- Members without a name leave the value under it as it was. -/
theorem find?_putAll_of_none (hnone : find? name members = none) (base : Members) :
    find? name (putAll base members) = find? name base := by
  induction members generalizing base with
  | nil => rfl
  | cons m rest ih =>
      obtain ⟨n, v⟩ := m
      rw [find?_cons] at hnone
      split at hnone
      next => cases hnone
      next hne => exact (ih hnone (put n v base)).trans (find?_put_of_ne hne v base)

/-! ## Names -/

theorem find?_eq_none_iff : find? name members = none ↔ name ∉ members.map (·.1) := by
  rw [find?, Option.map_eq_none_iff, List.find?_eq_none]
  constructor
  · intro hnone hmem
    obtain ⟨m, hm, rfl⟩ := List.mem_map.mp hmem
    exact hnone m hm (by simp)
  · intro hnone m hm heq
    exact hnone (List.mem_map.mpr ⟨m, hm, by simpa using heq⟩)

theorem mem_of_find?_eq_some (hfound : find? name members = some v) : (name, v) ∈ members := by
  obtain ⟨⟨n, w⟩, hmem, rfl⟩ := Option.map_eq_some_iff.mp hfound
  obtain rfl : n = name := by simpa using List.find?_some hmem
  exact List.mem_of_find?_eq_some hmem

theorem names_put (name : String) (v : Json) (members : Members) :
    (put name v members).map (·.1) =
      if name ∈ members.map (·.1) then members.map (·.1) else members.map (·.1) ++ [name] := by
  induction members with
  | nil => rfl
  | cons m rest ih =>
      obtain ⟨n, w⟩ := m
      rw [put]
      by_cases hn : n = name
      · simp [hn]
      · rw [if_neg hn, List.map_cons, ih]
        by_cases hmem : name ∈ rest.map (·.1) <;> simp [hmem, Ne.symm hn]

theorem nodup_put (hnodup : (members.map (·.1)).Nodup) (name : String) (v : Json) :
    ((put name v members).map (·.1)).Nodup := by
  rw [names_put]
  split
  next => exact hnodup
  next hnew => exact List.Nodup.append hnodup (List.nodup_singleton _) (by simpa using hnew)

theorem nodup_remove (hnodup : (members.map (·.1)).Nodup) (name : String) :
    ((remove name members).map (·.1)).Nodup := hnodup.sublist (List.filter_sublist.map _)

/-- Of two values under one name, a merge has the new one. -/
theorem find?_putAll (hnodup : (members.map (·.1)).Nodup) (name : String) (base : Members) :
    find? name (putAll base members) = (find? name members).or (find? name base) := by
  induction members generalizing base with
  | nil => rfl
  | cons m rest ih =>
      obtain ⟨n, v⟩ := m
      obtain ⟨hnew, hrest⟩ := List.nodup_cons.mp hnodup
      have hmerge : putAll base ((n, v) :: rest) = putAll (put n v base) rest := rfl
      rw [hmerge, ih hrest, find?_put, find?_cons]
      split
      next hn =>
        -- The name does not come again, so what was written first stays.
        subst hn
        rw [find?_eq_none_iff.mpr hnew]
        rfl
      next => rfl

end RuleCanvas.Json
