import RuleCanvas.Proofs.Graph.Lookup
import RuleCanvas.Proofs.Rule.Typing

/-! # Checks that stay passed

A strict check accepts a rule only if the catalog has all of its variables. More variables change
nothing about it then, and neither does the lenient mode, in which a variable that is missing has
the type `any`: the rules of the document keep the types that the strict check found.
-/

namespace RuleCanvas

namespace Catalog

/-- The one catalog has every variable of the other, with the same type. The labels may differ. -/
def Extends (larger smaller : Catalog) : Prop :=
  ∀ e ∈ smaller.entries, ∃ f ∈ larger.entries, f.key = e.key ∧ f.type = e.type

theorem Extends.refl (c : Catalog) : c.Extends c := fun e he => ⟨e, he, rfl, rfl⟩

/-- An entry is found under its key, as no other entry has it. -/
theorem find?_of_mem {c : Catalog} {e : Entry} (he : e ∈ c.entries) : c.find? e.key = some e := by
  apply Graph.find?_eq_some_of_unique he (by simp)
  intro f hf hkey
  exact List.inj_on_of_nodup_map c.keys_nodup hf he (by simpa using hkey)

theorem typeOf_of_find? {c : Catalog} {key : String} {e : Entry} (hfind : c.find? key = some e) :
    c.typeOf key = e.type := by
  rw [typeOf, hfind]

theorem Extends.find? {larger smaller : Catalog} (hextends : larger.Extends smaller) {key : String}
    {e : Entry} (hfind : smaller.find? key = some e) :
    ∃ f, larger.find? key = some f ∧ f.type = e.type := by
  obtain ⟨f, hf, hkey, htype⟩ := hextends e (List.mem_of_find?_eq_some hfind)
  have hsame : e.key = key := by simpa using List.find?_some hfind
  exact ⟨f, hsame ▸ hkey ▸ find?_of_mem hf, htype⟩

/-- A larger catalog knows what a smaller one knows. -/
theorem Extends.contains {larger smaller : Catalog} (hextends : larger.Extends smaller)
    {key : String} (hkey : smaller.contains key = true) :
    larger.contains key = true ∧ larger.typeOf key = smaller.typeOf key := by
  obtain ⟨e, he⟩ := Option.isSome_iff_exists.mp hkey
  obtain ⟨f, hf, htype⟩ := hextends.find? he
  refine ⟨Option.isSome_iff_exists.mpr ⟨f, hf⟩, ?_⟩
  rw [typeOf_of_find? hf, typeOf_of_find? he, htype]

end Catalog

namespace Rule

/-- What has a type in strict mode has it in every context whose catalog is no smaller. -/
theorem Typed.extend {smaller : Catalog} {c : Context} (hextends : c.catalog.Extends smaller)
    {rule : Json} {type : ValueType} (htyped : Typed ⟨smaller, false⟩ rule type) :
    Typed c rule type := by
  induction htyped with
  | literal l => exact .literal l
  | var hkey hknown =>
      -- Only here is the catalog asked, and strict mode lets no unknown variable in.
      obtain ⟨hcontains, htype⟩ := hextends.contains (hknown.resolve_right Bool.false_ne_true)
      rw [← htype]
      exact .var hkey (.inl hcontains)
  | notSingle _ htype ih => exact .notSingle ih htype
  | notValue _ htype ih => exact .notValue ih htype
  | logic o ho _ _ hleft hright ihx ihy => exact .logic o ho ihx ihy hleft hright
  | compare o _ _ ihx ihy => exact .compare o ihx ihy
  | choice _ htype _ hnoTrue _ hnoFalse ihc iht ihf =>
      exact .choice ihc htype iht hnoTrue ihf hnoFalse

theorem check_extend {smaller : Catalog} {c : Context} (hextends : c.catalog.Extends smaller)
    {document : Json} {types : List ValueType}
    (hcheck : check ⟨smaller, false⟩ document = .ok types) : check c document = .ok types := by
  obtain ⟨rules, hrules, htyped⟩ := check_eq_ok_iff.mp hcheck
  exact check_eq_ok_iff.mpr ⟨rules, hrules, htyped.imp fun _ _ => Typed.extend hextends⟩

/-- Where the strict check against a catalog accepts a document, the strict check against a larger
catalog and the lenient checks against both accept it as well, and all find the same types. -/
theorem check_stable {larger smaller : Catalog} (hextends : larger.Extends smaller)
    {document : Json}
    {types : List ValueType} (hcheck : check ⟨smaller, false⟩ document = .ok types) :
    check ⟨larger, false⟩ document = .ok types ∧ check ⟨smaller, true⟩ document = .ok types ∧
      check ⟨larger, true⟩ document = .ok types :=
  ⟨check_extend hextends hcheck, check_extend (.refl smaller) hcheck, check_extend hextends hcheck⟩

/-- A choice between a number and a text, over a variable of which the larger
catalog has another label. -/
theorem check_stable_choice :
    let smaller : Catalog := ⟨[⟨"Shift", "shift", .string, by decide, by decide⟩,
      ⟨"On leave", "on_leave", .boolean, by decide, by decide⟩], by decide⟩
    let larger : Catalog := ⟨[⟨"Hours", "hours", .number, by decide, by decide⟩,
      ⟨"Absent", "on_leave", .boolean, by decide, by decide⟩,
      ⟨"Shift", "shift", .string, by decide, by decide⟩], by decide⟩
    let rule : Json := .obj [("if", .arr [.obj [("not", .obj [("var", .str "on_leave")])],
      .obj [("var", .arr [.str "shift", .null])], .int 0])]
    let document : Json := .obj [("status_rules", .arr [rule, .obj [("var", .str "shift")]])]
    larger.Extends smaller ∧ check ⟨smaller, false⟩ document = .ok [.any, .string] ∧
      check ⟨larger, false⟩ document = .ok [.any, .string] ∧
      check ⟨smaller, true⟩ document = .ok [.any, .string] ∧
      check ⟨larger, true⟩ document = .ok [.any, .string] := by
  intro smaller larger rule document
  have hextends : larger.Extends smaller := by simp [Catalog.Extends, larger, smaller]
  have hcheck : check ⟨smaller, false⟩ document = .ok [.any, .string] := by
    have hleave : smaller.contains "on_leave" = true ∧ smaller.typeOf "on_leave" = .boolean := by
      decide +kernel
    have hshift : smaller.contains "shift" = true ∧ smaller.typeOf "shift" = .string := by
      decide +kernel
    simp [rule, document, check, rulesOf, Json.find?, infer, inferBranch, variableType,
      variableKey?,
      hleave, hshift, CompareOperator.ofSymbol?, expectBoolean, joinType, bind, Except.bind, pure,
      Except.pure]
  exact ⟨hextends, hcheck, check_stable hextends hcheck⟩

end Rule

end RuleCanvas
