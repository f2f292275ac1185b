import RuleCanvas.Proofs.Json.Members
import RuleCanvas.Proofs.Store.Step

/-! # The fields of a payload

A payload is read from an object with a field for each thing that it holds. Where all fields are
there, none is made up and none is left over: each is found again in the payload as it was given.
-/

namespace RuleCanvas

namespace Form

variable {α β : Type} {name other : String} {reader : Reader α} {members : Json.Members} {a : α}
  {b : β} {v : Json}

theorem both_eq_ok_iff {x : Checked α} {y : Checked β} :
    both x y = .ok (a, b) ↔ x = .ok a ∧ y = .ok b := by
  cases x <;> cases y <;> simp [both]

theorem noOthers_eq_ok {used : List String} {u : Unit} (hread : noOthers used members = .ok u) :
    ∀ m ∈ members, m.1 ∈ used := by
  intro m hm
  by_contra hother
  have hextra : m ∈ members.filter fun m => !used.contains m.1 :=
    List.mem_filter.mpr ⟨hm, by simpa using hother⟩
  rw [noOthers] at hread
  split at hread
  next hnone =>
    rw [hnone] at hextra
    cases hextra
  next => cases hread

/-- A field that is there has no need for its default. -/
theorem of_defaulted {default : α} (hread : defaulted name other default reader members = .ok a)
    (hv : Json.find? name members = some v) : reader v = .ok a := by
  rw [defaulted, present?, hv] at hread
  exact Desk.eq_ok_of_within hread

/-- A word is read as the thing that it names. -/
theorem eq_of_word {ofName? : String → Option α} {nameOf : α → String}
    (hname : ∀ s, ofName? s = some a → nameOf a = s) (hread : word ofName? v = .ok a) :
    v = .str (nameOf a) := by
  cases v with
  | str s =>
      unfold word at hread
      dsimp only at hread
      split at hread
      next hs =>
        cases hread
        rw [hname s hs]
      next => cases hread
  | null | bool | int | float | arr | obj => cases hread

/-- A text that has to be there is found under its name. -/
theorem find?_of_required_string {s : String} (hread : required name name string members = .ok s) :
    Json.find? name members = some (.str s) := by
  replace hread := Desk.eq_ok_of_within hread
  unfold present? at hread
  cases hfound : Json.find? name members with
  | none =>
      rw [hfound] at hread
      cases hread
  | some v =>
      rw [hfound] at hread
      cases v <;> cases hread
      rfl

end Form

theorem LogicOperator.symbol_of_ofSymbol? {s : String} {o : LogicOperator}
    (ho : ofSymbol? s = some o) : o.symbol = s := by
  unfold ofSymbol? at ho
  split at ho <;> cases ho <;> rfl

theorem CompareOperator.symbol_of_ofSymbol? {s : String} {o : CompareOperator}
    (ho : ofSymbol? s = some o) : o.symbol = s := by
  unfold ofSymbol? at ho
  split at ho <;> cases ho <;> rfl

theorem Literal.toJson_of_ofJson? {v : Json} {l : Literal} (hl : ofJson? v = some l) :
    l.toJson = v := by
  cases v <;> cases hl <;> rfl

theorem Literal.toJson_injective : Function.Injective Literal.toJson := by
  intro l l' hsame
  have hread := congrArg ofJson? hsame
  rw [ofJson?_toJson, ofJson?_toJson] at hread
  exact Option.some_inj.mp hread

/-- The names of the fields of a payload. -/
def NodeKind.fieldNames : NodeKind → List String
  | logic => ["operator"]
  | compare => ["operator"]
  | var => ["key"]
  | constant => ["valueType", "value"]
  | choice => []
  | result => []

namespace Payload

open Form

variable {kind : NodeKind} {members : Json.Members} {payload : Payload}

theorem names_fields (p : Payload) : p.fields.map (·.1) = p.kind.fieldNames := by cases p <;> rfl

theorem eq_of_readConcrete {v : Json} {type : ValueType} (hread : readConcrete v = .ok type) :
    v = .str type.name := by
  refine eq_of_word (fun s hs => ValueType.name_of_ofName? hs) ?_
  rw [readConcrete] at hread
  split at hread
  next => cases hread
  next => exact hread

theorem eq_of_readLiteral {v : Json} {l : Literal} (hread : readLiteral v = .ok l) :
    v = l.toJson := by
  rw [readLiteral] at hread
  split at hread
  next hl =>
    cases hread
    exact (Literal.toJson_of_ofJson? hl).symm
  next => cases hread

/-- A constant is read from a type and a literal of that type. -/
theorem readConstant_eq_ok (hread : readConstant members = .ok payload) :
    ∃ l, payload = .constant l ∧
      defaulted "valueType" "value_type" .number readConcrete members = .ok l.type ∧
      defaulted "value" "value" (.int 0) readLiteral members = .ok l ∧
      noOthers ["kind", ((present? "valueType" "value_type" members).map (·.1)).getD "valueType",
        "value"] members = .ok () := by
  rw [readConstant] at hread
  split at hread
  next => cases hread
  next declared l u hboth =>
    obtain ⟨hfields, hothers⟩ := both_eq_ok_iff.mp hboth
    obtain ⟨hdeclared, hliteral⟩ := both_eq_ok_iff.mp hfields
    split at hread
    next htype =>
      cases hread
      exact ⟨l, rfl, htype ▸ hdeclared, hliteral, hothers⟩
    next => cases hread

/-- What is read of a full set of fields has them as they were, and there are no others. -/
theorem fields_of_read (hread : Payload.read kind members = .ok payload)
    (hfull : ∀ name ∈ kind.fieldNames, ∃ v, Json.find? name members = some v) :
    (∀ name ∈ kind.fieldNames, Json.find? name payload.fields = Json.find? name members) ∧
      ∀ m ∈ members, m.1 = "kind" ∨ m.1 ∈ kind.fieldNames := by
  replace hread := Desk.eq_ok_of_within hread
  cases kind with
  | logic =>
      obtain ⟨⟨o, u⟩, hboth, rfl⟩ := Desk.exists_of_map_eq_ok hread
      obtain ⟨hoperator, hothers⟩ := both_eq_ok_iff.mp hboth
      obtain ⟨v, hv⟩ := hfull "operator" (by decide)
      have hword := of_defaulted hoperator hv
      obtain rfl := eq_of_word (fun s hs => LogicOperator.symbol_of_ofSymbol? hs) hword
      refine ⟨?_, fun m hm => by simpa [NodeKind.fieldNames] using noOthers_eq_ok hothers m hm⟩
      simp [NodeKind.fieldNames, hv, fields, Json.find?_cons]
  | compare =>
      obtain ⟨⟨o, u⟩, hboth, rfl⟩ := Desk.exists_of_map_eq_ok hread
      obtain ⟨hoperator, hothers⟩ := both_eq_ok_iff.mp hboth
      obtain ⟨v, hv⟩ := hfull "operator" (by decide)
      have hword := of_defaulted hoperator hv
      obtain rfl := eq_of_word (fun s hs => CompareOperator.symbol_of_ofSymbol? hs) hword
      refine ⟨?_, fun m hm => by simpa [NodeKind.fieldNames] using noOthers_eq_ok hothers m hm⟩
      simp [NodeKind.fieldNames, hv, fields, Json.find?_cons]
  | var =>
      obtain ⟨⟨key, u⟩, hboth, rfl⟩ := Desk.exists_of_map_eq_ok hread
      obtain ⟨hkey, hothers⟩ := both_eq_ok_iff.mp hboth
      refine ⟨?_, fun m hm => by simpa [NodeKind.fieldNames] using noOthers_eq_ok hothers m hm⟩
      simp [NodeKind.fieldNames, find?_of_required_string hkey, fields, Json.find?_cons]
  | constant =>
      obtain ⟨l, rfl, hdeclared, hliteral, hothers⟩ := readConstant_eq_ok hread
      obtain ⟨t, ht⟩ := hfull "valueType" (by decide)
      obtain ⟨v, hv⟩ := hfull "value" (by decide)
      obtain rfl := eq_of_readConcrete (of_defaulted hdeclared ht)
      obtain rfl := eq_of_readLiteral (of_defaulted hliteral hv)
      rw [present?, ht] at hothers
      refine ⟨?_, fun m hm => by simpa [NodeKind.fieldNames] using noOthers_eq_ok hothers m hm⟩
      simp [NodeKind.fieldNames, ht, hv, fields, Json.find?_cons]
  | choice =>
      obtain ⟨u, hothers, rfl⟩ := Desk.exists_of_map_eq_ok hread
      exact ⟨nofun, fun m hm => .inl (by simpa using noOthers_eq_ok hothers m hm)⟩
  | result =>
      obtain ⟨u, hothers, rfl⟩ := Desk.exists_of_map_eq_ok hread
      exact ⟨nofun, fun m hm => .inl (by simpa using noOthers_eq_ok hothers m hm)⟩

theorem find?_fields_eq_none_iff {name : String} {p : Payload} :
    Json.find? name p.fields = none ↔ name ∉ p.kind.fieldNames := by
  rw [Json.find?_eq_none_iff, p.names_fields]

/-- What is read of fields merged into those of a payload has each of them, and else the
fields of the payload. -/
theorem fields_of_merge {p : Payload} (hnodup : (members.map (·.1)).Nodup)
    (hread : Payload.read p.kind (Json.putAll p.fields members) = .ok payload) :
    (∀ name v, Json.find? name members = some v →
      name = "kind" ∨ Json.find? name payload.fields = some v) ∧
    ∀ name, Json.find? name members = none →
      Json.find? name payload.fields = Json.find? name p.fields := by
  have hmerged := fun name => Json.find?_putAll hnodup name p.fields
  -- The fields of the old payload are all there, so none has to be made up.
  have hfull : ∀ name ∈ p.kind.fieldNames, ∃ v,
      Json.find? name (Json.putAll p.fields members) = some v := by
    intro name hname
    rw [← Option.ne_none_iff_exists', hmerged, ne_eq, Option.or_eq_none_iff,
      find?_fields_eq_none_iff]
    exact fun hnone => hnone.2 hname
  obtain ⟨hfields, hothers⟩ := fields_of_read hread hfull
  refine ⟨fun name v hv => ?_, fun name hnone => ?_⟩
  · have hfound : Json.find? name (Json.putAll p.fields members) = some v := by
      rw [hmerged, hv, Option.some_or]
    refine (hothers _ (Json.mem_of_find?_eq_some hfound)).imp_right fun hname => ?_
    rw [hfields name hname, hfound]
  · by_cases hname : name ∈ p.kind.fieldNames
    · rw [hfields name hname, hmerged, hnone, Option.none_or]
    · rw [find?_fields_eq_none_iff.mpr hname, find?_fields_eq_none_iff, Desk.kind_of_read hread]
      exact hname

end Payload

end RuleCanvas
