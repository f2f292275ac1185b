import RuleCanvas.Proofs.Rule.Plan
import RuleCanvas.Proofs.Store.Step
import RuleCanvas.Rule.Check

/-! # Types of rules

The check of a document computes the type of every rule or names the first thing that is wrong. Here
the types are given by laws instead, one for each shape of rule. A rule has a type by these laws
where the check answers it, whatever the path is that the rule stands at.
-/

namespace RuleCanvas.Rule

/-- Whether a rule of a type may stand where a boolean is asked for. -/
def FitsBoolean (type : ValueType) : Prop := type = .boolean ∨ type = .any

/-- The types of rules. A branch of a choice may also be `null`, and then has the type `any`. -/
inductive Typed (c : Context) : Json → ValueType → Prop
  | literal (l : Literal) : Typed c l.toJson l.type
  | var {args : Json} {key : String} (hkey : variableKey? args = some key)
      (hknown : c.catalog.contains key = true ∨ c.lenient = true) :
      Typed c (.obj [("var", args)]) (c.catalog.typeOf key)
  | notSingle {x : Json} {type : ValueType} (hx : Typed c x type) (htype : FitsBoolean type) :
      Typed c (.obj [("not", .arr [x])]) .boolean
  | notValue {x : Json} {type : ValueType} (hx : Typed c x type) (htype : FitsBoolean type) :
      Typed c (.obj [("not", x)]) .boolean
  | logic (o : LogicOperator) (ho : o ≠ .not) {x y : Json} {left right : ValueType}
      (hx : Typed c x left) (hy : Typed c y right) (hleft : FitsBoolean left)
      (hright : FitsBoolean right) : Typed c (.obj [(o.symbol, .arr [x, y])]) .boolean
  | compare (o : CompareOperator) {x y : Json} {left right : ValueType} (hx : Typed c x left)
      (hy : Typed c y right) : Typed c (.obj [(o.symbol, .arr [x, y])]) .boolean
  | choice {condition whenTrue whenFalse : Json} {type first second : ValueType}
      (hcondition : Typed c condition type) (htype : FitsBoolean type)
      (htrue : whenTrue ≠ .null → Typed c whenTrue first)
      (hnoTrue : whenTrue = .null → first = .any)
      (hfalse : whenFalse ≠ .null → Typed c whenFalse second)
      (hnoFalse : whenFalse = .null → second = .any) :
      Typed c (.obj [("if", .arr [condition, whenTrue, whenFalse])]) (joinType first second)

variable {c : Context} {path : String}

theorem Typed.ne_null {rule : Json} {type : ValueType} (htyped : Typed c rule type) :
    rule ≠ .null := by
  cases htyped with
  | literal l => cases l <;> simp [Literal.toJson]
  | _ => simp

theorem Typed.ne_arr {rule : Json} {type : ValueType} (htyped : Typed c rule type)
    (items : List Json) : rule ≠ .arr items := by
  cases htyped with
  | literal l => cases l <;> simp [Literal.toJson]
  | _ => simp

/-! ## What the check answers, by operator -/

theorem expectBoolean_eq_ok_iff {type : ValueType} {u : Unit} :
    expectBoolean type path = .ok u ↔ FitsBoolean type := by
  unfold expectBoolean
  split
  next htype => exact ⟨fun _ => htype, fun _ => rfl⟩
  next htype => exact ⟨nofun, fun hfits => absurd hfits htype⟩

theorem variableType_eq_ok_iff {args : Json} {type : ValueType} :
    variableType c args path = .ok type ↔
      ∃ key, variableKey? args = some key ∧
        (c.catalog.contains key = true ∨ c.lenient = true) ∧ type = c.catalog.typeOf key := by
  unfold variableType
  cases variableKey? args with
  | none => exact ⟨nofun, nofun⟩
  | some key =>
      dsimp only
      split
      next hknown =>
        rw [Bool.or_eq_true] at hknown
        constructor
        · intro hinfer
          cases hinfer
          exact ⟨key, rfl, hknown, rfl⟩
        · rintro ⟨_, hkey, _, rfl⟩
          cases hkey
          rfl
      next hunknown =>
        rw [Bool.or_eq_true] at hunknown
        constructor
        · nofun
        · rintro ⟨_, hkey, hknown, _⟩
          cases hkey
          exact absurd hknown hunknown

theorem infer_var (args : Json) :
    infer c (.obj [("var", args)]) path = variableType c args path := by
  rw [infer.eq_def]
  rfl

theorem infer_arr_ne_ok {items : List Json} {type : ValueType} :
    infer c (.arr items) path ≠ .ok type := by
  rw [infer.eq_def]
  nofun

theorem infer_not_eq_ok_iff {args : Json} {type : ValueType} :
    infer c (.obj [("not", args)]) path = .ok type ↔
      ∃ x operand, (args = .arr [x] ∨ args = x ∧ ∀ items, x ≠ .arr items) ∧
        infer c x (path ++ ".not") = .ok operand ∧ FitsBoolean operand ∧ type = .boolean := by
  rw [infer.eq_def]
  dsimp only
  rw [if_neg (by decide), if_pos rfl]
  constructor
  · intro hinfer
    split at hinfer
    next x =>
      obtain ⟨operand, hoperand, hinfer⟩ := bind_eq_ok_iff.mp hinfer
      obtain ⟨_, hexpect, hinfer⟩ := bind_eq_ok_iff.mp hinfer
      cases hinfer
      exact ⟨x, operand, .inl rfl, hoperand, expectBoolean_eq_ok_iff.mp hexpect, rfl⟩
    next =>
      obtain ⟨operand, hoperand, hinfer⟩ := bind_eq_ok_iff.mp hinfer
      obtain ⟨_, hexpect, hinfer⟩ := bind_eq_ok_iff.mp hinfer
      cases hinfer
      refine ⟨_, operand, .inr ⟨rfl, ?_⟩, hoperand, expectBoolean_eq_ok_iff.mp hexpect, rfl⟩
      rintro items rfl
      exact infer_arr_ne_ok hoperand
  · rintro ⟨x, operand, rfl | ⟨rfl, hvalue⟩, hoperand, hfits, rfl⟩
    · exact bind_eq_ok_iff.mpr
        ⟨operand, hoperand, bind_eq_ok_iff.mpr ⟨(), expectBoolean_eq_ok_iff.mpr hfits, rfl⟩⟩
    · split
      next x => exact absurd rfl (hvalue [x])
      next =>
        exact bind_eq_ok_iff.mpr
          ⟨operand, hoperand, bind_eq_ok_iff.mpr ⟨(), expectBoolean_eq_ok_iff.mpr hfits, rfl⟩⟩

theorem infer_logic_eq_ok_iff {o : LogicOperator} (ho : o ≠ .not) {args : Json} {type : ValueType} :
    infer c (.obj [(o.symbol, args)]) path = .ok type ↔
      ∃ x y left right, args = .arr [x, y] ∧ infer c x (itemPath path o.symbol 0) = .ok left ∧
        infer c y (itemPath path o.symbol 1) = .ok right ∧ FitsBoolean left ∧ FitsBoolean right ∧
        type = .boolean := by
  have hsymbol : o.symbol ≠ "var" ∧ o.symbol ≠ "not" ∧ (o.symbol = "and" ∨ o.symbol = "or") := by
    cases o with
    | not => exact absurd rfl ho
    | and | or => decide
  rw [infer.eq_def]
  dsimp only
  rw [if_neg hsymbol.1, if_neg hsymbol.2.1, if_pos hsymbol.2.2]
  constructor
  · intro hinfer
    split at hinfer
    next x y =>
      obtain ⟨left, hleft, hinfer⟩ := bind_eq_ok_iff.mp hinfer
      obtain ⟨right, hright, hinfer⟩ := bind_eq_ok_iff.mp hinfer
      obtain ⟨_, hexpectLeft, hinfer⟩ := bind_eq_ok_iff.mp hinfer
      obtain ⟨_, hexpectRight, hinfer⟩ := bind_eq_ok_iff.mp hinfer
      cases hinfer
      exact ⟨x, y, left, right, rfl, hleft, hright, expectBoolean_eq_ok_iff.mp hexpectLeft,
        expectBoolean_eq_ok_iff.mp hexpectRight, rfl⟩
    next => cases hinfer
  · rintro ⟨x, y, left, right, rfl, hleft, hright, hfitsLeft, hfitsRight, rfl⟩
    exact bind_eq_ok_iff.mpr ⟨left, hleft, bind_eq_ok_iff.mpr ⟨right, hright, bind_eq_ok_iff.mpr
      ⟨(), expectBoolean_eq_ok_iff.mpr hfitsLeft, bind_eq_ok_iff.mpr
        ⟨(), expectBoolean_eq_ok_iff.mpr hfitsRight, rfl⟩⟩⟩⟩

theorem infer_compare_eq_ok_iff {o : CompareOperator} {args : Json} {type : ValueType} :
    infer c (.obj [(o.symbol, args)]) path = .ok type ↔
      ∃ x y left right, args = .arr [x, y] ∧ infer c x (itemPath path o.symbol 0) = .ok left ∧
        infer c y (itemPath path o.symbol 1) = .ok right ∧ type = .boolean := by
  have hsymbol : o.symbol ≠ "var" ∧ o.symbol ≠ "not" ∧ ¬ (o.symbol = "and" ∨ o.symbol = "or") ∧
      (CompareOperator.ofSymbol? o.symbol).isSome = true := by
    cases o <;> decide
  rw [infer.eq_def]
  dsimp only
  rw [if_neg hsymbol.1, if_neg hsymbol.2.1, if_neg hsymbol.2.2.1, if_pos hsymbol.2.2.2]
  constructor
  · intro hinfer
    split at hinfer
    next x y =>
      obtain ⟨left, hleft, hinfer⟩ := bind_eq_ok_iff.mp hinfer
      obtain ⟨right, hright, hinfer⟩ := bind_eq_ok_iff.mp hinfer
      cases hinfer
      exact ⟨x, y, left, right, rfl, hleft, hright, rfl⟩
    next => cases hinfer
  · rintro ⟨x, y, left, right, rfl, hleft, hright, rfl⟩
    exact bind_eq_ok_iff.mpr ⟨left, hleft, bind_eq_ok_iff.mpr ⟨right, hright, rfl⟩⟩

theorem infer_choice_eq_ok_iff {args : Json} {type : ValueType} :
    infer c (.obj [("if", args)]) path = .ok type ↔
      ∃ condition whenTrue whenFalse tested first second,
        args = .arr [condition, whenTrue, whenFalse] ∧
        infer c condition (itemPath path "if" 0) = .ok tested ∧ FitsBoolean tested ∧
        inferBranch c whenTrue (itemPath path "if" 1) = .ok first ∧
        inferBranch c whenFalse (itemPath path "if" 2) = .ok second ∧
        type = joinType first second := by
  rw [infer.eq_def]
  dsimp only
  rw [if_neg (by decide), if_neg (by decide), if_neg (by decide), if_neg (by decide), if_pos rfl]
  constructor
  · intro hinfer
    split at hinfer
    next condition whenTrue whenFalse =>
      obtain ⟨tested, htested, hinfer⟩ := bind_eq_ok_iff.mp hinfer
      obtain ⟨_, hexpect, hinfer⟩ := bind_eq_ok_iff.mp hinfer
      obtain ⟨first, hfirst, hinfer⟩ := bind_eq_ok_iff.mp hinfer
      obtain ⟨second, hsecond, hinfer⟩ := bind_eq_ok_iff.mp hinfer
      cases hinfer
      exact ⟨condition, whenTrue, whenFalse, tested, first, second, rfl, htested,
        expectBoolean_eq_ok_iff.mp hexpect, hfirst, hsecond, rfl⟩
    next => cases hinfer
  · rintro ⟨condition, whenTrue, whenFalse, tested, first, second, rfl, htested, hfits, hfirst,
      hsecond, rfl⟩
    exact bind_eq_ok_iff.mpr ⟨tested, htested, bind_eq_ok_iff.mpr
      ⟨(), expectBoolean_eq_ok_iff.mpr hfits, bind_eq_ok_iff.mpr
        ⟨first, hfirst, bind_eq_ok_iff.mpr ⟨second, hsecond, rfl⟩⟩⟩⟩

theorem inferBranch_null (c : Context) (path : String) :
    inferBranch c .null path = .ok .any := by
  rw [inferBranch]

theorem inferBranch_of_ne {rule : Json} (hrule : rule ≠ .null) :
    inferBranch c rule path = infer c rule path := by
  cases rule with
  | null => exact absurd rfl hrule
  | bool _ | int _ | float _ | str _ | arr _ | obj _ => rw [inferBranch]; simp

/-! ## The laws are what the check answers -/

theorem infer_literal (l : Literal) : infer c l.toJson path = .ok l.type := by
  cases l <;> rw [Literal.toJson, infer.eq_def] <;> rfl

theorem typed_of_literal (l : Literal) {type : ValueType}
    (hinfer : infer c l.toJson path = .ok type) : Typed c l.toJson type := by
  rw [infer_literal] at hinfer
  cases hinfer
  exact .literal l

theorem infer_typed {rule : Json} {path : String} {type : ValueType}
    (hinfer : infer c rule path = .ok type) : Typed c rule type := by
  match rule with
  | .null | .arr _ | .obj [] | .obj (_ :: _ :: _) =>
      rw [infer.eq_def] at hinfer
      cases hinfer
  | .bool b => exact typed_of_literal (.bool b) hinfer
  | .int n => exact typed_of_literal (.int n) hinfer
  | .float x => exact typed_of_literal (.float x) hinfer
  | .str s => exact typed_of_literal (.str s) hinfer
  | .obj [(operator, args)] =>
      cases Plan.operatorView operator with
      | var =>
          rw [infer_var] at hinfer
          obtain ⟨key, hkey, hknown, rfl⟩ := variableType_eq_ok_iff.mp hinfer
          exact .var hkey hknown
      | not =>
          obtain ⟨x, operand, rfl | ⟨rfl, _⟩, hoperand, hfits, rfl⟩ := infer_not_eq_ok_iff.mp hinfer
          · exact .notSingle (infer_typed hoperand) hfits
          · exact .notValue (infer_typed hoperand) hfits
      | logic o ho =>
          obtain ⟨x, y, left, right, rfl, hleft, hright, hfitsLeft, hfitsRight, rfl⟩ :=
            (infer_logic_eq_ok_iff ho).mp hinfer
          exact .logic o ho (infer_typed hleft) (infer_typed hright) hfitsLeft hfitsRight
      | compare o =>
          obtain ⟨x, y, left, right, rfl, hleft, hright, rfl⟩ := infer_compare_eq_ok_iff.mp hinfer
          exact .compare o (infer_typed hleft) (infer_typed hright)
      | choice =>
          obtain ⟨condition, whenTrue, whenFalse, tested, first, second, rfl, htested, hfits,
            hfirst, hsecond, rfl⟩ := infer_choice_eq_ok_iff.mp hinfer
          refine .choice (infer_typed htested) hfits (fun htrue => ?_) (fun htrue => ?_)
            (fun hfalse => ?_) (fun hfalse => ?_)
          · rw [inferBranch_of_ne htrue] at hfirst
            exact infer_typed hfirst
          · rw [htrue, inferBranch_null] at hfirst
            exact (Except.ok.inj hfirst).symm
          · rw [inferBranch_of_ne hfalse] at hsecond
            exact infer_typed hsecond
          · rw [hfalse, inferBranch_null] at hsecond
            exact (Except.ok.inj hsecond).symm
      | unknown _ hvar hnot hand hor hchoice hcompare =>
          rw [infer.eq_def] at hinfer
          simp [hvar, hnot, hand, hor, hchoice, hcompare] at hinfer

theorem Typed.infer_eq {rule : Json} {type : ValueType} (htyped : Typed c rule type)
    (path : String) : infer c rule path = .ok type := by
  induction htyped generalizing path with
  | literal l => exact infer_literal l
  | var hkey hknown =>
      rw [infer_var]
      exact variableType_eq_ok_iff.mpr ⟨_, hkey, hknown, rfl⟩
  | notSingle _ htype ih =>
      exact infer_not_eq_ok_iff.mpr ⟨_, _, .inl rfl, ih _, htype, rfl⟩
  | notValue hx htype ih =>
      exact infer_not_eq_ok_iff.mpr ⟨_, _, .inr ⟨rfl, hx.ne_arr⟩, ih _, htype, rfl⟩
  | logic o ho _ _ hleft hright ihx ihy =>
      exact (infer_logic_eq_ok_iff ho).mpr ⟨_, _, _, _, rfl, ihx _, ihy _, hleft, hright, rfl⟩
  | compare o _ _ ihx ihy =>
      exact infer_compare_eq_ok_iff.mpr ⟨_, _, _, _, rfl, ihx _, ihy _, rfl⟩
  | @choice condition whenTrue whenFalse type first second _ htype _ hnoTrue _ hnoFalse ihc iht
    ihf =>
      have hfirst : inferBranch c whenTrue (itemPath path "if" 1) = .ok first := by
        by_cases hnull : whenTrue = .null
        · rw [hnull, inferBranch_null, hnoTrue hnull]
        · rw [inferBranch_of_ne hnull, iht hnull]
      have hsecond : inferBranch c whenFalse (itemPath path "if" 2) = .ok second := by
        by_cases hnull : whenFalse = .null
        · rw [hnull, inferBranch_null, hnoFalse hnull]
        · rw [inferBranch_of_ne hnull, ihf hnull]
      exact infer_choice_eq_ok_iff.mpr
        ⟨_, _, _, _, _, _, rfl, ihc _, htype, hfirst, hsecond, rfl⟩

/-- The check of a rule answers the type that the laws give it, wherever the rule stands. -/
theorem infer_eq_ok_iff {rule : Json} {type : ValueType} :
    infer c rule path = .ok type ↔ Typed c rule type :=
  ⟨infer_typed, fun htyped => htyped.infer_eq path⟩

/-! ## Documents -/

theorem mapM_eq_ok_iff {α β ε : Type} {f : α → Except ε β} {xs : List α} {ys : List β} :
    xs.mapM f = .ok ys ↔ List.Forall₂ (fun x y => f x = .ok y) xs ys := by
  induction xs generalizing ys with
  | nil =>
      rw [List.mapM_nil, List.forall₂_nil_left_iff]
      exact ⟨fun hmap => (Except.ok.inj hmap).symm, fun hnil => hnil ▸ rfl⟩
  | cons x xs ih =>
      rw [List.mapM_cons, bind_eq_ok_iff, List.forall₂_cons_left_iff]
      constructor
      · rintro ⟨y, hy, hmap⟩
        obtain ⟨rest, hrest, hmap⟩ := bind_eq_ok_iff.mp hmap
        exact ⟨y, rest, hy, ih.mp hrest, (Except.ok.inj hmap).symm⟩
      · rintro ⟨y, rest, hy, hrest, rfl⟩
        exact ⟨y, hy, bind_eq_ok_iff.mpr ⟨rest, ih.mpr hrest, rfl⟩⟩

/-- A document is accepted if it has a list of rules that the laws give types, and then
these are the answer. -/
theorem check_eq_ok_iff {document : Json} {types : List ValueType} :
    check c document = .ok types ↔
      ∃ rules, rulesOf document = .ok rules ∧ List.Forall₂ (Typed c) rules types := by
  have hrules : ∀ rules : List Json,
      (rules.zipIdx.mapM fun r => infer c r.1 (rulePath r.2)) = .ok types ↔
        List.Forall₂ (Typed c) rules types := by
    intro rules
    rw [mapM_eq_ok_iff]
    conv_rhs => rw [← List.zipIdx_map_fst 0 rules, List.forall₂_map_left_iff]
    simp only [infer_eq_ok_iff]
  rw [check, bind_eq_ok_iff]
  exact exists_congr fun rules => and_congr_right fun _ => hrules rules

end RuleCanvas.Rule
