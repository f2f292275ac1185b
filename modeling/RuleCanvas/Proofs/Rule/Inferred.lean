import RuleCanvas.Proofs.Rule.Compile
import RuleCanvas.Proofs.Rule.Typing
import RuleCanvas.Proofs.Store.Reachable

/-! # The types of compiled rules

A store checks an edge by the types of two ports, and the output of a choice has the type `any`. The
check of rules joins the types of the branches instead. So a graph compiles to rules that the check
accepts unless a choice feeds a boolean input and its branches agree on a type that is not boolean.
-/

namespace RuleCanvas

open Relation

/-! ## Rules with one type -/

namespace Rule

/-- A rule that has the one type and no other, if the condition holds, and else has none. -/
def Judged (c : Context) (rule : Json) (type : ValueType) (condition : Prop) : Prop :=
  ∀ other, Typed c rule other ↔ other = type ∧ condition

/-- A branch of a choice that has the one type, if the condition holds. A branch that is `null` has
the type `any`. -/
def BranchJudged (c : Context) (rule : Json) (type : ValueType) (condition : Prop) : Prop :=
  ∀ other path, inferBranch c rule path = .ok other ↔ other = type ∧ condition

variable {c : Context} {x y : Json} {left right : ValueType} {P Q : Prop}

theorem judged_literal (l : Literal) : Judged c l.toJson l.type True := by
  intro other
  rw [← @infer_eq_ok_iff c "", infer_literal, Except.ok.injEq, and_true]
  exact eq_comm

theorem judged_var {key : String} (hkey : key ≠ "")
    (hknown : c.catalog.contains key = true ∨ c.lenient = true) :
    Judged c (.obj [("var", .str key)]) (c.catalog.typeOf key) True := by
  have hread : variableKey? (.str key) = some key := by simp [variableKey?, hkey]
  intro other
  rw [← @infer_eq_ok_iff c "", infer_var, variableType_eq_ok_iff, hread]
  simp [hknown]

theorem Judged.not (hx : Judged c x left P) (hvalue : ∀ items, x ≠ .arr items) :
    Judged c (.obj [("not", x)]) .boolean (P ∧ FitsBoolean left) := by
  intro other
  rw [← @infer_eq_ok_iff c "", infer_not_eq_ok_iff]
  simp only [infer_eq_ok_iff]
  constructor
  · rintro ⟨z, operand, rfl | ⟨rfl, -⟩, hoperand, hfits, rfl⟩
    · exact absurd rfl (hvalue [z])
    · obtain ⟨rfl, hP⟩ := (hx operand).mp hoperand
      exact ⟨rfl, hP, hfits⟩
  · rintro ⟨rfl, hP, hfits⟩
    exact ⟨x, left, .inr ⟨rfl, hvalue⟩, (hx left).mpr ⟨rfl, hP⟩, hfits, rfl⟩

theorem Judged.logic (hx : Judged c x left P) (hy : Judged c y right Q) {o : LogicOperator}
    (ho : o ≠ .not) :
    Judged c (.obj [(o.symbol, .arr [x, y])]) .boolean
      ((P ∧ FitsBoolean left) ∧ (Q ∧ FitsBoolean right)) := by
  intro other
  rw [← @infer_eq_ok_iff c "", infer_logic_eq_ok_iff ho]
  simp only [infer_eq_ok_iff]
  constructor
  · rintro ⟨_, _, first, second, hargs, hfirst, hsecond, hleft, hright, rfl⟩
    cases hargs
    obtain ⟨rfl, hP⟩ := (hx first).mp hfirst
    obtain ⟨rfl, hQ⟩ := (hy second).mp hsecond
    exact ⟨rfl, ⟨hP, hleft⟩, hQ, hright⟩
  · rintro ⟨rfl, ⟨hP, hleft⟩, hQ, hright⟩
    exact ⟨x, y, left, right, rfl, (hx left).mpr ⟨rfl, hP⟩, (hy right).mpr ⟨rfl, hQ⟩, hleft, hright,
      rfl⟩

theorem Judged.compare (hx : Judged c x left P) (hy : Judged c y right Q) (o : CompareOperator) :
    Judged c (.obj [(o.symbol, .arr [x, y])]) .boolean (P ∧ Q) := by
  intro other
  rw [← @infer_eq_ok_iff c "", infer_compare_eq_ok_iff]
  simp only [infer_eq_ok_iff]
  constructor
  · rintro ⟨_, _, first, second, hargs, hfirst, hsecond, rfl⟩
    cases hargs
    exact ⟨rfl, ((hx first).mp hfirst).2, ((hy second).mp hsecond).2⟩
  · rintro ⟨rfl, hP, hQ⟩
    exact ⟨x, y, left, right, rfl, (hx left).mpr ⟨rfl, hP⟩, (hy right).mpr ⟨rfl, hQ⟩, rfl⟩

theorem branchJudged_null : BranchJudged c .null .any True := by
  intro other path
  rw [inferBranch_null, Except.ok.injEq, and_true]
  exact eq_comm

theorem Judged.branch (hx : Judged c x left P) (hvalue : x ≠ .null) : BranchJudged c x left P := by
  intro other path
  rw [inferBranch_of_ne hvalue, infer_eq_ok_iff]
  exact hx other

theorem Judged.choice {condition : Json} {tested : ValueType} {R : Prop}
    (hcondition : Judged c condition tested R) (hx : BranchJudged c x left P)
    (hy : BranchJudged c y right Q) :
    Judged c (.obj [("if", .arr [condition, x, y])]) (joinType left right)
      ((R ∧ FitsBoolean tested) ∧ P ∧ Q) := by
  intro other
  rw [← @infer_eq_ok_iff c "", infer_choice_eq_ok_iff]
  constructor
  · rintro ⟨_, _, _, answer, first, second, hargs, hanswer, hfits, hfirst, hsecond, rfl⟩
    cases hargs
    obtain ⟨rfl, hR⟩ := (hcondition answer).mp (infer_eq_ok_iff.mp hanswer)
    obtain ⟨rfl, hP⟩ := (hx first _).mp hfirst
    obtain ⟨rfl, hQ⟩ := (hy second _).mp hsecond
    exact ⟨rfl, ⟨hR, hfits⟩, hP, hQ⟩
  · rintro ⟨rfl, ⟨hR, hfits⟩, hP, hQ⟩
    exact ⟨condition, x, y, tested, left, right, rfl,
      infer_eq_ok_iff.mpr ((hcondition tested).mpr ⟨rfl, hR⟩), hfits, (hx left _).mpr ⟨rfl, hP⟩,
      (hy right _).mpr ⟨rfl, hQ⟩, rfl⟩

end Rule

open Rule

/-! ## The rule of a payload -/

/-- The type that the check finds for the rule of a node, from the types found at its wired inputs.
An unwired true branch stands for a text, an unwired false branch for no value. -/
def Payload.inferred (c : Catalog) (p : Payload) (input : Nat → Option ValueType) : ValueType :=
  match p with
  | .constant l => l.type
  | .var key => c.typeOf key
  | .logic _ => .boolean
  | .compare _ => .boolean
  | .choice => joinType ((input 1).getD .string) ((input 2).getD .any)
  | .result => .any

/-- All but choices have the type of their output. -/
theorem Payload.inferred_of_ne {p : Payload} (hp : p ≠ .choice) (c : Catalog)
    (input : Nat → Option ValueType) : p.inferred c input = p.type c := by
  cases p with
  | choice => exact absurd rfl hp
  | _ => rfl

section

variable {c : Context} {p : Payload} {source : Nat → Option String} {rule : String → Json}
  {type : String → ValueType} {condition : String → Prop}

theorem Rule.Judged.congr {r : Json} {t : ValueType} {P Q : Prop} (hr : Judged c r t P)
    (hiff : P ↔ Q) : Judged c r t Q :=
  fun other => (hr other).trans (and_congr_right fun _ => hiff)

/-- An input that may be unwired is judged by what feeds it or by its default. -/
theorem judged_getD {J : Json → ValueType → Prop → Prop} {index : Nat} {defaultRule : Json}
    {defaultType : ValueType} (hdefault : J defaultRule defaultType True)
    (hjudged : ∀ id, source index = some id → J (rule id) (type id) (condition id)) :
    J (((source index).map rule).getD defaultRule) (((source index).map type).getD defaultType)
      (∀ id, source index = some id → condition id) := by
  cases hsource : source index with
  | none => simpa using hdefault
  | some id => simpa using hjudged id hsource

/-- An input is good if what feeds it is, and fits where a boolean is asked for. -/
def InputFits (p : Payload) (source : Nat → Option String) (type : String → ValueType)
    (condition : String → Prop) (index : Nat) : Prop :=
  ∀ id, source index = some id →
    condition id ∧ (p.kind.expected index = .boolean → FitsBoolean (type id))

/-- What feeds an input is judged, and its rule is neither `null` nor a list. -/
def InputJudged (c : Context) (source : Nat → Option String) (rule : String → Json)
    (type : String → ValueType) (condition : String → Prop) (index : Nat) : Prop :=
  ∀ id, source index = some id → Judged c (rule id) (type id) (condition id) ∧ rule id ≠ .null ∧
    ∀ items, rule id ≠ .arr items

theorem rule_judged_not (hinput : InputJudged c source rule type condition 0) {a : String}
    (ha : source 0 = some a) :
    Judged c ((Payload.logic .not).rule fun index => (source index).map rule) .boolean
      (∀ index < 1, InputFits (.logic .not) source type condition index) := by
  obtain ⟨hjudged, _, hvalue⟩ := hinput a ha
  have hrule : (Payload.logic .not).rule (fun index => (source index).map rule) =
      .obj [("not", rule a)] := by simp [Payload.rule, ha]
  rw [hrule]
  refine (hjudged.not hvalue).congr ?_
  simp only [Nat.forall_lt_succ_right, InputFits]
  simp [ha, NodeKind.expected_eq_boolean_iff, Payload.kind]

theorem rule_judged_logic {o : LogicOperator} (ho : o ≠ .not)
    (hinput : ∀ index < 2, InputJudged c source rule type condition index) {a b : String}
    (ha : source 0 = some a) (hb : source 1 = some b) :
    Judged c ((Payload.logic o).rule fun index => (source index).map rule) .boolean
      (∀ index < 2, InputFits (.logic o) source type condition index) := by
  have hrule : (Payload.logic o).rule (fun index => (source index).map rule) =
      .obj [(o.symbol, .arr [rule a, rule b])] := by
    cases o with
    | not => exact absurd rfl ho
    | and | or => simp [Payload.rule, ha, hb]
  rw [hrule]
  refine ((hinput 0 (by omega) a ha).1.logic (hinput 1 (by omega) b hb).1 ho).congr ?_
  simp only [Nat.forall_lt_succ_right, InputFits]
  simp [ha, hb, NodeKind.expected_eq_boolean_iff, Payload.kind]

theorem rule_judged_compare (o : CompareOperator)
    (hinput : ∀ index < 2, InputJudged c source rule type condition index) {a b : String}
    (ha : source 0 = some a) (hb : source 1 = some b) :
    Judged c ((Payload.compare o).rule fun index => (source index).map rule) .boolean
      (∀ index < 2, InputFits (.compare o) source type condition index) := by
  have hrule : (Payload.compare o).rule (fun index => (source index).map rule) =
      .obj [(o.symbol, .arr [rule a, rule b])] := by simp [Payload.rule, ha, hb]
  rw [hrule]
  refine ((hinput 0 (by omega) a ha).1.compare (hinput 1 (by omega) b hb).1 o).congr ?_
  simp only [Nat.forall_lt_succ_right, InputFits]
  simp [ha, hb, NodeKind.expected_eq_boolean_iff, Payload.kind]

/-- The inputs of a choice have defaults, which are accepted: `true`, a text and `null`. -/
theorem rule_judged_choice
    (hinput : ∀ index < 3, InputJudged c source rule type condition index) :
    Judged c (Payload.choice.rule fun index => (source index).map rule)
      (joinType (((source 1).map type).getD .string) (((source 2).map type).getD .any))
      (∀ index < 3, InputFits .choice source type condition index) := by
  have hcondition := judged_getD (J := Judged c) (judged_literal (.bool true)) fun id hid =>
    (hinput 0 (by omega) id hid).1
  have hbranch : ∀ index < 3, ∀ id, source index = some id →
      BranchJudged c (rule id) (type id) (condition id) := by
    intro index hindex id hid
    obtain ⟨hjudged, hvalue, _⟩ := hinput index hindex id hid
    exact hjudged.branch hvalue
  have hfirst := judged_getD (J := BranchJudged c)
    ((judged_literal (.str "PRESENT")).branch nofun) (hbranch 1 (by omega))
  have hsecond := judged_getD (J := BranchJudged c) branchJudged_null (hbranch 2 (by omega))
  refine (hcondition.choice hfirst hsecond).congr ?_
  have htested : FitsBoolean (((source 0).map type).getD .boolean) ↔
      ∀ id, source 0 = some id → FitsBoolean (type id) := by
    cases source 0 <;> simp [FitsBoolean]
  simp only [Literal.type, htested, Nat.forall_lt_succ_right, InputFits,
    NodeKind.expected_eq_boolean_iff, Payload.kind]
  simp [forall_and, and_assoc]

/-- The rule of a node is judged by its inputs. Those of logic and comparisons have to be wired. -/
theorem Payload.rule_judged (hresult : p ≠ .result)
    (hvar : ∀ key, p = .var key → key ≠ "" ∧ (c.catalog.contains key = true ∨ c.lenient = true))
    (hinput : ∀ index < p.readCount, InputJudged c source rule type condition index)
    (hwired : p ≠ .choice → ∀ index < p.readCount, ∃ id, source index = some id) :
    Judged c (p.rule fun index => (source index).map rule)
      (p.inferred c.catalog fun index => (source index).map type)
      (∀ index < p.readCount, InputFits p source type condition index) := by
  cases p with
  | result => exact absurd rfl hresult
  | constant l => exact (judged_literal l).congr (by simp [readCount])
  | var key =>
      obtain ⟨hkey, hknown⟩ := hvar key rfl
      exact (judged_var hkey hknown).congr (by simp [readCount])
  | logic o =>
      by_cases ho : o = .not
      · subst ho
        obtain ⟨a, ha⟩ := hwired nofun 0 (by decide)
        exact rule_judged_not (hinput 0 (by decide)) ha
      · have hcount : (Payload.logic o).readCount = 2 := by
          cases o with
          | not => exact absurd rfl ho
          | and | or => rfl
        rw [hcount] at hinput hwired ⊢
        obtain ⟨a, ha⟩ := hwired nofun 0 (by omega)
        obtain ⟨b, hb⟩ := hwired nofun 1 (by omega)
        exact rule_judged_logic ho hinput ha hb
  | compare o =>
      obtain ⟨a, ha⟩ := hwired nofun 0 (by simp [readCount])
      obtain ⟨b, hb⟩ := hwired nofun 1 (by simp [readCount])
      exact rule_judged_compare o hinput ha hb
  | choice => exact rule_judged_choice hinput

end

/-! ## Types along the wires -/

namespace Graph

variable {α : Type} {catalog : Catalog} {g : Graph α} {id source : String} {index : Nat}
  {p : Payload}

/-- The node that feeds an input. -/
def sourceAt? (g : Graph α) (id : String) (index : Nat) : Option String :=
  (g.incoming? ⟨id, index⟩).map (·.source.node)

theorem Wired.feeds_of_sourceAt? (hg : g.Wired catalog)
    (hsource : g.sourceAt? id index = some source) : g.Feeds source id := by
  obtain ⟨e, hin, rfl⟩ := Option.map_eq_some_iff.mp hsource
  exact hg.feeds_of_incoming? hin

theorem Wired.payload?_of_sourceAt? (hg : g.Wired catalog) (hpayload : g.payload? id = some p)
    (hsource : g.sourceAt? id index = some source) :
    ∃ q, g.payload? source = some q ∧ q ≠ .result ∧
      ValueType.compatible (q.type catalog) (p.kind.expected index) = true := by
  obtain ⟨e, hin, rfl⟩ := Option.map_eq_some_iff.mp hsource
  exact hg.source_of_incoming? hpayload hin

theorem Wired.compileNode_eq_map (hg : g.Wired catalog) (hpayload : g.payload? id = some p) :
    g.compileNode id = p.rule fun index => (g.sourceAt? id index).map g.compileNode := by
  rw [hg.compileNode_eq hpayload]
  simp only [sourceAt?, Option.map_map, Function.comp_def]

/-- The type that the check finds for a node, within the given depth. -/
def typeWithin (catalog : Catalog) (g : Graph α) : Nat → String → ValueType
  | 0, _ => .any
  | depth + 1, id =>
    match g.payload? id with
    | some p => p.inferred catalog fun index =>
        (g.sourceAt? id index).map (typeWithin catalog g depth)
    | none => .any

/-- The type that the check finds for the rule of a node. -/
def inferredType (catalog : Catalog) (g : Graph α) (id : String) : ValueType :=
  g.typeWithin catalog (g.nodes.length + 1) id

/-- Any depth above the rank of a node is enough. -/
theorem Wired.typeWithin_eq (hg : g.Wired catalog) {depth depth' : Nat} (hdepth : g.rank id < depth)
    (hdepth' : g.rank id < depth') :
    g.typeWithin catalog depth id = g.typeWithin catalog depth' id := by
  induction depth generalizing depth' id with
  | zero => omega
  | succ depth ih =>
      obtain ⟨depth', rfl⟩ := Nat.exists_eq_succ_of_ne_zero (Nat.ne_zero_of_lt hdepth')
      have hinput : ∀ index, (g.sourceAt? id index).map (g.typeWithin catalog depth) =
          (g.sourceAt? id index).map (g.typeWithin catalog depth') := by
        intro index
        refine Option.map_congr fun source hsource => ?_
        have hrank := hg.rank_lt (hg.feeds_of_sourceAt? hsource)
        exact ih (by omega) (by omega)
      rw [typeWithin, typeWithin, funext hinput]

/-- The type of a node from the types of the nodes that feed it. -/
theorem Wired.inferredType_eq (hg : g.Wired catalog) (hpayload : g.payload? id = some p) :
    g.inferredType catalog id =
      p.inferred catalog fun index => (g.sourceAt? id index).map (g.inferredType catalog) := by
  have hinput : ∀ index, (g.sourceAt? id index).map (g.typeWithin catalog g.nodes.length) =
      (g.sourceAt? id index).map (g.inferredType catalog) := by
    intro index
    refine Option.map_congr fun source hsource => ?_
    have hrank := hg.rank_lt (hg.feeds_of_sourceAt? hsource)
    have hle := g.rank_le id
    exact hg.typeWithin_eq (by omega) (by omega)
  rw [inferredType, typeWithin, hpayload]
  dsimp only
  rw [funext hinput]

/-! ## The nodes behind a rule -/

/-- The compiler reads an input of one node that the other feeds. -/
def Reads (g : Graph α) (id source : String) : Prop :=
  ∃ p, g.payload? id = some p ∧ ∃ index < p.readCount, g.sourceAt? id index = some source

/-- The nodes that feed a Result, in the order of the Results. -/
def roots (g : Graph α) : List String := (g.ofKind .result).filterMap fun n => g.sourceAt? n.id 0

/-- The compiler comes to a node when it walks back from the Results. -/
def Compiled (g : Graph α) (id : String) : Prop := ∃ root ∈ g.roots, ReflTransGen g.Reads root id

/-- Whatever the compiler reads of a node of logic or a comparison is wired. -/
def OperandsWired (g : Graph α) (id : String) : Prop :=
  ∀ p, g.payload? id = some p → p.kind = .logic ∨ p.kind = .compare →
    ∀ index < p.readCount, ∃ source, g.sourceAt? id index = some source

/-- Every choice that feeds a boolean input of a node, where the compiler reads it, has a type
that may stand there. -/
def ChoicesFit (catalog : Catalog) (g : Graph α) (id : String) : Prop :=
  ∀ p, g.payload? id = some p → ∀ index < p.readCount, p.kind.expected index = .boolean →
    ∀ source, g.sourceAt? id index = some source → g.payload? source = some .choice →
      FitsBoolean (g.inferredType catalog source)

/-- All choices fit that are met on the way back from a node. -/
def AllChoicesFit (catalog : Catalog) (g : Graph α) (root : String) : Prop :=
  ∀ id, ReflTransGen g.Reads root id → g.ChoicesFit catalog id

/-- What is no choice fits a boolean input that it feeds, as the store has checked. -/
theorem Wired.fitsBoolean_of_ne (hg : g.Wired catalog) (hpayload : g.payload? id = some p)
    (hboolean : p.kind.expected index = .boolean) (hsource : g.sourceAt? id index = some source)
    (hchoice : g.payload? source ≠ some .choice) : FitsBoolean (g.inferredType catalog source) := by
  obtain ⟨q, hq, _, hfits⟩ := hg.payload?_of_sourceAt? hpayload hsource
  have hne : q ≠ .choice := by
    rintro rfl
    exact hchoice hq
  rw [hg.inferredType_eq hq, Payload.inferred_of_ne hne]
  rw [hboolean] at hfits
  cases htype : q.type catalog <;> simp_all [ValueType.compatible, FitsBoolean]

/-- All choices behind a node fit just if those at its inputs do and all choices
behind its inputs. -/
theorem Wired.allChoicesFit_iff (hg : g.Wired catalog) (hpayload : g.payload? id = some p) :
    g.AllChoicesFit catalog id ↔ ∀ index < p.readCount,
      InputFits p (g.sourceAt? id) (g.inferredType catalog) (g.AllChoicesFit catalog) index := by
  constructor
  · intro hfit index hindex source hsource
    have hreads : g.Reads id source := ⟨p, hpayload, index, hindex, hsource⟩
    refine ⟨fun m hpath => hfit m (.head hreads hpath), fun hboolean => ?_⟩
    by_cases hchoice : g.payload? source = some .choice
    · exact hfit id .refl p hpayload index hindex hboolean source hsource hchoice
    · exact hg.fitsBoolean_of_ne hpayload hboolean hsource hchoice
  · intro hinputs m hpath
    rcases hpath.cases_head with rfl | ⟨source, ⟨q, hq, index, hindex, hsource⟩, hrest⟩
    · intro q hq index hindex hboolean source hsource _
      rw [hpayload] at hq
      cases hq
      exact (hinputs index hindex source hsource).2 hboolean
    · rw [hpayload] at hq
      cases hq
      exact (hinputs index hindex source hsource).1 m hrest

/-- The rule of a node has the inferred type if all choices behind it fit, and else none. -/
theorem Wired.compileNode_judged (hg : g.Wired catalog)
    (hnamed : ∀ id, g.payload? id ≠ some (.var "")) (hpayload : g.payload? id = some p)
    (hp : p ≠ .result) (hwired : ∀ m, ReflTransGen g.Reads id m → g.OperandsWired m) :
    Judged ⟨catalog, true⟩ (g.compileNode id) (g.inferredType catalog id)
      (g.AllChoicesFit catalog id) := by
  -- Along the edges: whatever the compiler reads of a node is judged already.
  induction id using hg.induction generalizing p with
  | hstep id ih =>
      have hinput : ∀ index < p.readCount, InputJudged ⟨catalog, true⟩ (g.sourceAt? id)
          g.compileNode (g.inferredType catalog) (g.AllChoicesFit catalog) index := by
        intro index hindex source hsource
        obtain ⟨q, hq, hqResult, _⟩ := hg.payload?_of_sourceAt? hpayload hsource
        have hreads : g.Reads id source := ⟨p, hpayload, index, hindex, hsource⟩
        refine ⟨ih _ (hg.feeds_of_sourceAt? hsource) hq hqResult fun m hpath =>
          hwired m (.head hreads hpath), ?_, fun items => ?_⟩
        · rw [hg.compileNode_eq hq]
          exact rule_ne_null hqResult _
        · rw [hg.compileNode_eq hq]
          exact rule_ne_arr _ _ _
      have hvar : ∀ key, p = .var key → key ≠ "" ∧ (catalog.contains key = true ∨ true = true) := by
        rintro key rfl
        refine ⟨?_, .inr rfl⟩
        rintro rfl
        exact hnamed id hpayload
      have hsome : p ≠ .choice → ∀ index < p.readCount,
          ∃ source, g.sourceAt? id index = some source := by
        intro hchoice index hindex
        refine hwired id .refl p hpayload ?_ index hindex
        cases p <;> simp_all [Payload.kind, Payload.readCount]
      rw [hg.compileNode_eq_map hpayload, hg.inferredType_eq hpayload]
      exact (Payload.rule_judged hp hvar hinput hsome).congr (hg.allChoicesFit_iff hpayload).symm

end Graph

/-! ## The check of a compiled graph -/

theorem Graph.rules_eq_map_roots {α : Type} (g : Graph α) :
    g.rules = g.roots.map g.compileNode := by
  simp only [rules, roots, sourceAt?, List.map_filterMap, Option.map_map, Function.comp_def]

theorem Rule.typed_rules_iff {c : Context} {roots : List String} {rule : String → Json}
    {type : String → ValueType} {condition : String → Prop}
    (hjudged : ∀ root ∈ roots, Judged c (rule root) (type root) (condition root))
    {types : List ValueType} :
    List.Forall₂ (Typed c) (roots.map rule) types ↔
      (∀ root ∈ roots, condition root) ∧ types = roots.map type := by
  induction roots generalizing types with
  | nil => simp
  | cons root rest ih =>
      obtain ⟨hroot, hrest⟩ := List.forall_mem_cons.mp hjudged
      rw [List.map_cons, List.forall₂_cons_left_iff, List.forall_mem_cons]
      simp only [ih hrest, hroot _]
      constructor
      · rintro ⟨_, _, ⟨rfl, hcondition⟩, ⟨hconditions, rfl⟩, rfl⟩
        exact ⟨⟨hcondition, hconditions⟩, rfl⟩
      · rintro ⟨⟨hcondition, hconditions⟩, rfl⟩
        exact ⟨_, _, ⟨rfl, hcondition⟩, ⟨hconditions, rfl⟩, rfl⟩

/-- Whatever store is reached, as long as no variable in it has the empty name and the operands of
all logic and comparisons that the compiler comes to are wired: the check with unknown variables
let in accepts what the store compiles to just if every choice that the compiler reads at a
boolean input has the type `boolean` or `any`, and then answers the types of what feeds the
Results, in their order. -/
theorem Rule.check_ruleTree_iff (catalog : Catalog) (journal : Journal Double)
    (turns : List Desk.Turn) :
    let d := turns.foldl Desk.play (Desk.fresh catalog journal)
    (∀ n ∈ d.graph.nodes, n.payload ≠ .var "") →
    (∀ id, d.graph.Compiled id → d.graph.OperandsWired id) →
    ∀ types, check ⟨d.catalog, true⟩ d.graph.ruleTree = .ok types ↔
      (∀ id, d.graph.Compiled id → d.graph.ChoicesFit d.catalog id) ∧
        types = d.graph.roots.map (d.graph.inferredType d.catalog) := by
  intro d hkeys hwired types
  have hg : d.graph.Wired d.catalog := ((Desk.Sound.fresh catalog journal).foldl_play turns).2
  have hnamed : ∀ id, d.graph.payload? id ≠ some (.var "") := by
    intro id hid
    obtain ⟨n, hn, hpayload⟩ := Option.map_eq_some_iff.mp hid
    exact hkeys n (Graph.mem_of_node?_eq_some hn) hpayload
  have hjudged : ∀ root ∈ d.graph.roots, Judged ⟨d.catalog, true⟩ (d.graph.compileNode root)
      (d.graph.inferredType d.catalog root)
      (d.graph.AllChoicesFit d.catalog root) := by
    intro root hroot
    obtain ⟨n, hn, hfed⟩ := List.mem_filterMap.mp hroot
    have hnode : d.graph.payload? n.id = some n.payload :=
      Graph.payload?_of_node? (Graph.node?_of_mem hg.nodes_nodup (List.mem_filter.mp hn).1)
    obtain ⟨p, hpayload, hp, _⟩ := hg.payload?_of_sourceAt? hnode hfed
    exact hg.compileNode_judged hnamed hpayload hp fun id hpath => hwired id ⟨root, hroot, hpath⟩
  have hrules : rulesOf d.graph.ruleTree = .ok (d.graph.roots.map d.graph.compileNode) := by
    rw [← Graph.rules_eq_map_roots]
    rfl
  rw [check_eq_ok_iff, hrules]
  simp only [Except.ok.injEq, exists_eq_left', typed_rules_iff hjudged, Graph.Compiled]
  refine and_congr_left' ⟨fun hfit id hid => ?_, fun hfit root hroot id hpath => ?_⟩
  · obtain ⟨root, hroot, hpath⟩ := hid
    exact hfit root hroot id hpath
  · exact hfit id ⟨root, hroot, hpath⟩

/-- A choice of two texts, the first by default, that is negated. The store lets it in, and the
check refuses what it compiles to. -/
theorem Rule.check_ruleTree_iff_negated_text :
    let turns : List Desk.Turn := [
      .edit (.addNode (.str "Constant") (.pair (.int 0) (.int 0))
        (.obj [("valueType", .str "string"), ("value", .str "LATE")]) .null false),
      .edit (.addNode (.str "If") (.pair (.int 1) (.int 0)) .null .null false),
      .edit (.addNode (.str "Logic") (.pair (.int 2) (.int 0)) (.obj [("operator", .str "not")])
        .null false),
      .edit (.addNode (.str "Result") (.pair (.int 3) (.int 0)) .null .null false),
      .edit (.connectRefs ⟨"n1", 0⟩ ⟨"n2", 2⟩ .null),
      .edit (.connectRefs ⟨"n2", 0⟩ ⟨"n3", 0⟩ .null),
      .edit (.connectRefs ⟨"n3", 0⟩ ⟨"n4", 0⟩ .null)]
    let d := turns.foldl Desk.play (Desk.fresh .attendance ⟨.counting, []⟩)
    (∀ n ∈ d.graph.nodes, n.payload ≠ .var "") ∧
    (∀ id, d.graph.Compiled id → d.graph.OperandsWired id) ∧
    ∀ types, check ⟨d.catalog, true⟩ d.graph.ruleTree ≠ .ok types := by
  intro turns d
  have hkeys : ∀ n ∈ d.graph.nodes, n.payload ≠ .var "" := by decide +kernel
  have hwired : ∀ id, d.graph.Compiled id → d.graph.OperandsWired id := by
    intro id _ p hpayload hkind index hindex
    have hall : ∀ n ∈ d.graph.nodes, n.kind = .logic ∨ n.kind = .compare →
        ∀ index < n.payload.readCount, (d.graph.sourceAt? n.id index).isSome = true := by
      decide +kernel
    obtain ⟨n, hnode, rfl⟩ := Option.map_eq_some_iff.mp hpayload
    have hsome := hall n (Graph.mem_of_node?_eq_some hnode) hkind index hindex
    rw [Graph.id_of_node?_eq_some hnode] at hsome
    exact Option.isSome_iff_exists.mp hsome
  refine ⟨hkeys, hwired, fun types hcheck => ?_⟩
  obtain ⟨hfit, _⟩ := (check_ruleTree_iff .attendance ⟨.counting, []⟩ turns hkeys hwired types).mp
    hcheck
  have hroot : "n3" ∈ d.graph.roots := by decide +kernel
  have htype : d.graph.inferredType d.catalog "n2" = .string := by decide +kernel
  have hstring := hfit "n3" ⟨"n3", hroot, .refl⟩ (.logic .not) rfl 0 (by decide) rfl "n2" rfl rfl
  rw [htype] at hstring
  rcases hstring with hboolean | hany
  · cases hboolean
  · cases hany

end RuleCanvas
