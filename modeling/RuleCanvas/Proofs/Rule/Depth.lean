import RuleCanvas.Proofs.Rule.Rewrite
import RuleCanvas.Proofs.Rule.Variables
import RuleCanvas.Rule.Document

/-! # Depth of imported rules

The limit on depth is put to rules as they come in, and an import may leave deeper ones: logic over
many operands becomes a chain, an else-if chain becomes choices in choices, and a list without
content, which has no depth at all, becomes a text. The folded depth counts a rule as it will be
nested, and bounds what the graph compiles to. A rule in which nothing is nested anew is no deeper
than it was.
-/

namespace RuleCanvas.Rule

/-! ## Depths to come -/

/-- The depth of a binary operator over operands of these depths, nested to the left. -/
def chainDepth : Nat → List Nat → Nat
  | first, [] => first
  | first, next :: rest => chainDepth (1 + max first next) rest

/-- The depth of a binary logic operator over any number of operands. Over one, which may turn out
to be `null`, it is kept with both inputs unwired or gives way to the operand. -/
def joinedDepth : List Nat → Nat
  | [] => 1
  | [operand] => max 2 operand
  | first :: rest => chainDepth first rest

mutual

/-- The depth of a rule with its operators nested as an import nests them. -/
def foldedDepth : Json → Nat
  | .obj [(operator, args)] =>
    if operator = "not" then
      match args with
      | .arr [x] => 1 + foldedDepth x
      | .arr _ => 1
      | x => 1 + foldedDepth x
    else if operator = "and" ∨ operator = "or" then
      match args with
      | .arr items => joinedDepth (foldedDepths items)
      | _ => 1
    else if (CompareOperator.ofSymbol? operator).isSome then
      match args with
      | .arr [x, y] => 1 + max (foldedDepth x) (foldedDepth y)
      | _ => 1
    else if operator = "if" then
      match args with
      | .arr items => choiceDepth items
      | _ => 1
    else 1
  | _ => 1

def foldedDepths : List Json → List Nat
  | [] => []
  | x :: xs => foldedDepth x :: foldedDepths xs

def choiceDepth : List Json → Nat
  | [condition, whenTrue] => 1 + max (foldedDepth condition) (foldedDepth whenTrue)
  | [condition, whenTrue, whenFalse] =>
    1 + max (max (foldedDepth condition) (foldedDepth whenTrue)) (foldedDepth whenFalse)
  | condition :: whenTrue :: rest =>
    1 + max (max (foldedDepth condition) (foldedDepth whenTrue)) (choiceDepth rest)
  | _ => 1

end

/-- Whether an import nests nothing anew in a rule: logic has at most two operands and a choice at
most three, and no rule or operand is a list without content. -/
def unfolded : Json → Bool
  | .arr items => 0 < itemDepth items
  | .obj [(operator, args)] =>
    if operator = "not" then
      match args with
      | .arr [x] => unfolded x
      | .arr _ => true
      | x => unfolded x
    else if operator = "and" ∨ operator = "or" then
      match args with
      | .arr [x] => unfolded x
      | .arr [x, y] => unfolded x && unfolded y
      | .arr (_ :: _ :: _ :: _) => false
      | _ => true
    else if (CompareOperator.ofSymbol? operator).isSome then
      match args with
      | .arr [x, y] => unfolded x && unfolded y
      | _ => true
    else if operator = "if" then
      match args with
      | .arr [condition, whenTrue] => unfolded condition && unfolded whenTrue
      | .arr [condition, whenTrue, whenFalse] =>
        unfolded condition && unfolded whenTrue && unfolded whenFalse
      | .arr (_ :: _ :: _ :: _ :: _) => false
      | _ => true
    else true
  | _ => true

theorem le_chainDepth (first : Nat) (depths : List Nat) : first ≤ chainDepth first depths := by
  induction depths generalizing first with
  | nil => exact Nat.le_refl first
  | cons next rest ih =>
      have hnested : 1 + max first next ≤ chainDepth first (next :: rest) := ih _
      omega

theorem one_le_joinedDepth (depths : List Nat) : 1 ≤ joinedDepth depths := by
  match depths with
  | [] => exact Nat.le_refl 1
  | [operand] =>
      have : joinedDepth [operand] = max 2 operand := rfl
      omega
  | first :: second :: rest =>
      have hnested : 1 + max first second ≤ joinedDepth (first :: second :: rest) :=
        le_chainDepth (1 + max first second) rest
      omega

theorem one_le_choiceDepth (items : List Json) : 1 ≤ choiceDepth items := by
  unfold choiceDepth
  split <;> omega

theorem one_le_foldedDepth (rule : Json) : 1 ≤ foldedDepth rule := by
  unfold foldedDepth
  repeat' split
  all_goals first
    | exact one_le_joinedDepth _
    | exact one_le_choiceDepth _
    | omega

theorem foldedDepth_not_single (x : Json) :
    foldedDepth (.obj [("not", .arr [x])]) = 1 + foldedDepth x := rfl

theorem foldedDepth_not_value {args : Json} (hargs : ∀ items, args ≠ .arr items) :
    foldedDepth (.obj [("not", args)]) = 1 + foldedDepth args := by
  cases args with
  | arr items => exact absurd rfl (hargs items)
  | _ => rfl

theorem foldedDepth_logic {o : LogicOperator} (ho : o ≠ .not) (items : List Json) :
    foldedDepth (.obj [(o.symbol, .arr items)]) = joinedDepth (foldedDepths items) := by
  cases o with
  | not => exact absurd rfl ho
  | _ =>
      unfold foldedDepth
      simp [LogicOperator.symbol]

theorem foldedDepth_compare (o : CompareOperator) (x y : Json) :
    foldedDepth (.obj [(o.symbol, .arr [x, y])]) = 1 + max (foldedDepth x) (foldedDepth y) := by
  cases o <;> rfl

theorem foldedDepth_choice (items : List Json) :
    foldedDepth (.obj [("if", .arr items)]) = choiceDepth items := by
  unfold foldedDepth
  simp [CompareOperator.ofSymbol?]

/-! ## Depths of normal forms -/

/-- A rule of a depth of at most `n`, which is no less than one as the depth of any literal. -/
def Within (rule : Json) (n : Nat) : Prop := 1 ≤ n ∧ depth rule ≤ n

theorem depth_operator {operator : String} (hoperator : operator ≠ "var") (args : Json) :
    depth (.obj [(operator, args)]) = 1 + depth args := by
  have hvar : Json.find? "var" [(operator, args)] = none := by simp [Json.find?, hoperator]
  simp [depth, memberDepth, hvar]

theorem depth_single (a : Json) : depth (.arr [a]) = depth a := by
  simp [depth, itemDepth]

theorem depth_pair (a b : Json) : depth (.arr [a, b]) = max (depth a) (depth b) := by
  simp [depth, itemDepth]

theorem depth_triple (a b c : Json) :
    depth (.arr [a, b, c]) = max (max (depth a) (depth b)) (depth c) := by
  simp [depth, itemDepth, Nat.max_assoc]

theorem depth_null : depth .null = 1 := by simp [depth]

theorem depth_literal (l : Literal) : depth l.toJson = 1 := by
  cases l <;> simp [Literal.toJson, depth]

theorem depth_asText (fragment : Json) : depth (asText fragment) = 1 :=
  depth_literal (.str fragment.canonicalText)

theorem Within.operand {rule : Json} {n : Nat} (hrule : Within rule n) (c : Catalog) :
    Within (operand c rule) n := by
  refine ⟨hrule.1, ?_⟩
  unfold Rule.operand
  split
  · exact hrule.2
  · rw [depth_null]
    exact hrule.1

theorem Within.orElse {rule : Json} {n : Nat} (hrule : Within rule n) {default : Json}
    (hdefault : depth default ≤ n) : Within (orElse default rule) n := by
  cases rule with
  | null => exact ⟨hrule.1, hdefault⟩
  | _ => exact hrule

theorem Within.logic {a b : Json} {m n : Nat} (ha : Within a m) (hb : Within b n) (c : Catalog)
    (o : LogicOperator) :
    Within (.obj [(o.symbol, .arr [Rule.operand c a, Rule.operand c b])]) (1 + max m n) := by
  have hfirst := (ha.operand c).2
  have hsecond := (hb.operand c).2
  refine ⟨by omega, ?_⟩
  rw [depth_operator o.symbol_ne_var, depth_pair]
  omega

theorem Within.chain {first : Json} {n : Nat} (hfirst : Within first n) (c : Catalog)
    (o : LogicOperator) {rules : List Json} {depths : List Nat}
    (hrules : List.Forall₂ Within rules depths) :
    Within (chain c o.symbol first rules) (chainDepth n depths) := by
  induction hrules generalizing first n with
  | nil => exact hfirst
  | cons hnext _ ih => exact ih (hfirst.logic hnext c o)

theorem within_joined (c : Catalog) (o : LogicOperator) (args : Json) {rules : List Json}
    {depths : List Nat} (hrules : List.Forall₂ Within rules depths) :
    Within (joined c o.symbol args rules) (joinedDepth depths) := by
  refine ⟨one_le_joinedDepth depths, ?_⟩
  cases hrules with
  | nil => exact Nat.le_of_eq (depth_asText _)
  | cons hfirst hrest =>
      cases hrest with
      | nil =>
          rename_i rule n
          have hunwired : depth (.obj [(o.symbol, .arr [.null, .null])]) = 2 := by
            rw [depth_operator o.symbol_ne_var, depth_pair, depth_null]
            decide
          have hrule : Within rule (max 2 n) :=
            ⟨by omega, Nat.le_trans hfirst.2 (Nat.le_max_right 2 n)⟩
          exact (hrule.orElse (by omega)).2
      | cons hsecond hrest => exact ((hfirst.logic hsecond c o).chain c o hrest).2

theorem within_chosen (c : Catalog) {condition whenTrue whenFalse : Json} {l m n : Nat}
    (hcondition : Within condition l) (htrue : Within whenTrue m) (hfalse : Within whenFalse n) :
    Within (chosen c condition whenTrue whenFalse) (1 + max (max l m) n) := by
  have hfirst : Within (orElse (.bool true) (operand c condition)) l :=
    (hcondition.operand c).orElse
      (Nat.le_trans (Nat.le_of_eq (depth_literal (.bool true))) hcondition.1)
  have hsecond : Within (orElse (.str "PRESENT") whenTrue) m :=
    htrue.orElse (Nat.le_trans (Nat.le_of_eq (depth_literal (.str "PRESENT"))) htrue.1)
  refine ⟨by omega, ?_⟩
  rw [chosen, depth_operator (by decide), depth_triple]
  have hthird := hfalse.2
  have := hfirst.2
  have := hsecond.2
  omega

theorem NoRule.within_normal {rule : Json} (hrule : NoRule rule) (c : Context) :
    Within (normal c rule) (foldedDepth rule) := by
  rw [hrule.normal_eq c]
  exact ⟨one_le_foldedDepth rule, (depth_asText rule).symm ▸ one_le_foldedDepth rule⟩

theorem within_literal (l : Literal) : Within l.toJson 1 :=
  ⟨Nat.le_refl 1, Nat.le_of_eq (depth_literal l)⟩

theorem Within.not {rule : Json} {n : Nat} (hrule : Within rule n) (c : Catalog) :
    Within (.obj [("not", Rule.operand c rule)]) (1 + n) := by
  refine ⟨by omega, ?_⟩
  rw [depth_operator (by decide)]
  have := (hrule.operand c).2
  omega

theorem Within.compare {a b : Json} {m n : Nat} (ha : Within a m) (hb : Within b n)
    (o : CompareOperator) : Within (.obj [(o.symbol, .arr [a, b])]) (1 + max m n) := by
  have hfirst := ha.2
  have hsecond := hb.2
  refine ⟨by omega, ?_⟩
  rw [depth_operator o.symbol_ne_var, depth_pair]
  omega

/-- A choice without a false branch has `null` there, which is no deeper than the others. -/
theorem within_chosen_pair (c : Catalog) {condition whenTrue : Json} {m n : Nat}
    (hcondition : Within condition m) (htrue : Within whenTrue n) :
    Within (chosen c condition whenTrue .null) (1 + max m n) := by
  have hnull : Within .null 1 := ⟨Nat.le_refl 1, Nat.le_of_eq depth_null⟩
  have hchosen := within_chosen c hcondition htrue hnull
  rwa [Nat.max_eq_left (Nat.le_trans hcondition.1 (Nat.le_max_left m n))] at hchosen

theorem within_normal_var (c : Context) (args : Json) :
    Within (normal c (.obj [("var", args)])) (foldedDepth (.obj [("var", args)])) := by
  refine ⟨one_le_foldedDepth _, Nat.le_trans ?_ (one_le_foldedDepth _)⟩
  unfold normal
  simp only [if_true]
  repeat' split
  all_goals first
    | exact Nat.le_of_eq (depth_asText _)
    | simp [depth, Json.find?]

mutual

/-- The normal form of a rule is no deeper than the folded depth of the rule. -/
theorem within_normal (c : Context) (rule : Json) : Within (normal c rule) (foldedDepth rule) := by
  match rule with
  | .null => exact ⟨Nat.le_refl 1, Nat.le_of_eq depth_null⟩
  | .bool b => exact within_literal (.bool b)
  | .int n => exact within_literal (.int n)
  | .float x => exact within_literal (.float x)
  | .str s => exact within_literal (.str s)
  | .arr items => exact ⟨Nat.le_refl 1, Nat.le_of_eq (depth_asText _)⟩
  | .obj [] => exact ⟨Nat.le_refl 1, Nat.le_of_eq (depth_asText _)⟩
  | .obj (_ :: _ :: _) => exact ⟨Nat.le_refl 1, Nat.le_of_eq (depth_asText _)⟩
  | .obj [(operator, args)] =>
      cases Plan.operatorView operator with
      | var => exact within_normal_var c args
      | not =>
          match args with
          | .arr [x] =>
              rw [normal_not_single, foldedDepth_not_single]
              exact (within_normal c x).not c.catalog
          | .arr [] => exact (NoRule.not _ (by simp)).within_normal c
          | .arr (x :: y :: rest) => exact (NoRule.not _ (by simp)).within_normal c
          | .null => exact Within.not ⟨Nat.le_refl 1, Nat.le_of_eq depth_null⟩ c.catalog
          | .bool b => exact (within_literal (.bool b)).not c.catalog
          | .int n => exact (within_literal (.int n)).not c.catalog
          | .float x => exact (within_literal (.float x)).not c.catalog
          | .str s => exact (within_literal (.str s)).not c.catalog
          | .obj members =>
              rw [normal_not_value _ (by simp), foldedDepth_not_value (by simp)]
              exact (within_normal c (.obj members)).not c.catalog
      | logic o ho =>
          match args with
          | .arr items =>
              rw [normal_logic _ ho, foldedDepth_logic ho]
              exact within_joined c.catalog o (.arr items) (within_normalItems c items)
          | .null | .bool _ | .int _ | .float _ | .str _ | .obj _ =>
              exact (NoRule.logic o ho _ (by simp)).within_normal c
      | compare o =>
          match args with
          | .arr [x, y] =>
              have hx := within_normal c x
              have hy := within_normal c y
              rw [normal_compare, foldedDepth_compare]
              exact hx.compare hy o
          | .arr [] | .arr [_] | .arr (_ :: _ :: _ :: _) | .null | .bool _ | .int _ | .float _
          | .str _ | .obj _ => exact (NoRule.compare o _ (by simp)).within_normal c
      | choice =>
          match args with
          | .arr items =>
              rw [normal_choice, foldedDepth_choice]
              exact within_normalChoice c items
          | .null | .bool _ | .int _ | .float _ | .str _ | .obj _ =>
              exact (NoRule.choice _ (by simp)).within_normal c
      | unknown _ hvar hnot hand hor hchoice hcompare =>
          exact (NoRule.unknown _ args hvar hnot hand hor hchoice hcompare).within_normal c

theorem within_normalItems (c : Context) (items : List Json) :
    List.Forall₂ Within (normalItems c items) (foldedDepths items) := by
  match items with
  | [] =>
      rw [normalItems, foldedDepths]
      exact .nil
  | x :: xs =>
      rw [normalItems, foldedDepths]
      exact .cons (within_normal c x) (within_normalItems c xs)

theorem within_normalChoice (c : Context) (items : List Json) :
    Within (normalChoice c items) (choiceDepth items) := by
  match items with
  | [] => exact ⟨Nat.le_refl 1, Nat.le_of_eq (depth_asText _)⟩
  | [_] => exact ⟨Nat.le_refl 1, Nat.le_of_eq (depth_asText _)⟩
  | [condition, whenTrue] =>
      rw [normalChoice, choiceDepth]
      exact within_chosen_pair c.catalog (within_normal c condition) (within_normal c whenTrue)
  | [condition, whenTrue, whenFalse] =>
      rw [normalChoice, choiceDepth]
      exact within_chosen c.catalog (within_normal c condition) (within_normal c whenTrue)
        (within_normal c whenFalse)
  | condition :: whenTrue :: x :: y :: rest =>
      exact within_chosen c.catalog (within_normal c condition) (within_normal c whenTrue)
        (within_normalChoice c (x :: y :: rest))

end

/-! ## Rules that are nested as written -/

theorem unfolded_operands {o : LogicOperator} (ho : o ≠ .not) {items : List Json}
    (hrule : unfolded (.obj [(o.symbol, .arr items)]) = true) :
    items.length ≤ 2 ∧ ∀ x ∈ items, unfolded x = true := by
  cases o with
  | not => exact absurd rfl ho
  | _ =>
      rcases items with _ | ⟨x, _ | ⟨y, _ | ⟨z, rest⟩⟩⟩
      · simp
      · exact ⟨by simp, by simpa [unfolded, LogicOperator.symbol] using hrule⟩
      · exact ⟨by simp, by simpa [unfolded, LogicOperator.symbol] using hrule⟩
      · exact absurd hrule (by simp [unfolded, LogicOperator.symbol])

theorem unfolded_compare {o : CompareOperator} {x y : Json}
    (hrule : unfolded (.obj [(o.symbol, .arr [x, y])]) = true) :
    unfolded x = true ∧ unfolded y = true := by
  cases o <;>
    simpa [unfolded, CompareOperator.symbol, CompareOperator.ofSymbol?] using hrule

theorem unfolded_choice {items : List Json}
    (hrule : unfolded (.obj [("if", .arr items)]) = true) :
    items.length ≤ 3 ∧ (2 ≤ items.length → ∀ x ∈ items, unfolded x = true) := by
  match items with
  | [] | [_] => simp
  | [_, _] => exact ⟨by simp, fun _ => by simpa [unfolded, CompareOperator.ofSymbol?] using hrule⟩
  | [_, _, _] =>
      exact ⟨by simp, fun _ => by
        simpa [unfolded, CompareOperator.ofSymbol?, and_assoc] using hrule⟩
  | _ :: _ :: _ :: _ :: _ => exact absurd hrule (by simp [unfolded, CompareOperator.ofSymbol?])

theorem one_le_depth_object (members : Json.Members) : 1 ≤ depth (.obj members) := by
  rw [depth]
  split <;> omega

theorem NoRule.foldedDepth_eq {rule : Json} (hrule : NoRule rule) : foldedDepth rule = 1 := by
  unfold foldedDepth
  cases hrule with
  | not items hitems =>
      cases items with
      | nil => rfl
      | cons x rest =>
          cases rest with
          | nil => exact absurd rfl hitems
          | cons y rest => rfl
  | logic o ho args hargs =>
      cases args with
      | arr items => exact absurd rfl (hargs items)
      | _ =>
          cases o with
          | not => exact absurd rfl ho
          | _ => rfl
  | compare o args hargs => cases o <;> simp [CompareOperator.symbol, CompareOperator.ofSymbol?]
  | choice args hargs =>
      cases args with
      | arr items => exact absurd rfl (hargs items)
      | _ => rfl
  | unknown operator args hvar hnot hand hor hchoice hcompare =>
      simp [hnot, hand, hor, hchoice, hcompare]

theorem NoRule.foldedDepth_le {members : Json.Members} (hrule : NoRule (.obj members)) :
    foldedDepth (.obj members) ≤ depth (.obj members) := by
  rw [hrule.foldedDepth_eq]
  exact one_le_depth_object members

theorem joinedDepth_le {items : List Json} (hlength : items.length ≤ 2)
    (hitems : ∀ x ∈ items, foldedDepth x ≤ depth x) :
    joinedDepth (foldedDepths items) ≤ 1 + depth (.arr items) := by
  match items with
  | [] => exact Nat.le_add_right 1 _
  | [x] =>
      have hone := one_le_foldedDepth x
      have hx := hitems x (by simp)
      rw [depth_single]
      simp only [foldedDepths, joinedDepth]
      omega
  | [x, y] =>
      have hx := hitems x (by simp)
      have hy := hitems y (by simp)
      rw [depth_pair]
      simp only [foldedDepths, joinedDepth, chainDepth]
      omega
  | _ :: _ :: _ :: _ => exact absurd hlength (by simp)

theorem choiceDepth_le {items : List Json} (hlength : items.length ≤ 3)
    (hitems : 2 ≤ items.length → ∀ x ∈ items, foldedDepth x ≤ depth x) :
    choiceDepth items ≤ 1 + depth (.arr items) := by
  match items with
  | [] | [_] => exact Nat.le_add_right 1 _
  | [x, y] =>
      have hx := hitems (by simp) x (by simp)
      have hy := hitems (by simp) y (by simp)
      rw [choiceDepth, depth_pair]
      omega
  | [x, y, z] =>
      have hx := hitems (by simp) x (by simp)
      have hy := hitems (by simp) y (by simp)
      have hz := hitems (by simp) z (by simp)
      rw [choiceDepth, depth_triple]
      omega
  | _ :: _ :: _ :: _ :: _ => exact absurd hlength (by simp)

mutual

/-- The folded depth of a rule in which an import nests nothing anew is at most its depth. -/
theorem foldedDepth_le_of_unfolded {rule : Json} (hrule : unfolded rule = true) :
    foldedDepth rule ≤ depth rule := by
  match rule with
  | .null | .bool _ | .int _ | .float _ | .str _ => simp [foldedDepth, depth]
  | .arr items =>
      rw [depth]
      exact of_decide_eq_true hrule
  | .obj [] => exact one_le_depth_object []
  | .obj (_ :: _ :: _) => exact one_le_depth_object _
  | .obj [(operator, args)] =>
      cases Plan.operatorView operator with
      | var =>
          refine Nat.le_trans (Nat.le_of_eq ?_) (one_le_depth_object _)
          unfold foldedDepth
          simp [CompareOperator.ofSymbol?]
      | not =>
          match args with
          | .arr [x] =>
              have hx : foldedDepth x ≤ depth x := foldedDepth_le_of_unfolded hrule
              rw [foldedDepth_not_single, depth_operator (by decide), depth_single]
              omega
          | .arr [] => exact (NoRule.not _ (by simp)).foldedDepth_le
          | .arr (_ :: _ :: _) => exact (NoRule.not _ (by simp)).foldedDepth_le
          | .null | .bool _ | .int _ | .float _ | .str _ =>
              rw [foldedDepth_not_value (by simp), depth_operator (by decide)]
              simp [foldedDepth, depth]
          | .obj members =>
              have hargs : foldedDepth (.obj members) ≤ depth (.obj members) :=
                foldedDepth_le_of_unfolded hrule
              rw [foldedDepth_not_value (by simp), depth_operator (by decide)]
              omega
      | logic o ho =>
          match args with
          | .arr items =>
              obtain ⟨hlength, hitems⟩ := unfolded_operands ho hrule
              rw [foldedDepth_logic ho, depth_operator o.symbol_ne_var]
              exact joinedDepth_le hlength (foldedDepth_le_of_unfolded_items hitems)
          | .null | .bool _ | .int _ | .float _ | .str _ | .obj _ =>
              exact (NoRule.logic o ho _ (by simp)).foldedDepth_le
      | compare o =>
          match args with
          | .arr [x, y] =>
              have hx := foldedDepth_le_of_unfolded (unfolded_compare hrule).1
              have hy := foldedDepth_le_of_unfolded (unfolded_compare hrule).2
              rw [foldedDepth_compare, depth_operator o.symbol_ne_var, depth_pair]
              omega
          | .arr [] | .arr [_] | .arr (_ :: _ :: _ :: _) | .null | .bool _ | .int _ | .float _
          | .str _ | .obj _ => exact (NoRule.compare o _ (by simp)).foldedDepth_le
      | choice =>
          match args with
          | .arr items =>
              obtain ⟨hlength, hitems⟩ := unfolded_choice hrule
              rw [foldedDepth_choice, depth_operator (by decide)]
              exact choiceDepth_le hlength fun h => foldedDepth_le_of_unfolded_items (hitems h)
          | .null | .bool _ | .int _ | .float _ | .str _ | .obj _ =>
              exact (NoRule.choice _ (by simp)).foldedDepth_le
      | unknown _ hvar hnot hand hor hchoice hcompare =>
          exact (NoRule.unknown _ args hvar hnot hand hor hchoice hcompare).foldedDepth_le

theorem foldedDepth_le_of_unfolded_items {items : List Json}
    (hitems : ∀ x ∈ items, unfolded x = true) : ∀ x ∈ items, foldedDepth x ≤ depth x := by
  match items with
  | [] => simp
  | y :: ys =>
      have hy := foldedDepth_le_of_unfolded (hitems y (by simp))
      have hys := foldedDepth_le_of_unfolded_items fun x hx => hitems x (List.mem_cons_of_mem y hx)
      rintro x (_ | ⟨_, hx⟩)
      · exact hy
      · exact hys x hx

end

/-! ## Limits -/

theorem tooDeep?_eq_none_iff {limit : Int} {rules : List Json} :
    tooDeep? limit rules = none ↔ ∀ rule ∈ rules, (depth rule : Int) ≤ limit := by
  rw [tooDeep?, Option.map_eq_none_iff, List.find?_eq_none]
  constructor
  · intro hnone rule hrule
    obtain ⟨index, hindex⟩ := exists_mem_zipIdx hrule
    simpa using hnone _ hindex
  · intro hall r hr
    simpa using hall r.1 (List.fst_mem_of_mem_zipIdx hr)

theorem tooDeep?_normalRules (c : Context) {limit : Int} {rules : List Json}
    (hrules : ∀ rule ∈ rules, (foldedDepth rule : Int) ≤ limit) :
    tooDeep? limit (normalRules c rules) = none := by
  rw [tooDeep?_eq_none_iff]
  intro compiled hcompiled
  obtain ⟨rule, hrule, rfl⟩ := List.mem_map.mp hcompiled
  have hdepth := (within_normal c rule).2
  have hlimit := hrules rule (List.mem_of_mem_filter hrule)
  omega

/-- Rules whose folded depth keeps a limit compile, once imported, to rules that keep it too. Rules
that keep the limit as they are do so if an import nests nothing anew in them. And the compiled
rules are imported again as they are, so that their depth changes no more. -/
theorem import_depth (i : Importer Double) (journal journal' : Journal Double)
    (hnames : Function.Injective journal.ids.name) (hnames' : Function.Injective journal'.ids.name)
    {document : Json} {rules : List Json}
    (hrules : document.member? "status_rules" = some (.arr rules)) (limit : Int) :
    ∃ imported d compiled,
      i.run document (Desk.fresh i.context.catalog journal) = (.ok imported, d) ∧
      d.graph.ruleTree = .obj [("status_rules", .arr compiled)] ∧
      ((∀ rule ∈ rules, (foldedDepth rule : Int) ≤ limit) → tooDeep? limit compiled = none) ∧
      (tooDeep? limit rules = none → (∀ rule ∈ rules, unfolded rule = true) →
        tooDeep? limit compiled = none) ∧
      ∃ imported' d',
        i.run d.graph.ruleTree (Desk.fresh i.context.catalog journal') = (.ok imported', d') ∧
        d'.graph.ruleTree = d.graph.ruleTree := by
  have hfresh : (Desk.fresh i.context.catalog journal).catalog = i.context.catalog := rfl
  obtain ⟨imported, d, hrun, _, htree⟩ :=
    run_normal i hfresh rfl hnames (rulesOf_of_member? hrules)
  obtain ⟨imported', d', hrun', htree', _⟩ :=
    import_normal i journal' hnames' (normalRules_normal i.context rules)
  rw [← htree] at hrun' htree'
  refine ⟨imported, d, normalRules i.context rules, hrun, htree, tooDeep?_normalRules i.context,
    ?_, imported', d', hrun', htree'⟩
  intro hlimit hunfolded
  apply tooDeep?_normalRules
  intro rule hrule
  have hdepth := foldedDepth_le_of_unfolded (hunfolded rule hrule)
  have := tooDeep?_eq_none_iff.mp hlimit rule hrule
  omega

/-- A conjunction of three and an else-if chain are one deeper once imported, which the folded depth
counts. -/
theorem import_depth_nested :
    let i : Importer Double := ⟨⟨.attendance, false⟩, .usual⟩
    let rules : List Json := [
      .obj [("and", .arr [.bool true, .bool true, .bool false])],
      .obj [("if", .arr [.bool true, .str "LATE", .bool false, .str "ABSENT", .null])]]
    let document : Json := .obj [("status_rules", .arr rules)]
    (∀ rule ∈ rules, depth rule = 2 ∧ foldedDepth rule = 3) ∧
    ∃ imported d compiled,
      i.run document (Desk.fresh i.context.catalog ⟨.counting, []⟩) = (.ok imported, d) ∧
      d.graph.ruleTree = .obj [("status_rules", .arr compiled)] ∧ tooDeep? 3 compiled = none := by
  intro i rules document
  have hdepths : ∀ rule ∈ rules, depth rule = 2 ∧ foldedDepth rule = 3 := by decide +kernel
  have hrules : document.member? "status_rules" = some (.arr rules) := by
    simp [document, Json.member?, Json.find?]
  obtain ⟨imported, d, compiled, hrun, htree, hfolded, _⟩ :=
    import_depth i ⟨.counting, []⟩ ⟨.counting, []⟩ Importer.counting_injective
      Importer.counting_injective hrules 3
  refine ⟨hdepths, imported, d, compiled, hrun, htree, hfolded fun rule hrule => ?_⟩
  rw [(hdepths rule hrule).2]
  decide

/-- Rules that keep a limit need not keep it once imported: a conjunction of three at a limit of
two, and a comparison of empty lists at a limit of one. -/
theorem import_depth_exceeded :
    let i : Importer Double := ⟨⟨.attendance, true⟩, .usual⟩
    let desk := Desk.fresh .attendance ⟨.counting, []⟩
    let folded : List Json := [.obj [("and", .arr [.bool true, .bool true, .bool true])]]
    let empty : List Json := [.obj [("==", .arr [.arr [], .arr []])]]
    (tooDeep? 2 folded = none ∧ ∃ imported d compiled,
      i.run (.obj [("status_rules", .arr folded)]) desk = (.ok imported, d) ∧
      d.graph.ruleTree = .obj [("status_rules", .arr compiled)] ∧ tooDeep? 2 compiled ≠ none) ∧
    tooDeep? 1 empty = none ∧ ∃ imported d compiled,
      i.run (.obj [("status_rules", .arr empty)]) desk = (.ok imported, d) ∧
      d.graph.ruleTree = .obj [("status_rules", .arr compiled)] ∧ tooDeep? 1 compiled ≠ none := by
  intro i desk folded empty
  have hcompiled : ∀ rules : List Json, ∃ imported d,
      i.run (.obj [("status_rules", .arr rules)]) desk = (.ok imported, d) ∧
      d.graph.ruleTree = .obj [("status_rules", .arr (normalRules i.context rules))] := by
    intro rules
    have hrules : rulesOf (.obj [("status_rules", .arr rules)]) = .ok rules := by
      simp [rulesOf, Json.find?]
    obtain ⟨imported, d, hrun, _, htree⟩ :=
      run_normal i (d := desk) rfl rfl Importer.counting_injective hrules
    exact ⟨imported, d, hrun, htree⟩
  obtain ⟨imported, d, hrun, htree⟩ := hcompiled folded
  obtain ⟨imported', d', hrun', htree'⟩ := hcompiled empty
  refine ⟨⟨?_, imported, d, _, hrun, htree, ?_⟩, ?_, imported', d', _, hrun', htree', ?_⟩
  · rw [tooDeep?_eq_none_iff]
    decide +kernel
  · rw [ne_eq, tooDeep?_eq_none_iff]
    decide +kernel
  · rw [tooDeep?_eq_none_iff]
    decide +kernel
  · rw [ne_eq, tooDeep?_eq_none_iff]
    decide +kernel

end RuleCanvas.Rule
