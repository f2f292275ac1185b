import RuleCanvas.Proofs.Rule.Depth

/-! # Size of planned rules

The limit on nodes counts the objects and the literals of rules as they come in, and what is
planned for a rule may have more nodes than that: logic over many operands becomes a chain, an
else-if chain becomes choices in choices, and a list without content, which does not count,
becomes a text. Here the nodes beyond those that are counted are counted too. Where nothing is
nested anew there are none.
-/

namespace RuleCanvas

/-! ## Sizes of plans -/

mutual

/-- The number of nodes that a plan stands for. -/
def Plan.size : Plan → Nat
  | .node _ _ inputs => inputs.size + 1

def Inputs.size : Inputs → Nat
  | .done => 0
  | .unwired rest => rest.size
  | .wired plan rest => plan.size + rest.size

end

namespace Rule

/-- The number of nodes of what is planned for a rule, none for `null`. -/
def plannedSize : Option Plan → Nat
  | none => 0
  | some plan => plan.size

def plannedSizes : List (Option Plan) → Nat
  | [] => 0
  | plan :: rest => plannedSize plan + plannedSizes rest

@[simp] theorem plannedSize_none : plannedSize none = 0 := rfl

@[simp] theorem plannedSize_some (plan : Plan) : plannedSize (some plan) = plan.size := rfl

@[simp] theorem plannedSizes_nil : plannedSizes [] = 0 := rfl

@[simp] theorem plannedSizes_cons (plan : Option Plan) (rest : List (Option Plan)) :
    plannedSizes (plan :: rest) = plannedSize plan + plannedSizes rest := rfl

theorem size_ofList (plans : List (Option Plan)) :
    (Inputs.ofList plans).size = plannedSizes plans := by
  induction plans with
  | nil => rfl
  | cons plan rest ih =>
      cases plan with
      | none => simpa [Inputs.ofList, Inputs.size] using ih
      | some plan => simpa [Inputs.ofList, Inputs.size] using ih

theorem size_node (payload : Payload) (path : String) (plans : List (Option Plan)) :
    (Plan.node payload path (Inputs.ofList plans)).size = plannedSizes plans + 1 := by
  rw [Plan.size, size_ofList]

/-- Folding makes one node for each further operand. -/
theorem size_fold (o : LogicOperator) (path : String) (first : Plan) (plans : List (Option Plan)) :
    (Plan.fold o path first plans).size = first.size + plannedSizes plans + plans.length := by
  induction plans generalizing first with
  | nil => rfl
  | cons plan rest ih =>
      rw [Plan.fold, ih, size_node]
      simp only [plannedSizes_cons, plannedSizes_nil, plannedSize_some, List.length_cons]
      omega

/-! ## Nodes that are not counted -/

mutual

/-- The nodes that an import makes of a rule beyond those that are counted: the text for a list
without content, and all but one of the nodes of a logic or an else-if chain. -/
def uncounted : Json → Nat
  | .arr items => 1 - itemCount items
  | .obj [(operator, args)] =>
    if operator = "not" then
      match args with
      | .arr [x] => uncounted x
      | .arr _ => 0
      | x => uncounted x
    else if operator = "and" ∨ operator = "or" then
      match args with
      | .arr items => (items.length - 2) + uncountedItems items
      | _ => 0
    else if (CompareOperator.ofSymbol? operator).isSome then
      match args with
      | .arr [x, y] => uncounted x + uncounted y
      | _ => 0
    else if operator = "if" then
      match args with
      | .arr items => if items.length < 2 then 0 else (items.length / 2 - 1) + uncountedItems items
      | _ => 0
    else 0
  | _ => 0

def uncountedItems : List Json → Nat
  | [] => 0
  | x :: xs => uncounted x + uncountedItems xs

end

theorem uncounted_not_single (x : Json) : uncounted (.obj [("not", .arr [x])]) = uncounted x := rfl

theorem uncounted_not_value {args : Json} (hargs : ∀ items, args ≠ .arr items) :
    uncounted (.obj [("not", args)]) = uncounted args := by
  cases args with
  | arr items => exact absurd rfl (hargs items)
  | _ => rfl

theorem uncounted_logic {o : LogicOperator} (ho : o ≠ .not) (items : List Json) :
    uncounted (.obj [(o.symbol, .arr items)]) = (items.length - 2) + uncountedItems items := by
  cases o with
  | not => exact absurd rfl ho
  | _ =>
      unfold uncounted
      simp [LogicOperator.symbol]

theorem uncounted_compare (o : CompareOperator) (x y : Json) :
    uncounted (.obj [(o.symbol, .arr [x, y])]) = uncounted x + uncounted y := by
  cases o <;> rfl

theorem uncounted_choice (items : List Json) :
    uncounted (.obj [("if", .arr items)]) =
      if items.length < 2 then 0 else (items.length / 2 - 1) + uncountedItems items := by
  unfold uncounted
  simp [CompareOperator.ofSymbol?]

/-! ## Counted nodes -/

theorem nodeCount_operator (operator : String) (args : Json) :
    nodeCount (.obj [(operator, args)]) = 1 + nodeCount args := by
  simp [nodeCount, memberCount]

theorem nodeCount_arr (items : List Json) : nodeCount (.arr items) = itemCount items := by
  rw [nodeCount]

theorem one_le_nodeCount_obj (members : Json.Members) : 1 ≤ nodeCount (.obj members) := by
  rw [nodeCount]
  exact Nat.le_add_right 1 _

theorem nodeCount_pair (x y : Json) : nodeCount (.arr [x, y]) = nodeCount x + nodeCount y := by
  simp [nodeCount, itemCount]

theorem nodeCount_single (x : Json) : nodeCount (.arr [x]) = nodeCount x := by
  simp [nodeCount, itemCount]

theorem tooLarge?_eq_none_iff {limit : Int} {rules : List Json} :
    tooLarge? limit rules = none ↔ (itemCount rules : Int) ≤ limit := by
  rw [tooLarge?]
  split
  next hlarge => simpa using hlarge
  next hsmall => simpa using hsmall

/-! ## Planning -/

theorem NoRule.plannedSize_eq {rule : Json} (hrule : NoRule rule) (c : Context) (path : String) :
    plannedSize (Plan.ofRule c rule path).1 = 1 := by
  obtain ⟨message, hplan, _⟩ := hrule.plan_eq c path
  rw [hplan]
  rfl

theorem plannedSize_ofVariable (c : Context) (args : Json) (path : String) :
    plannedSize (Plan.ofVariable c args path).1 = 1 := by
  unfold Plan.ofVariable
  cases variableKey? args with
  | none => rfl
  | some key =>
      dsimp only
      split
      · rfl
      · split <;> rfl

theorem plannedSize_ofNegation (draft : Plan.Draft) (path : String) :
    plannedSize (Plan.ofNegation draft path).1 = plannedSize draft.1 + 1 := by
  rw [Plan.ofNegation, plannedSize, size_node]
  simp

/-- A logic node takes one node besides its operands, and one more for each
operand after the second. -/
theorem plannedSize_ofLogic_le (o : LogicOperator) (args : Json) (operands : List Plan.Draft)
    (path : String) :
    plannedSize (Plan.ofLogic o args operands path).1 ≤
      plannedSizes (operands.map (·.1)) + 1 + (operands.length - 2) := by
  have hlength : (operands.map (·.1)).length = operands.length := List.length_map _
  unfold Plan.ofLogic
  dsimp only
  split
  next =>
    change 1 ≤ _
    omega
  next =>
    rw [plannedSize, size_node]
    change 1 ≤ _
    omega
  next operand hoperand =>
    rw [hoperand]
    simp
    omega
  next a b rest hoperand =>
    rw [hoperand] at hlength ⊢
    rw [plannedSize, size_fold, size_node, ← hlength]
    simp
    omega

theorem plannedSize_choice (path : String) (condition whenTrue whenFalse : Option Plan) :
    plannedSize (some (.node .choice path (Inputs.ofList [condition, whenTrue, whenFalse]))) =
      plannedSize condition + plannedSize whenTrue + plannedSize whenFalse + 1 := by
  rw [plannedSize, size_node]
  simp [Nat.add_assoc]

theorem plannedSize_ofChoice_short (c : Context) {items : List Json} (hlength : items.length < 2)
    (path : String) : plannedSize (Plan.ofChoice c items path).1 = 1 := by
  match items with
  | [] | [_] => rfl
  | _ :: _ :: _ => exact absurd hlength (by simp)

mutual

/-- What is planned for a rule has no more nodes than are counted and not counted of it. -/
theorem plannedSize_ofRule_le (c : Context) (rule : Json) (path : String) :
    plannedSize (Plan.ofRule c rule path).1 ≤ nodeCount rule + uncounted rule := by
  match rule with
  | .null => exact Nat.zero_le _
  | .bool _ | .int _ | .float _ | .str _ => exact Nat.le_refl 1
  | .arr items =>
      rw [nodeCount_arr, uncounted]
      change 1 ≤ _
      omega
  | .obj [] | .obj (_ :: _ :: _) => exact Nat.le_add_right_of_le (one_le_nodeCount_obj _)
  | .obj [(operator, args)] =>
      have hplaced {size : Nat} (hsize : size = 1) :
          size ≤ nodeCount (.obj [(operator, args)]) + uncounted (.obj [(operator, args)]) :=
        hsize ▸ Nat.le_add_right_of_le (one_le_nodeCount_obj _)
      rw [nodeCount_operator]
      rw [nodeCount_operator] at hplaced
      cases Plan.operatorView operator with
      | var =>
          rw [Plan.ofRule_var]
          exact hplaced (plannedSize_ofVariable c args path)
      | not =>
          match args with
          | .arr [x] =>
              have hx := plannedSize_ofRule_le c x (path ++ ".not")
              rw [Plan.ofRule_not_single, plannedSize_ofNegation, nodeCount_single,
                uncounted_not_single]
              omega
          | .arr [] | .arr (_ :: _ :: _) =>
              exact hplaced ((NoRule.not _ (by simp)).plannedSize_eq c path)
          | .null => exact Nat.le_succ 1
          | .bool _ | .int _ | .float _ | .str _ => exact Nat.le_refl 2
          | .obj members =>
              have hargs := plannedSize_ofRule_le c (.obj members) (path ++ ".not")
              rw [Plan.ofRule_not_value _ _ (by simp), plannedSize_ofNegation,
                uncounted_not_value (by simp)]
              omega
      | logic o ho =>
          match args with
          | .arr items =>
              have hitems := plannedSizes_ofItems_le c items path o.symbol 0
              have hlogic :=
                plannedSize_ofLogic_le o (.arr items) (Plan.ofItems c items path o.symbol 0) path
              rw [length_ofItems] at hlogic
              rw [Plan.ofRule_logic _ _ ho, nodeCount_arr, uncounted_logic ho]
              omega
          | .null | .bool _ | .int _ | .float _ | .str _ | .obj _ =>
              exact hplaced ((NoRule.logic o ho _ (by simp)).plannedSize_eq c path)
      | compare o =>
          match args with
          | .arr [x, y] =>
              have hx := plannedSize_ofRule_le c x (itemPath path o.symbol 0)
              have hy := plannedSize_ofRule_le c y (itemPath path o.symbol 1)
              rw [Plan.ofRule_compare, nodeCount_pair, uncounted_compare, plannedSize, size_node]
              simp only [plannedSizes_cons, plannedSizes_nil]
              omega
          | .arr [] | .arr [_] | .arr (_ :: _ :: _ :: _)
          | .null | .bool _ | .int _ | .float _ | .str _
          | .obj _ => exact hplaced ((NoRule.compare o _ (by simp)).plannedSize_eq c path)
      | choice =>
          match args with
          | .arr items =>
              rw [Plan.ofRule_choice, nodeCount_arr, uncounted_choice]
              split
              next hshort =>
                rw [plannedSize_ofChoice_short c hshort]
                omega
              next hlong =>
                have hchoice := plannedSize_ofChoice_le c (Nat.le_of_not_lt hlong) path
                omega
          | .null | .bool _ | .int _ | .float _ | .str _ | .obj _ =>
              exact hplaced ((NoRule.choice _ (by simp)).plannedSize_eq c path)
      | unknown _ hvar hnot hand hor hchoice hcompare =>
          exact hplaced
            ((NoRule.unknown _ args hvar hnot hand hor hchoice hcompare).plannedSize_eq c path)

theorem plannedSizes_ofItems_le (c : Context) (items : List Json) (path operator : String)
    (index : Nat) :
    plannedSizes ((Plan.ofItems c items path operator index).map (·.1)) ≤
      itemCount items + uncountedItems items := by
  match items with
  | [] => exact Nat.le_of_eq (by simp [Plan.ofItems, itemCount, uncountedItems])
  | x :: xs =>
      have hx := plannedSize_ofRule_le c x (itemPath path operator index)
      have hxs := plannedSizes_ofItems_le c xs path operator (index + 1)
      rw [Plan.ofItems, itemCount, uncountedItems, List.map_cons, plannedSizes_cons]
      omega

theorem plannedSize_ofChoice_le (c : Context) {items : List Json} (hlength : 2 ≤ items.length)
    (path : String) :
    plannedSize (Plan.ofChoice c items path).1 ≤
      items.length / 2 + (itemCount items + uncountedItems items) := by
  match items with
  | [] | [_] => exact absurd hlength (by simp)
  | [condition, whenTrue] =>
      have hcondition := plannedSize_ofRule_le c condition (itemPath path "if" 0)
      have htrue := plannedSize_ofRule_le c whenTrue (itemPath path "if" 1)
      rw [Plan.ofChoice_pair, plannedSize_choice]
      simp only [itemCount, uncountedItems, plannedSize_none, List.length_cons, List.length_nil]
      omega
  | [condition, whenTrue, whenFalse] =>
      have hcondition := plannedSize_ofRule_le c condition (itemPath path "if" 0)
      have htrue := plannedSize_ofRule_le c whenTrue (itemPath path "if" 1)
      have hfalse := plannedSize_ofRule_le c whenFalse (itemPath path "if" 2)
      rw [Plan.ofChoice_triple, plannedSize_choice]
      simp only [itemCount, uncountedItems, List.length_cons, List.length_nil]
      omega
  | condition :: whenTrue :: x :: y :: rest =>
      have hcondition := plannedSize_ofRule_le c condition (itemPath path "if" 0)
      have htrue := plannedSize_ofRule_le c whenTrue (itemPath path "if" 1)
      have hlonger : 2 ≤ (x :: y :: rest).length := by simp
      have hrest := plannedSize_ofChoice_le c hlonger (path ++ ".if[2:]")
      have hchoice := plannedSize_choice path (Plan.ofRule c condition (itemPath path "if" 0)).1
        (Plan.ofRule c whenTrue (itemPath path "if" 1)).1
        (Plan.ofChoice c (x :: y :: rest) (path ++ ".if[2:]")).1
      refine Nat.le_trans (Nat.le_of_eq hchoice) ?_
      simp only [itemCount, uncountedItems, List.length_cons] at hrest ⊢
      omega

end

/-! ## Rules that are nested as written -/

mutual

/-- A rule is no deeper than the nodes that are counted of it. -/
theorem depth_le_nodeCount (rule : Json) : depth rule ≤ nodeCount rule := by
  match rule with
  | .null | .bool _ | .int _ | .float _ | .str _ => simp [depth, nodeCount]
  | .arr items =>
      rw [depth, nodeCount]
      exact itemDepth_le_itemCount items
  | .obj members =>
      have hmembers := memberDepth_le_memberCount members
      rw [depth, nodeCount]
      split <;> omega

theorem itemDepth_le_itemCount (items : List Json) : itemDepth items ≤ itemCount items := by
  match items with
  | [] => simp [itemDepth]
  | x :: xs =>
      have hx := depth_le_nodeCount x
      have hxs := itemDepth_le_itemCount xs
      rw [itemDepth, itemCount]
      omega

theorem memberDepth_le_memberCount (members : List (String × Json)) :
    memberDepth members ≤ memberCount members := by
  match members with
  | [] => simp [memberDepth]
  | (_, x) :: rest =>
      have hx := depth_le_nodeCount x
      have hrest := memberDepth_le_memberCount rest
      rw [memberDepth, memberCount]
      omega

end

theorem NoRule.uncounted_eq {rule : Json} (hrule : NoRule rule) : uncounted rule = 0 := by
  unfold uncounted
  cases hrule with
  | not items hitems =>
      cases items with
      | nil => rfl
      | cons x rest =>
          cases rest with
          | nil => exact absurd rfl hitems
          | cons y rest => rfl
  | logic o ho args hargs =>
      cases args with
      | arr items => exact absurd rfl (hargs items)
      | _ =>
          cases o with
          | not => exact absurd rfl ho
          | _ => rfl
  | compare o args hargs => cases o <;> simp [CompareOperator.symbol, CompareOperator.ofSymbol?]
  | choice args hargs =>
      cases args with
      | arr items => exact absurd rfl (hargs items)
      | _ => rfl
  | unknown operator args hvar hnot hand hor hchoice hcompare =>
      simp [hnot, hand, hor, hchoice, hcompare]

mutual

/-- All nodes are counted of a rule in which an import nests nothing anew. -/
theorem uncounted_of_unfolded {rule : Json} (hrule : unfolded rule = true) :
    uncounted rule = 0 := by
  match rule with
  | .null | .bool _ | .int _ | .float _ | .str _ | .obj [] | .obj (_ :: _ :: _) => rfl
  | .arr items =>
      have hdepth : 0 < itemDepth items := of_decide_eq_true hrule
      have hcount := itemDepth_le_itemCount items
      rw [uncounted]
      omega
  | .obj [(operator, args)] =>
      cases Plan.operatorView operator with
      | var =>
          unfold uncounted
          simp [CompareOperator.ofSymbol?]
      | not =>
          match args with
          | .arr [x] =>
              have hx : uncounted x = 0 := uncounted_of_unfolded hrule
              rw [uncounted_not_single, hx]
          | .arr [] | .arr (_ :: _ :: _) => exact (NoRule.not _ (by simp)).uncounted_eq
          | .null | .bool _ | .int _ | .float _ | .str _ => rfl
          | .obj members =>
              have hargs : uncounted (.obj members) = 0 := uncounted_of_unfolded hrule
              rw [uncounted_not_value (by simp), hargs]
      | logic o ho =>
          match args with
          | .arr items =>
              obtain ⟨hlength, hitems⟩ := unfolded_operands ho hrule
              rw [uncounted_logic ho, uncountedItems_of_unfolded hitems]
              omega
          | .null | .bool _ | .int _ | .float _ | .str _ | .obj _ =>
              exact (NoRule.logic o ho _ (by simp)).uncounted_eq
      | compare o =>
          match args with
          | .arr [x, y] =>
              obtain ⟨hx, hy⟩ := unfolded_compare hrule
              rw [uncounted_compare, uncounted_of_unfolded hx, uncounted_of_unfolded hy]
          | .arr [] | .arr [_] | .arr (_ :: _ :: _ :: _) | .null | .bool _ | .int _ | .float _
          | .str _ | .obj _ => exact (NoRule.compare o _ (by simp)).uncounted_eq
      | choice =>
          match args with
          | .arr items =>
              obtain ⟨hlength, hitems⟩ := unfolded_choice hrule
              rw [uncounted_choice]
              split
              · rfl
              next hlong =>
                rw [uncountedItems_of_unfolded (hitems (Nat.le_of_not_lt hlong))]
                omega
          | .null | .bool _ | .int _ | .float _ | .str _ | .obj _ =>
              exact (NoRule.choice _ (by simp)).uncounted_eq
      | unknown _ hvar hnot hand hor hchoice hcompare =>
          exact (NoRule.unknown _ args hvar hnot hand hor hchoice hcompare).uncounted_eq

theorem uncountedItems_of_unfolded {items : List Json} (hitems : ∀ x ∈ items, unfolded x = true) :
    uncountedItems items = 0 := by
  match items with
  | [] => rfl
  | x :: xs =>
      have hx := uncounted_of_unfolded (hitems x List.mem_cons_self)
      have hxs := uncountedItems_of_unfolded fun y hy => hitems y (List.mem_cons_of_mem x hy)
      rw [uncountedItems, hx, hxs]

end

end Rule

end RuleCanvas
