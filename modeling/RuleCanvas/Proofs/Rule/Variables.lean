import RuleCanvas.Proofs.Graph.Lookup
import RuleCanvas.Rule.Compile

/-! # Variables of rules

Every variable that a graph compiles to is the key of one of its nodes, whatever the edges are: the
walk puts rules together from those of nodes, and no other node has a member of that name.
-/

namespace RuleCanvas

theorem LogicOperator.symbol_ne_var (o : LogicOperator) : o.symbol ≠ "var" := by
  cases o <;> decide

theorem CompareOperator.symbol_ne_var (o : CompareOperator) : o.symbol ≠ "var" := by
  cases o <;> decide

namespace Rule

mutual

/-- All values under the name `var`, at any depth. -/
def namedValues : Json → List Json
  | .obj members => memberValues members
  | .arr items => itemValues items
  | _ => []

def itemValues : List Json → List Json
  | [] => []
  | x :: xs => namedValues x ++ itemValues xs

def memberValues : List (String × Json) → List Json
  | [] => []
  | (name, x) :: ms => (if name = "var" then [x] else []) ++ namedValues x ++ memberValues ms

end

/-- A rule whose variables are keys of a kind. -/
def VariablesIn (allowed : String → Prop) (rule : Json) : Prop :=
  ∀ v ∈ namedValues rule, ∃ key, allowed key ∧ v = .str key

variable {allowed : String → Prop}

theorem variablesIn_null : VariablesIn allowed .null := by simp [VariablesIn, namedValues]

theorem variablesIn_literal (l : Literal) : VariablesIn allowed l.toJson := by
  cases l <;> simp [Literal.toJson, VariablesIn, namedValues]

theorem variablesIn_items {items : List Json} (hitems : ∀ x ∈ items, VariablesIn allowed x) :
    VariablesIn allowed (.arr items) := by
  intro v hv
  rw [namedValues] at hv
  induction items with
  | nil => simp [itemValues] at hv
  | cons x xs ih =>
      rw [itemValues] at hv
      rcases List.mem_append.mp hv with hv | hv
      · exact hitems x List.mem_cons_self v hv
      · exact ih (fun y hy => hitems y (List.mem_cons_of_mem x hy)) hv

theorem variablesIn_operator {operator : String} (hoperator : operator ≠ "var") {args : Json}
    (hargs : VariablesIn allowed args) : VariablesIn allowed (.obj [(operator, args)]) := by
  intro v hv
  exact hargs v (by simpa [namedValues, memberValues, hoperator] using hv)

theorem variablesIn_var {key : String} (hkey : allowed key) :
    VariablesIn allowed (.obj [("var", .str key)]) := by
  intro v hv
  exact ⟨key, hkey, by simpa [namedValues, memberValues] using hv⟩

end Rule

open Rule

variable {allowed : String → Prop}

/-- The rule of a node names what its inputs name, and the key of a variable. -/
theorem Payload.variablesIn_rule {p : Payload} (hp : ∀ key, p = .var key → allowed key)
    {input : Nat → Option Json} (hinput : ∀ index, ∀ r ∈ input index, VariablesIn allowed r) :
    VariablesIn allowed (p.rule input) := by
  have hread : ∀ (index : Nat) (default : Json), VariablesIn allowed default →
      VariablesIn allowed ((input index).getD default) := by
    intro index default hdefault
    cases hrule : input index with
    | none => exact hdefault
    | some r => exact hinput index r hrule
  have hnull : ∀ index, VariablesIn allowed ((input index).getD .null) := fun index =>
    hread index .null variablesIn_null
  cases p with
  | constant l => exact variablesIn_literal l
  | var key => exact variablesIn_var (hp key rfl)
  | logic o =>
      cases o with
      | not => exact variablesIn_operator (by decide) (hnull 0)
      | and | or =>
          exact variablesIn_operator (by decide) (variablesIn_items (by simp [hnull]))
  | compare o =>
      exact variablesIn_operator o.symbol_ne_var (variablesIn_items (by simp [hnull]))
  | choice =>
      have hcondition := hread 0 (.bool true) (variablesIn_literal (.bool true))
      have htrue := hread 1 (.str "PRESENT") (variablesIn_literal (.str "PRESENT"))
      exact variablesIn_operator (by decide)
        (variablesIn_items (by simp [hcondition, htrue, hnull]))
  | result => exact variablesIn_null

namespace Graph

variable {α : Type} {g : Graph α}

theorem variablesIn_resolve (hg : ∀ n ∈ g.nodes, ∀ key, n.payload = .var key → allowed key)
    (depth : Nat) (path : List String) (id : String) :
    VariablesIn allowed (g.resolve depth path id) := by
  induction depth generalizing path id with
  | zero => exact variablesIn_null
  | succ depth ih =>
      rw [resolve]
      split
      · exact variablesIn_null
      · split
        next p hpayload =>
          obtain ⟨n, hnode, rfl⟩ := Option.map_eq_some_iff.mp hpayload
          refine Payload.variablesIn_rule (hg n (mem_of_node?_eq_some hnode)) fun index r hr => ?_
          obtain ⟨e, _, rfl⟩ := Option.map_eq_some_iff.mp hr
          exact ih (id :: path) e.source.node
        · exact variablesIn_null

/-- Every variable in the rule tree of a graph is the key of a node. -/
theorem variablesIn_ruleTree (hg : ∀ n ∈ g.nodes, ∀ key, n.payload = .var key → allowed key) :
    VariablesIn allowed g.ruleTree := by
  refine variablesIn_operator (by decide) (variablesIn_items fun rule hrule => ?_)
  obtain ⟨n, _, hfed⟩ := List.mem_filterMap.mp hrule
  obtain ⟨e, _, rfl⟩ := Option.map_eq_some_iff.mp hfed
  exact variablesIn_resolve hg _ _ _

end Graph

end RuleCanvas
