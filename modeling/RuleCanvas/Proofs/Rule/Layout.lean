import Mathlib.Data.List.Perm.Subperm
import RuleCanvas.Proofs.Rule.Plan

/-! # What placing adds

The nodes and the edges that placing a plan adds to a graph, in the order in which they are added
and at their places. A node comes after all that stands at its inputs, in the band of the plan, and
then an edge for each of its feeds whose type fits. Each node is wired at most once, so that the
edges can be counted by their sources.
-/

namespace RuleCanvas

theorem Payload.kind_ne_result {p : Payload} (hp : p ≠ .result) : p.kind ≠ .result := by
  cases p <;> simp_all [Payload.kind]

namespace Rule

/-- The edges of the feeds of a node at its inputs from `index` on: one for each feed that fits. -/
inductive Wires (c : Catalog) (kind : NodeKind) (target : String) :
    Nat → Inputs → List Feed → List Edge → Prop
  | done (index : Nat) : Wires c kind target index .done [] []
  | unwired {index : Nat} {rest : Inputs} {feeds : List Feed} {wires : List Edge}
      (hrest : Wires c kind target (index + 1) rest feeds wires) :
      Wires c kind target index (.unwired rest) feeds wires
  | fits {index : Nat} {plan : Plan} {rest : Inputs} {feeds : List Feed} {wires : List Edge}
      (feed : Feed) (edge : String)
      (hfits : ValueType.compatible (plan.payload.type c) (kind.expected index) = true)
      (hrest : Wires c kind target (index + 1) rest feeds wires) :
      Wires c kind target index (.wired plan rest) (feed :: feeds)
        (⟨edge, ⟨feed.id, 0⟩, ⟨target, index⟩⟩ :: wires)
  | refused {index : Nat} {plan : Plan} {rest : Inputs} {feeds : List Feed} {wires : List Edge}
      (feed : Feed)
      (hmisfit : ValueType.compatible (plan.payload.type c) (kind.expected index) = false)
      (hrest : Wires c kind target (index + 1) rest feeds wires) :
      Wires c kind target index (.wired plan rest) (feed :: feeds) wires

variable {α : Type} [Scalar α]

mutual

/-- What placing a plan in the band that starts at `top` adds, and the id of its node. -/
inductive Placed (i : Importer α) : Nat → α → Plan → String → List (Node α) → List Edge → Prop
  | node {depth : Nat} {top : α} {payload : Payload} {path : String} {inputs : Inputs}
      {feeds : List Feed} {nodes : List (Node α)} {edges wires : List Edge} (id : String)
      (hinputs : PlacedInputs i (depth + 1) top 0 inputs feeds nodes edges)
      (hwires : Wires i.context.catalog payload.kind id 0 inputs feeds wires) :
      Placed i depth top (.node payload path inputs) id
        (nodes ++ [⟨id, i.spacing.x depth, i.spacing.y top (max 1 inputs.rows), payload⟩])
        (edges ++ wires)

/-- What placing the inputs of a node from `index` on adds, and the feeds that are collected. -/
inductive PlacedInputs (i : Importer α) :
    Nat → α → Nat → Inputs → List Feed → List (Node α) → List Edge → Prop
  | done (depth : Nat) (top : α) (index : Nat) : PlacedInputs i depth top index .done [] [] []
  | unwired {depth : Nat} {top : α} {index : Nat} {rest : Inputs} {feeds : List Feed}
      {nodes : List (Node α)} {edges : List Edge}
      (hrest : PlacedInputs i depth top (index + 1) rest feeds nodes edges) :
      PlacedInputs i depth top index (.unwired rest) feeds nodes edges
  | wired {depth : Nat} {top : α} {index : Nat} {plan : Plan} {rest : Inputs} {id : String}
      {feeds : List Feed} {nodes nodes' : List (Node α)} {edges edges' : List Edge}
      (hplan : Placed i depth top plan id nodes edges)
      (hrest : PlacedInputs i depth (i.spacing.below top plan.rows) (index + 1) rest feeds nodes'
        edges') :
      PlacedInputs i depth top index (.wired plan rest) (⟨index, id, plan.path⟩ :: feeds)
        (nodes ++ nodes') (edges ++ edges')

end

/-- What placing a rule adds, and the id of its Result. A Result takes values of every type, so that
the edge that leads to it is never refused. -/
inductive PlacedRule (i : Importer α) (top : α) :
    Option Plan → String → List (Node α) → List Edge → Prop
  | null (id : String) :
      PlacedRule i top none id [⟨id, i.spacing.x 0, top, .result⟩] []
  | plan {plan : Plan} {root : String} {nodes : List (Node α)} {edges : List Edge}
      (id edge : String) (hplan : Placed i 1 top plan root nodes edges) :
      PlacedRule i top (some plan) id
        (nodes ++ [⟨id, i.spacing.x 0, i.spacing.y top plan.rows, .result⟩])
        (edges ++ [⟨edge, ⟨root, 0⟩, ⟨id, 0⟩⟩])

/-- What placing rules below each other adds, and the ids of their Results. -/
inductive PlacedRules (i : Importer α) :
    α → List (Option Plan) → List String → List (Node α) → List Edge → Prop
  | nil (top : α) : PlacedRules i top [] [] [] []
  | cons {top : α} {plan : Option Plan} {rest : List (Option Plan)} {id : String}
      {ids : List String} {nodes nodes' : List (Node α)} {edges edges' : List Edge}
      (hplan : PlacedRule i top plan id nodes edges)
      (hrest : PlacedRules i (i.spacing.below top (Importer.ruleRows plan + 1)) rest ids nodes'
        edges') :
      PlacedRules i top (plan :: rest) (id :: ids) (nodes ++ nodes') (edges ++ edges')

/-! ## Sources of edges -/

section

variable {c : Catalog} {kind : NodeKind} {target : String} {index : Nat} {inputs : Inputs}
  {feeds : List Feed} {wires : List Edge}

omit [Scalar α] in
theorem Wires.sources (hwires : Wires c kind target index inputs feeds wires) :
    (wires.map (·.source.node)).Sublist (feeds.map (·.id)) := by
  induction hwires with
  | done => exact .slnil
  | unwired _ ih => exact ih
  | fits _ _ _ _ ih => exact ih.cons_cons _
  | refused _ _ _ ih => exact ih.cons _

omit [Scalar α] in
/-- Of the feeds of a node each has an edge or is reported. -/
theorem Wires.length_feeds (hwires : Wires c kind target index inputs feeds wires) :
    feeds.length = wires.length + (inputs.misfits c kind index).length := by
  induction hwires with
  | done => rfl
  | unwired _ ih => exact ih
  | fits _ _ hfits _ ih =>
      rw [Inputs.misfits, misfit, if_pos hfits, List.nil_append, List.length_cons, List.length_cons,
        ih]
      omega
  | refused _ hmisfit _ ih =>
      rw [Inputs.misfits, misfit, if_neg (by simp [hmisfit]), List.length_append, List.length_cons,
        List.length_singleton, ih]
      omega

end

variable {i : Importer α}

mutual

/-- No node of a plan is the source of more than one edge, and the last is the source of none. -/
theorem Placed.sources {depth : Nat} {top : α} {plan : Plan} {id : String} {nodes : List (Node α)}
    {edges : List Edge} (hplaced : Placed i depth top plan id nodes edges) :
    (edges.map (·.source.node) ++ [id]).Subperm (nodes.map (·.id)) := by
  cases plan with
  | node payload path inputs =>
      cases hplaced with
      | node _ hinputs hwires =>
          rw [List.map_append, List.map_append]
          refine .append ?_ (.refl _)
          exact (List.Sublist.append (.refl _) hwires.sources).subperm.trans hinputs.sources

theorem PlacedInputs.sources {depth : Nat} {top : α} {index : Nat} {inputs : Inputs}
    {feeds : List Feed} {nodes : List (Node α)} {edges : List Edge}
    (hplaced : PlacedInputs i depth top index inputs feeds nodes edges) :
    (edges.map (·.source.node) ++ feeds.map (·.id)).Subperm (nodes.map (·.id)) := by
  cases inputs with
  | done =>
      cases hplaced
      exact .refl _
  | unwired rest =>
      cases hplaced with
      | unwired hrest => exact hrest.sources
  | wired plan rest =>
      cases hplaced with
      | wired hplan hrest =>
          rw [List.map_append, List.map_append, List.map_cons]
          -- The node of the plan moves behind the edges of the other inputs.
          refine (List.Perm.subperm_right ?_).mp (hplan.sources.append hrest.sources)
          simp only [List.append_assoc, List.singleton_append, List.perm_append_left_iff]
          exact List.perm_middle.symm

end

mutual

/-- Of the nodes of a plan all but the last feed another, by an edge or by a
feed that is reported. -/
theorem Placed.length_nodes {depth : Nat} {top : α} {plan : Plan} {id : String}
    {nodes : List (Node α)} {edges : List Edge} (hplaced : Placed i depth top plan id nodes edges) :
    nodes.length = edges.length + (plan.allMisfits i.context.catalog).length + 1 := by
  cases plan with
  | node payload path inputs =>
      cases hplaced with
      | node _ hinputs hwires =>
          have hbelow := hinputs.length_nodes
          have hfeeds := hwires.length_feeds
          simp only [Plan.allMisfits, List.length_append, List.length_singleton]
          omega

theorem PlacedInputs.length_nodes {depth : Nat} {top : α} {index : Nat} {inputs : Inputs}
    {feeds : List Feed} {nodes : List (Node α)} {edges : List Edge}
    (hplaced : PlacedInputs i depth top index inputs feeds nodes edges) :
    nodes.length = edges.length + (inputs.allMisfits i.context.catalog).length + feeds.length := by
  cases inputs with
  | done =>
      cases hplaced
      rfl
  | unwired rest =>
      cases hplaced with
      | unwired hrest => exact hrest.length_nodes
  | wired plan rest =>
      cases hplaced with
      | wired hplan hrest =>
          have hfirst := hplan.length_nodes
          have hlater := hrest.length_nodes
          simp only [Inputs.allMisfits, List.length_append, List.length_cons]
          omega

end

mutual

theorem Placed.ne_result {depth : Nat} {top : α} {plan : Plan} {id : String} {nodes : List (Node α)}
    {edges : List Edge} (hplaced : Placed i depth top plan id nodes edges)
    (hproper : plan.Proper i.context) : ∀ n ∈ nodes, n.payload ≠ .result := by
  cases plan with
  | node payload path inputs =>
      cases hplaced with
      | node _ hinputs _ =>
          intro n hn
          rcases List.mem_append.mp hn with hn | hn
          · exact hinputs.ne_result hproper.2.2 n hn
          · rw [List.mem_singleton.mp hn]
            exact hproper.1.ne_result

theorem PlacedInputs.ne_result {depth : Nat} {top : α} {index : Nat} {inputs : Inputs}
    {feeds : List Feed} {nodes : List (Node α)} {edges : List Edge}
    (hplaced : PlacedInputs i depth top index inputs feeds nodes edges)
    (hproper : inputs.Proper i.context) : ∀ n ∈ nodes, n.payload ≠ .result := by
  cases inputs with
  | done =>
      cases hplaced
      nofun
  | unwired rest =>
      cases hplaced with
      | unwired hrest => exact hrest.ne_result hproper
  | wired plan rest =>
      cases hplaced with
      | wired hplan hrest =>
          intro n hn
          rcases List.mem_append.mp hn with hn | hn
          · exact hplan.ne_result hproper.1 n hn
          · exact hrest.ne_result hproper.2 n hn

end

/-! ## Documents -/

/-- The nodes of a list that are Results. -/
def ends (nodes : List (Node α)) : List (Node α) := nodes.filter fun n => n.kind == .result

/-- The nodes of a list that are no Results. -/
def inner (nodes : List (Node α)) : List (Node α) := nodes.filter fun n => n.kind != .result

section

omit [Scalar α]

theorem ends_append (nodes nodes' : List (Node α)) :
    ends (nodes ++ nodes') = ends nodes ++ ends nodes' :=
  List.filter_append ..

theorem inner_append (nodes nodes' : List (Node α)) :
    inner (nodes ++ nodes') = inner nodes ++ inner nodes' :=
  List.filter_append ..

theorem ends_eq_nil {nodes : List (Node α)} (hnodes : ∀ n ∈ nodes, n.payload ≠ .result) :
    ends nodes = [] := by
  refine List.filter_eq_nil_iff.mpr fun n hn => ?_
  have hkind : n.kind ≠ .result := Payload.kind_ne_result (hnodes n hn)
  simpa using hkind

theorem inner_eq_self {nodes : List (Node α)} (hnodes : ∀ n ∈ nodes, n.payload ≠ .result) :
    inner nodes = nodes := by
  refine List.filter_eq_self.mpr fun n hn => ?_
  have hkind : n.kind ≠ .result := Payload.kind_ne_result (hnodes n hn)
  simpa using hkind

end

/-- What is counted of what placing rules adds: a Result for each rule, and of the other nodes one
for each edge and one for each feed that is reported, none of which is the source of two edges. -/
structure Counted (results : List String) (nodes : List (Node α)) (edges : List Edge)
    (reported : Nat) : Prop where
  results : (ends nodes).map (·.id) = results
  sources : (edges.map (·.source.node)).Subperm ((inner nodes).map (·.id))
  length : (inner nodes).length = edges.length + reported

omit [Scalar α] in
theorem Counted.append {results results' : List String} {nodes nodes' : List (Node α)}
    {edges edges' : List Edge} {reported reported' : Nat}
    (hfirst : Counted results nodes edges reported)
    (hsecond : Counted results' nodes' edges' reported') :
    Counted (results ++ results') (nodes ++ nodes') (edges ++ edges') (reported + reported') where
  results := by rw [ends_append, List.map_append, hfirst.results, hsecond.results]
  sources := by
    rw [inner_append, List.map_append, List.map_append]
    exact hfirst.sources.append hsecond.sources
  length := by
    rw [inner_append, List.length_append, List.length_append, hfirst.length, hsecond.length]
    omega

theorem PlacedRule.counted {top : α} {plan : Option Plan} {id : String} {nodes : List (Node α)}
    {edges : List Edge} (hplaced : PlacedRule i top plan id nodes edges)
    (hproper : ∀ p ∈ plan, p.Proper i.context) :
    Counted [id] nodes edges ((plan.map (·.allMisfits i.context.catalog)).getD []).length := by
  cases hplaced with
  | null id => exact ⟨rfl, .refl _, rfl⟩
  | @plan plan root nodes edges id edge hplan =>
      have hnodes := hplan.ne_result (hproper _ rfl)
      have hinner : inner (nodes ++ [⟨id, i.spacing.x 0, i.spacing.y top plan.rows, .result⟩]) =
          nodes := by
        rw [inner_append, inner_eq_self hnodes]
        exact List.append_nil nodes
      refine ⟨?_, ?_, ?_⟩
      · rw [ends_append, ends_eq_nil hnodes]
        rfl
      · rw [hinner, List.map_append]
        exact hplan.sources
      · rw [hinner, hplan.length_nodes, List.length_append]
        exact Nat.add_right_comm _ _ _

/-- The issues of all feeds in the plans of rules. -/
def Importer.rulesMisfits (i : Importer α) (plans : List (Option Plan)) : List ImportIssue :=
  plans.flatMap fun plan => (plan.map (·.allMisfits i.context.catalog)).getD []

theorem PlacedRules.counted {top : α} {plans : List (Option Plan)} {ids : List String}
    {nodes : List (Node α)} {edges : List Edge} (hplaced : PlacedRules i top plans ids nodes edges)
    (hproper : ∀ plan ∈ plans, ∀ p ∈ plan, p.Proper i.context) :
    Counted ids nodes edges (i.rulesMisfits plans).length := by
  induction hplaced with
  | nil => exact ⟨rfl, .refl _, rfl⟩
  | cons hplan _ ih =>
      rw [Importer.rulesMisfits, List.flatMap_cons, List.length_append]
      exact (hplan.counted (hproper _ List.mem_cons_self)).append
        (ih fun plan hmem => hproper plan (List.mem_cons_of_mem _ hmem))

end Rule

end RuleCanvas
