import Mathlib.Data.List.Forall2
import RuleCanvas.Proofs.Rule.Compile
import RuleCanvas.Proofs.Rule.Plan

/-! # Graphs that hold plans

A node holds a plan when it has the payload of the plan and every input of it is fed by a node that
holds the plan of that input, where the types fit, and by nothing elsewhere. Such a node compiles to
the rule of the plan, and holds it as long as the graph only grows.
-/

namespace RuleCanvas

variable {α : Type}

namespace Graph

variable {c : Catalog} {g h k : Graph α}

/-! ## Graphs that grow -/

/-- One graph continues another: the nodes of the other keep their payloads and what feeds them. -/
structure Extends (g h : Graph α) : Prop where
  payload : ∀ id, g.hasNode id = true → h.payload? id = g.payload? id
  incoming : ∀ id index, g.hasNode id = true → h.incoming? ⟨id, index⟩ = g.incoming? ⟨id, index⟩

theorem Extends.refl (g : Graph α) : g.Extends g := ⟨fun _ _ => rfl, fun _ _ _ => rfl⟩

theorem Extends.hasNode (hext : g.Extends h) {id : String} (hid : g.hasNode id = true) :
    h.hasNode id = true := by
  rw [hasNode_eq_isSome_payload?, hext.payload id hid, ← hasNode_eq_isSome_payload?]
  exact hid

theorem Extends.trans (hfirst : g.Extends h) (hsecond : h.Extends k) : g.Extends k where
  payload id hid := (hsecond.payload id (hfirst.hasNode hid)).trans (hfirst.payload id hid)
  incoming id index hid :=
    (hsecond.incoming id index (hfirst.hasNode hid)).trans (hfirst.incoming id index hid)

/-! ## Nodes that hold a plan -/

mutual

/-- The node `id` and what feeds it are as a plan says. -/
def Holds (c : Catalog) (g : Graph α) (id : String) : Plan → Prop
  | .node payload _ inputs =>
    g.payload? id = some payload ∧ g.HoldsInputs c id payload.kind 0 inputs

/-- The inputs of the node `id` from `index` on are fed as the plans say. -/
def HoldsInputs (c : Catalog) (g : Graph α) (id : String) (kind : NodeKind) (index : Nat) :
    Inputs → Prop
  | .done => ∀ later, index ≤ later → g.incoming? ⟨id, later⟩ = none
  | .unwired rest =>
    g.incoming? ⟨id, index⟩ = none ∧ g.HoldsInputs c id kind (index + 1) rest
  | .wired plan rest =>
    (if ValueType.compatible (plan.payload.type c) (kind.expected index) then
      ∃ e, g.incoming? ⟨id, index⟩ = some e ∧ g.Holds c e.source.node plan
    else g.incoming? ⟨id, index⟩ = none) ∧ g.HoldsInputs c id kind (index + 1) rest

end

theorem Holds.payload {id : String} {plan : Plan} (hholds : g.Holds c id plan) :
    g.payload? id = some plan.payload := by
  cases plan with
  | node payload path inputs => exact hholds.1

mutual

theorem Holds.extend {id : String} {plan : Plan} (hholds : g.Holds c id plan)
    (hext : g.Extends h) : h.Holds c id plan := by
  cases plan with
  | node payload path inputs =>
      have hid : g.hasNode id = true := hasNode_of_payload? hholds.1
      exact ⟨(hext.payload id hid).trans hholds.1, hholds.2.extend hid hext⟩

theorem HoldsInputs.extend {id : String} {kind : NodeKind} {index : Nat} {inputs : Inputs}
    (hholds : g.HoldsInputs c id kind index inputs) (hid : g.hasNode id = true)
    (hext : g.Extends h) : h.HoldsInputs c id kind index inputs := by
  cases inputs with
  | done =>
      intro later hlater
      exact (hext.incoming id later hid).trans (hholds later hlater)
  | unwired rest =>
      exact ⟨(hext.incoming id index hid).trans hholds.1, hholds.2.extend hid hext⟩
  | wired plan rest =>
      obtain ⟨hfeed, hrest⟩ := hholds
      refine ⟨?_, hrest.extend hid hext⟩
      split
      next hfits =>
        rw [if_pos hfits] at hfeed
        obtain ⟨e, hin, hplan⟩ := hfeed
        exact ⟨e, (hext.incoming id index hid).trans hin, hplan.extend hext⟩
      next hfits =>
        rw [if_neg hfits] at hfeed
        exact (hext.incoming id index hid).trans hfeed

end

mutual

/-- A node that holds a plan compiles to the rule of the plan. -/
theorem Holds.compileNode {id : String} {plan : Plan} (hholds : g.Holds c id plan)
    (hg : g.Wired c) : g.compileNode id = plan.rule c := by
  cases plan with
  | node payload path inputs =>
      rw [hg.compileNode_eq hholds.1, Plan.rule]
      apply Payload.rule_congr
      intro index _
      have hinput := hholds.2.compileInput hg index
      rwa [Nat.zero_add] at hinput

theorem HoldsInputs.compileInput {id : String} {kind : NodeKind} {index : Nat} {inputs : Inputs}
    (hholds : g.HoldsInputs c id kind index inputs) (hg : g.Wired c) (offset : Nat) :
    ((g.incoming? ⟨id, index + offset⟩).map fun e => g.compileNode e.source.node) =
      (inputs.rules c kind index)[offset]?.join := by
  cases inputs with
  | done =>
      rw [hholds (index + offset) (Nat.le_add_right _ _), Inputs.rules]
      rfl
  | unwired rest =>
      cases offset with
      | zero =>
          rw [Nat.add_zero, hholds.1, Inputs.rules]
          rfl
      | succ offset =>
          rw [Inputs.rules, List.getElem?_cons_succ, ← hholds.2.compileInput hg offset,
            Nat.add_right_comm, Nat.add_assoc]
  | wired plan rest =>
      obtain ⟨hfeed, hrest⟩ := hholds
      cases offset with
      | zero =>
          rw [Nat.add_zero, Inputs.rules, List.getElem?_cons_zero, Option.join_some]
          split
          next hfits =>
            rw [if_pos hfits] at hfeed
            obtain ⟨e, hin, hplan⟩ := hfeed
            rw [hin, Option.map_some, hplan.compileNode hg]
          next hfits =>
            rw [if_neg hfits] at hfeed
            rw [hfeed, Option.map_none]
      | succ offset =>
          rw [Inputs.rules, List.getElem?_cons_succ, ← hrest.compileInput hg offset,
            Nat.add_right_comm, Nat.add_assoc]

end

/-- The Result `id` is fed as a rule with this plan says, and by nothing for a rule without one. -/
def HoldsRule (c : Catalog) (g : Graph α) (id : String) (plan : Option Plan) : Prop :=
  g.Holds c id (.node .result "" (Inputs.ofList [plan]))

/-- What a Result compiles to is the rule of its plan. -/
theorem HoldsRule.compileRule {id : String} {plan : Option Plan} (hholds : g.HoldsRule c id plan)
    (hg : g.Wired c) :
    ((g.incoming? ⟨id, 0⟩).map fun e => g.compileNode e.source.node) = plan.map (·.rule c) := by
  have hinput := hholds.2.compileInput hg 0
  rw [Nat.add_zero] at hinput
  rw [hinput]
  cases plan with
  | none => rfl
  | some plan =>
      rw [Inputs.ofList, Inputs.rules, List.getElem?_cons_zero, Option.join_some, if_pos]
      · rfl
      · cases plan.payload.type c <;> rfl

/-- Each of the Results is fed as the plan of its rule says. -/
def HoldsRules (c : Catalog) (g : Graph α) : List (Node α) → List (Option Plan) → Prop :=
  List.Forall₂ fun n plan => g.HoldsRule c n.id plan

theorem HoldsRules.extend {results : List (Node α)} {plans : List (Option Plan)}
    (hholds : g.HoldsRules c results plans) (hext : g.Extends h) :
    h.HoldsRules c results plans :=
  hholds.imp fun _ _ hrule => Holds.extend hrule hext

/-- Results compile to the rules of their plans; `null` gives none. -/
theorem HoldsRules.compileRules {results : List (Node α)} {plans : List (Option Plan)}
    (hholds : g.HoldsRules c results plans) (hg : g.Wired c) :
    (results.filterMap fun n =>
      (g.incoming? ⟨n.id, 0⟩).map fun e => g.compileNode e.source.node) =
        plans.filterMap fun plan => plan.map (·.rule c) := by
  induction hholds with
  | nil => rfl
  | cons hrule _ ih => rw [List.filterMap_cons, List.filterMap_cons, hrule.compileRule hg, ih]

/-! ## A node under construction -/

/-- A new node that feeds nothing yet and is not fed at `index` or later, in a graph that otherwise
continues the one before it. -/
structure Opens (g h : Graph α) (id : String) (payload : Payload) (index : Nat) : Prop where
  extends_ : g.Extends h
  fresh : g.hasNode id = false
  payload : h.payload? id = some payload
  unused : ∀ e ∈ h.edges, e.source.node ≠ id
  free : ∀ later, index ≤ later → h.incoming? ⟨id, later⟩ = none

theorem Wired.opens_addNode (hg : g.Wired c) {n : Node α} (hnew : g.hasNode n.id = false) :
    g.Opens (g.addNode n) n.id n.payload 0 := by
  have hother : ∀ {id}, g.hasNode id = true → id ≠ n.id := by
    rintro id hid rfl
    rw [hnew] at hid
    cases hid
  refine ⟨⟨fun id hid => ?_, fun _ _ _ => rfl⟩, hnew, ?_, fun e he => ?_, fun later _ => ?_⟩
  · rw [payload?_addNode hnew, if_neg (hother hid)]
  · rw [payload?_addNode hnew, if_pos rfl]
  · exact hother (hg.hasNode_of_touches he).1
  · apply (hg.incoming?_eq_none_iff _).mpr
    intro e he htarget
    exact hother (hg.hasNode_of_touches he).2 (congrArg PortRef.node htarget)

theorem Opens.skip {id : String} {payload : Payload} {index : Nat}
    (hopens : g.Opens h id payload index) : g.Opens h id payload (index + 1) :=
  { hopens with free := fun later hlater => hopens.free later (by omega) }

/-- A new edge feeds the input at its end; all other inputs are fed as before. -/
theorem Coherent.incoming?_insertEdge (hg : g.Coherent) {e : Edge}
    (hnew : (g.insertEdge e).Coherent) (target : PortRef) :
    (g.insertEdge e).incoming? target =
      if target = e.target then some e else g.incoming? target := by
  split
  next heq =>
    rw [hnew.incoming?_eq_some_iff, mem_edges_insertEdge]
    exact ⟨.inr rfl, heq.symm⟩
  next hne =>
    ext f
    rw [hnew.incoming?_eq_some_iff, hg.incoming?_eq_some_iff, mem_edges_insertEdge]
    constructor
    · rintro ⟨hf | rfl, htarget⟩
      · exact ⟨hf, htarget⟩
      · exact absurd htarget.symm hne
    · rintro ⟨hf, htarget⟩
      exact ⟨.inl hf, htarget⟩

/-- One graph is another with an edge from a node to an input, if it fits. -/
def Gains (g h : Graph α) (fits : Bool) (source : String) (target : PortRef) : Prop :=
  if fits then ∃ id, h = g.insertEdge ⟨id, ⟨source, 0⟩, target⟩ else h = g

namespace Gains

variable {fits : Bool} {source : String} {target : PortRef}

theorem nodes (hgains : g.Gains h fits source target) : h.nodes = g.nodes := by
  cases fits with
  | true =>
      obtain ⟨_, rfl⟩ := hgains
      rfl
  | false => exact congrArg Graph.nodes hgains

theorem incoming_other (hgains : g.Gains h fits source target) (hg : g.Coherent) (hh : h.Coherent)
    {other : PortRef} (hne : other ≠ target) : h.incoming? other = g.incoming? other := by
  cases fits with
  | true =>
      obtain ⟨_, rfl⟩ := hgains
      rw [hg.incoming?_insertEdge hh, if_neg hne]
  | false => rw [show h = g from hgains]

theorem incoming_target (hgains : g.Gains h fits source target) (hg : g.Coherent)
    (hh : h.Coherent) (hfree : g.incoming? target = none) :
    if fits then ∃ e, h.incoming? target = some e ∧ e.source.node = source
    else h.incoming? target = none := by
  cases fits with
  | true =>
      obtain ⟨id, rfl⟩ := hgains
      refine ⟨⟨id, ⟨source, 0⟩, target⟩, ?_, rfl⟩
      rw [hg.incoming?_insertEdge hh, if_pos rfl]
  | false =>
      rw [show h = g from hgains]
      exact hfree

end Gains

/-- A node under construction stays so when its next input is fed by a node that
was there before. -/
theorem Opens.feed {id source : String} {payload : Payload} {index : Nat} {fits : Bool}
    (hopens : g.Opens h id payload index) (hgains : h.Gains k fits source ⟨id, index⟩)
    (hh : h.Coherent) (hk : k.Coherent) (hsource : source ≠ id) :
    g.Opens k id payload (index + 1) := by
  have hpayload := payload?_congr hgains.nodes
  -- Only the input that is fed changes, and it belongs to the node under construction.
  have hother : ∀ {x port}, ¬ (x = id ∧ port = index) →
      k.incoming? ⟨x, port⟩ = h.incoming? ⟨x, port⟩ := by
    intro x port hne
    apply hgains.incoming_other hh hk
    rwa [Ne, PortRef.mk.injEq]
  refine ⟨⟨fun x hx => ?_, fun x port hx => ?_⟩, hopens.fresh, ?_, fun e he => ?_,
    fun later hlater => ?_⟩
  · rw [hpayload, hopens.extends_.payload x hx]
  · rw [hother, hopens.extends_.incoming x port hx]
    rintro ⟨rfl, _⟩
    rw [hopens.fresh] at hx
    cases hx
  · rw [hpayload, hopens.payload]
  · cases fits with
    | true =>
        obtain ⟨_, rfl⟩ := hgains
        rcases (mem_edges_insertEdge h _ e).mp he with he | rfl
        · exact hopens.unused e he
        · exact hsource
    | false =>
        rw [show k = h from hgains] at he
        exact hopens.unused e he
  · rw [hother, hopens.free later (by omega)]
    rintro ⟨_, rfl⟩
    omega

/-- Feeds as they are collected for the inputs from `index` on, each with the node that holds its
plan. -/
def Feeding (c : Catalog) (g : Graph α) : Nat → Inputs → List Rule.Feed → Prop
  | _, .done, feeds => feeds = []
  | index, .unwired rest, feeds => g.Feeding c (index + 1) rest feeds
  | index, .wired plan rest, feeds =>
    ∃ id later, feeds = ⟨index, id, plan.path⟩ :: later ∧ g.Holds c id plan ∧
      g.Feeding c (index + 1) rest later

end Graph

end RuleCanvas
