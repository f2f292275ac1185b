import RuleCanvas.Proofs.Rule.Unfold

/-! # Compiling after a removal

A node that is removed takes the edges at it along, and what it fed is not wired any more. To the
rules of the other nodes this is the same as cutting the edges that lead out of the node and leaving
it where it is: no walk comes to a node that feeds nothing, so it makes no difference whether the
node is still there. Each input that is freed takes the default of its own place, at any depth and
as often as it is shared.
-/

namespace RuleCanvas

open Relation

/-- A rule is made from values for all inputs, the default where one has none. -/
theorem Payload.rule_eq_unwired (p : Payload) (input : Nat → Option Json) :
    p.rule input = p.rule fun index => some ((input index).getD (p.unwired index)) := by
  cases p with
  | logic o => cases o <;> simp [rule, unwired]
  | constant | var | compare | choice | result => simp [rule, unwired]

theorem Edge.touches_iff (e : Edge) (id : String) :
    e.touches id = true ↔ e.source.node = id ∨ e.target.node = id := by simp [touches]

namespace Graph

variable {α : Type} {c : Catalog} {g h : Graph α} {removed id : String}

/-! ## Inputs that are freed -/

/-- The graph in which a node feeds nothing: the edges that lead out of it are dropped, and the node
stays. -/
def unfed (g : Graph α) (id : String) : Graph α := (g.outgoing id).foldl dropEdge g

theorem nodes_unfed (g : Graph α) (id : String) : (g.unfed id).nodes = g.nodes :=
  nodes_foldl_dropEdge _ g

theorem Linked.unfed (hg : g.Linked c) (id : String) : (g.unfed id).Linked c := by
  apply hg.foldl_dropEdge
  intro e he
  exact hg.eq_of_mem_of_id (List.mem_filter.mp he).1

theorem Indexed.mem_edges_unfed (hg : g.Indexed) (id : String) (e : Edge) :
    e ∈ (g.unfed id).edges ↔ e ∈ g.edges ∧ e.source.node ≠ id := by
  have hedges := hg.edges_foldl_filter fun e => e.source.node == id
  rw [Graph.unfed, outgoing, hedges]
  simp

/-- In a graph with some of the edges of another, an input has the edge that it had or none. -/
theorem Indexed.incoming?_filter (hg : g.Indexed) (hh : h.Indexed) {kept : Edge → Bool}
    (hedges : ∀ e, e ∈ h.edges ↔ e ∈ g.edges ∧ kept e = true) (port : PortRef) :
    h.incoming? port = (g.incoming? port).filter kept := by
  ext e
  rw [hh.incoming?_eq_some_iff, hedges, Option.filter_eq_some_iff, hg.incoming?_eq_some_iff,
    and_right_comm]

/-- Where the edges out of one node are gone, the inputs of the others lose that
source and no other. -/
theorem Indexed.sourceAt?_filter (hg : g.Indexed) (hh : h.Indexed) (kept : Edge → Bool)
    (hedges : ∀ e, e ∈ h.edges ↔ e ∈ g.edges ∧ kept e = true)
    (hkept : ∀ e, e.target.node = id → kept e = decide (e.source.node ≠ removed)) (index : Nat) :
    h.sourceAt? id index = (g.sourceAt? id index).filter (· ≠ removed) := by
  rw [sourceAt?, sourceAt?, hg.incoming?_filter hh hedges]
  cases hin : g.incoming? ⟨id, index⟩ with
  | none => rfl
  | some e =>
      obtain ⟨_, htarget⟩ := (hg.incoming?_eq_some_iff _ e).mp hin
      have hsame := hkept e (congrArg PortRef.node htarget)
      by_cases hsource : e.source.node = removed <;> simp [Option.filter_some, hsame, hsource]

theorem Linked.sourceAt?_unfed (hg : g.Linked c) (removed id : String) (index : Nat) :
    (g.unfed removed).sourceAt? id index = (g.sourceAt? id index).filter (· ≠ removed) := by
  apply hg.sourceAt?_filter (hg.unfed removed).toIndexed fun e => decide (e.source.node ≠ removed)
  · simp [hg.mem_edges_unfed]
  · simp

theorem Linked.sourceAt?_removeNode (hg : g.Linked c) (hother : id ≠ removed) (index : Nat) :
    (g.removeNode removed).sourceAt? id index = (g.sourceAt? id index).filter (· ≠ removed) := by
  apply hg.sourceAt?_filter (hg.removeNode removed).toIndexed fun e => !e.touches removed
  · simp [hg.mem_edges_removeNode]
  · intro e htarget
    rw [Bool.eq_iff_iff, Bool.not_eq_true', ← Bool.not_eq_true, Edge.touches_iff, htarget]
    simp [hother]

/-! ## The other nodes -/

/-- From any other node the walk meets the same nodes, whether the one that feeds
nothing is there or not. -/
theorem Linked.sameCone_unfed (hg : g.Linked c) (hother : id ≠ removed) :
    (g.unfed removed).SameCone (g.removeNode removed) id := by
  intro met hpath
  have hmet : met ≠ removed := by
    induction hpath with
    | refl => exact hother
    | tail _ hdraws _ =>
        obtain ⟨_, _, index, _, hsource⟩ := hdraws
        rw [hg.sourceAt?_unfed, Option.filter_eq_some_iff] at hsource
        simpa using hsource.2
  refine ⟨?_, fun p _ index _ => ?_⟩
  · rw [payload?_removeNode, if_neg hmet, payload?_congr (g.nodes_unfed removed)]
  · rw [hg.sourceAt?_removeNode hmet, hg.sourceAt?_unfed]

theorem Linked.compileNode_removeNode (hg : g.Linked c) (hother : id ≠ removed) :
    (g.removeNode removed).compileNode id = (g.unfed removed).compileNode id :=
  (hg.sameCone_unfed hother).compileNode_eq.symm

theorem Wired.removeNode (hg : g.Wired c) (id : String) : (g.removeNode id).Wired c := by
  apply (hg.toLinked.removeNode id).wired
  apply hg.acyclic.mono
  intro e he
  exact ((hg.mem_edges_removeNode id e).mp he).1

/-- The rule of another node is made from its inputs, where those that were fed by the removed
node have their defaults. -/
theorem Wired.compileNode_removeNode_eq (hg : g.Wired c) (hother : id ≠ removed) {p : Payload}
    (hpayload : g.payload? id = some p) :
    (g.removeNode removed).compileNode id = p.rule fun index =>
      some (((g.sourceAt? id index).filter (· ≠ removed)).elim (p.unwired index)
        (g.removeNode removed).compileNode) := by
  have hkept : (g.removeNode removed).payload? id = some p := by
    rw [payload?_removeNode, if_neg hother, hpayload]
  rw [(hg.removeNode removed).compileNode_eq_map hkept, Payload.rule_eq_unwired]
  congr 1
  ext index
  rw [hg.toLinked.sourceAt?_removeNode hother]
  cases (g.sourceAt? id index).filter (· ≠ removed) <;> rfl

/-! ## The Results -/

theorem nodes_removeNode (g : Graph α) (id : String) :
    (g.removeNode id).nodes = g.nodes.filter fun n => n.id ≠ id := by
  rw [removeNode, nodes_foldl_dropEdge]
  apply List.filter_congr
  intro n _
  rw [Bool.eq_iff_iff, bne_iff_ne, decide_eq_true_iff]

theorem ofKind_removeNode (g : Graph α) (id : String) (kind : NodeKind) :
    (g.removeNode id).ofKind kind = (g.ofKind kind).filter fun n => n.id ≠ id := by
  rw [ofKind, nodes_removeNode, ofKind, List.filter_comm]

/-- Each Result that stays has the rule of what feeds it, and none if that was the removed node. -/
theorem Linked.rules_removeNode (hg : g.Linked c) (removed : String) :
    (g.removeNode removed).rules =
      ((g.ofKind .result).filter fun n => n.id ≠ removed).filterMap fun n =>
        ((g.sourceAt? n.id 0).filter (· ≠ removed)).map (g.unfed removed).compileNode := by
  rw [rules_eq_map_roots, roots, List.map_filterMap, ofKind_removeNode]
  apply List.filterMap_congr
  intro n hn
  have hstays : n.id ≠ removed := by simpa using (List.mem_filter.mp hn).2
  rw [hg.sourceAt?_removeNode hstays]
  apply Option.map_congr
  intro source hsource
  rw [Option.filter_eq_some_iff] at hsource
  exact hg.compileNode_removeNode (by simpa using hsource.2)

end Graph

namespace Desk

theorem removeNode_eq {α : Type} {d : Desk α} {id : String} (hnode : d.graph.hasNode id = true) :
    (d.removeNode (.str id)).1 = .ok (d.graph.touching id) ∧
      (d.removeNode (.str id)).2.graph = d.graph.removeNode id := by
  obtain ⟨n, hfound, rfl, _⟩ := findNode_of_hasNode hnode
  rw [removeNode, hfound]
  exact ⟨rfl, rfl⟩

/-- In every store that is reached from an empty one, removing a node answers the edges that end at
it or lead out of it, and leaves all other nodes and edges as they are and in their order. Every
other node then has the rule that it has in the old graph where the node feeds nothing: each input
that it fed is free and takes its default, and every other input keeps its source. Every Result that
stays has the rule of what feeds it, and none if the node did. -/
theorem removal_unwires (catalog : Catalog) (journal : Journal Double) (turns : List Turn)
    (removed : String)
    (hnode : (turns.foldl Desk.play (fresh catalog journal)).graph.hasNode removed = true) :
    let d := turns.foldl Desk.play (fresh catalog journal)
    let g := d.graph
    let h := (d.removeNode (.str removed)).2.graph
    let source? (id : String) (index : Nat) := (g.sourceAt? id index).filter (· ≠ removed)
    (d.removeNode (.str removed)).1 = .ok (g.edges.filter fun e =>
      e.source.node = removed ∨ e.target.node = removed) ∧
    h.nodes = g.nodes.filter (fun n => n.id ≠ removed) ∧
    h.edges = g.edges.filter (fun e => ¬ (e.source.node = removed ∨ e.target.node = removed)) ∧
    ((g.unfed removed).nodes = g.nodes ∧
      ∀ id index, (g.unfed removed).sourceAt? id index = source? id index) ∧
    (∀ id ≠ removed, h.compileNode id = (g.unfed removed).compileNode id) ∧
    (∀ id ≠ removed, ∀ p, g.payload? id = some p →
      h.compileNode id = p.rule fun index =>
        some ((source? id index).elim (p.unwired index) h.compileNode)) ∧
    h.ruleTree = .obj [("status_rules", .arr
      (((g.ofKind .result).filter fun n => n.id ≠ removed).filterMap fun n =>
        (source? n.id 0).map (g.unfed removed).compileNode))] := by
  intro d g h source?
  have hg : g.Wired d.catalog := ((Sound.fresh catalog journal).foldl_play turns).2
  obtain ⟨hanswer, hgraph⟩ := removeNode_eq hnode
  have hh : h = g.removeNode removed := hgraph
  rw [hanswer, hh]
  refine ⟨?_, g.nodes_removeNode removed, ?_,
    ⟨g.nodes_unfed removed, hg.sourceAt?_unfed removed⟩,
    fun id hother => hg.compileNode_removeNode hother,
    fun id hother p hpayload => hg.compileNode_removeNode_eq hother hpayload, ?_⟩
  · congr 1
    apply List.filter_congr
    intro e _
    rw [Bool.eq_iff_iff, e.touches_iff, decide_eq_true_iff]
  · rw [hg.edges_removeNode]
    apply List.filter_congr
    intro e _
    rw [Bool.eq_iff_iff, Bool.not_eq_true', ← Bool.not_eq_true, e.touches_iff, decide_eq_true_iff]
  · rw [Graph.ruleTree, hg.rules_removeNode]

/-- A constant that feeds a conjunction twice, a choice, and a Result. What it fed is free when it
is removed, and of the two Results only the one behind the choice has a rule. -/
theorem removal_unwires_shared :
    let add (kind : String) (fields : Json.Members) : Turn :=
      .edit (.addNode (.str kind) (.pair (.int 0) (.int 0)) (.obj fields) .null false)
    let wire (source target : String) (port : Nat) : Turn :=
      .edit (.connectRefs ⟨source, 0⟩ ⟨target, port⟩ .null)
    let turns := [add "Constant" [("valueType", .str "boolean"), ("value", .bool false)],
      add "Logic" [], add "If" [], add "Result" [], add "Result" [], wire "n1" "n2" 0,
      wire "n1" "n2" 1, wire "n2" "n3" 1, wire "n1" "n3" 0, wire "n3" "n4" 0, wire "n1" "n5" 0]
    let d := turns.foldl Desk.play (fresh .attendance ⟨.counting, []⟩)
    let h := (d.removeNode (.str "n1")).2.graph
    let conjunction : Json := .obj [("and", .arr [.null, .null])]
    d.graph.hasNode "n1" = true ∧ d.graph.roots = ["n3", "n1"] ∧
    h.edges.map (·.id) = ["n8", "n10"] ∧ h.roots = ["n3"] ∧
    h.compileNode "n2" = conjunction ∧
    h.compileNode "n3" = .obj [("if", .arr [.bool true, conjunction, .null])] := by
  intro add wire turns d h conjunction
  have hnode : d.graph.hasNode "n1" = true := by decide +kernel
  obtain ⟨_, _, hedges, _, _, hrules, _⟩ :=
    removal_unwires .attendance ⟨.counting, []⟩ turns "n1" hnode
  let source? (id : String) (index : Nat) := (d.graph.sourceAt? id index).filter (· ≠ "n1")
  have hrule : ∀ id ≠ "n1", ∀ p, d.graph.payload? id = some p → h.compileNode id =
      p.rule fun index => some ((source? id index).elim (p.unwired index) h.compileNode) := hrules
  have hand : h.compileNode "n2" = conjunction := by
    have hfree : source? "n2" 0 = none ∧ source? "n2" 1 = none := by decide +kernel
    rw [hrule "n2" (by decide) (.logic .and) (by decide +kernel)]
    simp only [Payload.rule, hfree, Option.elim_none, Option.getD_some]
    rfl
  have hchoice : h.compileNode "n3" = .obj [("if", .arr [.bool true, conjunction, .null])] := by
    have hfed : source? "n3" 0 = none ∧ source? "n3" 1 = some "n2" ∧ source? "n3" 2 = none := by
      decide +kernel
    rw [hrule "n3" (by decide) .choice (by decide +kernel), ← hand]
    simp [Payload.rule, hfed, Payload.unwired]
  refine ⟨hnode, by decide +kernel, ?_, by decide +kernel, hand, hchoice⟩
  have hids := congrArg (List.map (·.id)) hedges
  exact hids.trans (by decide +kernel)

end Desk

end RuleCanvas
