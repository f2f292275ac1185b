import Mathlib.Data.List.Nodup
import RuleCanvas.Graph.Basic

/-! # Reads after writes

What a graph answers after each of its writes. Nodes and edges are looked up by the first with an
id, so that an answer is a member; where ids differ, a member is the answer.
-/

namespace RuleCanvas.Graph

variable {α : Type} {g : Graph α}

/-- The only member with a property is the one that is found. -/
theorem find?_eq_some_of_unique {β : Type} {p : β → Bool} {l : List β} {b : β} (hmem : b ∈ l)
    (hb : p b = true) (hunique : ∀ a ∈ l, p a = true → a = b) : l.find? p = some b := by
  obtain ⟨a, ha⟩ := Option.isSome_iff_exists.mp (List.find?_isSome.mpr ⟨b, hmem, hb⟩)
  rw [ha, hunique a (List.mem_of_find?_eq_some ha) (List.find?_some ha)]

/-- A list stays free of repeated keys when an item with a new key is put at its end. -/
theorem nodup_map_concat {β γ : Type} {key : β → γ} {l : List β} {b : β}
    (hnodup : (l.map key).Nodup) (hnew : ∀ a ∈ l, key a ≠ key b) :
    ((l ++ [b]).map key).Nodup := by
  rw [List.map_append, List.nodup_append]
  refine ⟨hnodup, List.nodup_singleton _, ?_⟩
  intro k hk other hother
  obtain ⟨a, ha, rfl⟩ := List.mem_map.mp hk
  rw [List.map_singleton, List.mem_singleton] at hother
  rw [hother]
  exact hnew a ha

/-! ## Nodes -/

theorem id_of_node?_eq_some {id : String} {n : Node α} (hnode : g.node? id = some n) :
    n.id = id := by
  simpa using List.find?_some hnode

theorem mem_of_node?_eq_some {id : String} {n : Node α} (hnode : g.node? id = some n) :
    n ∈ g.nodes := List.mem_of_find?_eq_some hnode

theorem node?_of_mem (hnodup : (g.nodes.map (·.id)).Nodup) {n : Node α} (hmem : n ∈ g.nodes) :
    g.node? n.id = some n := by
  apply find?_eq_some_of_unique hmem (by simp)
  intro m hm heq
  exact List.inj_on_of_nodup_map hnodup hm hmem (by simpa using heq)

theorem hasNode_eq_false_iff (g : Graph α) (id : String) :
    g.hasNode id = false ↔ ∀ n ∈ g.nodes, n.id ≠ id := by
  rw [← Bool.not_eq_true, hasNode, node?, List.find?_isSome]
  simp

theorem hasNode_eq_isSome_payload? (g : Graph α) (id : String) :
    g.hasNode id = (g.payload? id).isSome := by simp [hasNode, payload?]

theorem payload?_of_node? {id : String} {n : Node α} (hnode : g.node? id = some n) :
    g.payload? id = some n.payload := by rw [payload?, hnode, Option.map_some]

theorem hasNode_of_payload? {id : String} {p : Payload} (hpayload : g.payload? id = some p) :
    g.hasNode id = true := by rw [hasNode_eq_isSome_payload?, hpayload, Option.isSome_some]

theorem hasNode_addNode (g : Graph α) (n : Node α) (id : String) :
    (g.addNode n).hasNode id = (g.hasNode id || n.id == id) := by
  by_cases heq : n.id = id <;> simp [hasNode, node?, addNode, List.find?_append, heq]

theorem payload?_addNode {n : Node α} (hnew : g.hasNode n.id = false) (id : String) :
    (g.addNode n).payload? id = if id = n.id then some n.payload else g.payload? id := by
  rw [hasNode, Option.isSome_eq_false_iff, Option.isNone_iff_eq_none] at hnew
  by_cases heq : id = n.id
  · subst heq
    rw [payload?, node?, addNode, List.find?_append, ← node?, hnew]
    simp
  · rw [payload?, node?, addNode, List.find?_append, ← node?, if_neg heq]
    simp [Ne.symm heq, payload?]

/-- Ids stay in their places, so the node that is found is the old one or its replacement. -/
theorem node?_setNode (g : Graph α) (n : Node α) (id : String) :
    (g.setNode n).node? id = (g.node? id).map fun m => if m.id == n.id then n else m := by
  have hkept : ((fun m : Node α => m.id == id) ∘ fun m => if (m.id == n.id) = true then n else m) =
      fun m => m.id == id := by
    funext m
    by_cases heq : m.id = n.id <;> simp [heq]
  rw [node?, setNode, List.find?_map, hkept, ← node?]

theorem payload?_setNode (g : Graph α) (n : Node α) (id : String) :
    (g.setNode n).payload? id =
      if id = n.id ∧ g.hasNode id = true then some n.payload else g.payload? id := by
  rw [payload?, node?_setNode]
  cases hnode : g.node? id with
  | none => simp [hasNode, payload?, hnode]
  | some m =>
      have hid := id_of_node?_eq_some hnode
      by_cases heq : id = n.id
      · subst heq
        simp [hasNode, hnode, hid]
      · simp [payload?, hnode, hid, heq]

theorem map_id_setNode (g : Graph α) (n : Node α) :
    (g.setNode n).nodes.map (·.id) = g.nodes.map (·.id) := by
  rw [setNode, List.map_map]
  apply List.map_congr_left
  intro m _
  by_cases heq : m.id = n.id <;> simp [heq]

/-- The payloads after a node was taken out. -/
theorem payload?_filter_nodes (g : Graph α) (removed id : String) :
    ({ g with nodes := g.nodes.filter fun n => n.id != removed } : Graph α).payload? id =
      if id = removed then none else g.payload? id := by
  rw [payload?, node?, List.find?_filter]
  split
  next heq =>
    subst heq
    rw [Option.map_eq_none_iff, List.find?_eq_none]
    simp
  next hne =>
    rw [payload?, node?]
    congr 2
    funext n
    by_cases heq : n.id = id <;> simp [heq, hne]

/-! ## Edges -/

theorem id_of_edge?_eq_some {id : String} {e : Edge} (hedge : g.edge? id = some e) : e.id = id := by
  simpa using List.find?_some hedge

theorem mem_of_edge?_eq_some {id : String} {e : Edge} (hedge : g.edge? id = some e) :
    e ∈ g.edges := List.mem_of_find?_eq_some hedge

theorem edge?_of_mem (hnodup : (g.edges.map (·.id)).Nodup) {e : Edge} (hmem : e ∈ g.edges) :
    g.edge? e.id = some e := by
  apply find?_eq_some_of_unique hmem (by simp)
  intro f hf heq
  exact List.inj_on_of_nodup_map hnodup hf hmem (by simpa using heq)

theorem hasEdge_eq_false_iff (g : Graph α) (id : String) :
    g.hasEdge id = false ↔ ∀ e ∈ g.edges, e.id ≠ id := by
  rw [← Bool.not_eq_true, hasEdge, edge?, List.find?_isSome]
  simp

theorem hasEdge_insertEdge (g : Graph α) (e : Edge) (id : String) :
    (g.insertEdge e).hasEdge id = (g.hasEdge id || e.id == id) := by
  by_cases heq : e.id = id <;> simp [hasEdge, edge?, insertEdge, List.find?_append, heq]

theorem mem_edges_dropEdge (g : Graph α) (e f : Edge) :
    f ∈ (g.dropEdge e).edges ↔ f ∈ g.edges ∧ f.id ≠ e.id := by simp [dropEdge]

theorem mem_edges_insertEdge (g : Graph α) (e f : Edge) :
    f ∈ (g.insertEdge e).edges ↔ f ∈ g.edges ∨ f = e := by simp [insertEdge]

@[simp] theorem nodes_dropEdge (g : Graph α) (e : Edge) : (g.dropEdge e).nodes = g.nodes := rfl

@[simp] theorem nodes_insertEdge (g : Graph α) (e : Edge) : (g.insertEdge e).nodes = g.nodes := rfl

@[simp] theorem edges_addNode (g : Graph α) (n : Node α) : (g.addNode n).edges = g.edges := rfl

@[simp] theorem edges_setNode (g : Graph α) (n : Node α) : (g.setNode n).edges = g.edges := rfl

@[simp] theorem nodes_vacate (g : Graph α) (target : PortRef) :
    (g.vacate target).nodes = g.nodes := by
  rw [vacate]
  split <;> rfl

theorem mem_edges_of_vacate {target : PortRef} {e : Edge} (he : e ∈ (g.vacate target).edges) :
    e ∈ g.edges := by
  rw [vacate] at he
  split at he
  · exact ((mem_edges_dropEdge g _ e).mp he).1
  · exact he

theorem vacate_of_free {target : PortRef} (hfree : g.incoming? target = none) :
    g.vacate target = g := by
  rw [vacate, hfree]

/-- What is read of the nodes depends on them alone. -/
theorem payload?_congr {g h : Graph α} (hnodes : h.nodes = g.nodes) (id : String) :
    h.payload? id = g.payload? id := by rw [payload?, payload?, node?, node?, hnodes]

end RuleCanvas.Graph
