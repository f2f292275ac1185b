import RuleCanvas.Proofs.Graph.Wired
import RuleCanvas.Rule.Compile

/-! # Compiling a well wired graph

Along the edges of an acyclic graph the number of nodes that lead to a node grows. So the walk of
the compiler never meets a node twice on a path and never runs out of depth, and the rule of a node
is determined by the rules of the nodes that feed it.
-/

namespace RuleCanvas

open Relation

/-- The inputs that a rule is made from are inputs of the node. -/
theorem Payload.readCount_le (p : Payload) : p.readCount ≤ p.kind.inputCount := by
  cases p with
  | logic o => cases o <;> decide
  | result => exact Nat.zero_le _
  | constant | var | compare | choice => exact Nat.le_refl _

/-- The rule of a node depends on the inputs that it reads only. -/
theorem Payload.rule_congr {p : Payload} {input input' : Nat → Option Json}
    (hinput : ∀ index < p.readCount, input index = input' index) :
    p.rule input = p.rule input' := by
  cases p with
  | logic o =>
      cases o with
      | not =>
          have hread : ∀ index < 1, input index = input' index := hinput
          simp [rule, hread]
      | and | or =>
          have hread : ∀ index < 2, input index = input' index := hinput
          simp [rule, hread]
  | compare o =>
      have hread : ∀ index < 2, input index = input' index := hinput
      simp [rule, hread]
  | choice =>
      have hread : ∀ index < 3, input index = input' index := hinput
      simp [rule, hread]
  | constant | var | result => rfl

namespace Graph

variable {α : Type} {c : Catalog} {g : Graph α}

/-! ## Ranks -/

/-- The number of nodes that lead to a node, itself included. -/
def rank (g : Graph α) (id : String) : Nat := (g.nodes.filter fun n => g.reaches n.id id).length

theorem rank_le (g : Graph α) (id : String) : g.rank id ≤ g.nodes.length :=
  List.length_filter_le _ _

/-- A node has a greater rank than the nodes that feed it. -/
theorem Wired.rank_lt (hg : g.Wired c) {source target : String} (hfeeds : g.Feeds source target) :
    g.rank source < g.rank target := by
  obtain ⟨e, he, rfl, rfl⟩ := hfeeds
  obtain ⟨n, hnode⟩ := Option.isSome_iff_exists.mp (hg.hasNode_of_touches he).2
  have hid := id_of_node?_eq_some hnode
  have hsub : ∀ m : Node α, g.reaches m.id e.source.node = true →
      g.reaches m.id e.target.node = true := by
    intro m hm
    rw [reaches_iff] at hm ⊢
    exact hm.tail ⟨e, he, rfl, rfl⟩
  have hself : g.reaches n.id e.target.node = true := by
    rw [reaches_iff, hid]
  have hback : ¬ g.reaches n.id e.source.node = true := by
    rw [reaches_iff, hid]
    intro hpath
    exact hg.acyclic _ (.tail' hpath ⟨e, he, rfl, rfl⟩)
  have hle : (g.nodes.filter fun m => g.reaches m.id e.source.node).Sublist
      (g.nodes.filter fun m => g.reaches m.id e.target.node) :=
    List.monotone_filter_right _ hsub
  apply Nat.lt_of_le_of_ne hle.length_le
  intro heq
  -- Of two lists of the same length, one inside the other, `n` is in the longer only.
  have hmem : n ∈ g.nodes.filter fun m => g.reaches m.id e.target.node :=
    List.mem_filter.mpr ⟨mem_of_node?_eq_some hnode, hself⟩
  rw [← hle.eq_of_length heq] at hmem
  exact hback (List.mem_filter.mp hmem).2

/-- What holds of a node whenever it holds of all that feed it, holds of every node. -/
theorem Wired.induction (hg : g.Wired c) {P : String → Prop}
    (hstep : ∀ id, (∀ source, g.Feeds source id → P source) → P id) (id : String) : P id := by
  induction hrank : g.rank id using Nat.strongRecOn generalizing id with
  | ind rank ih =>
      apply hstep
      intro source hfeeds
      exact ih (g.rank source) (hrank ▸ hg.rank_lt hfeeds) source rfl

theorem Wired.feeds_of_incoming? (hg : g.Wired c) {target : PortRef} {e : Edge}
    (hin : g.incoming? target = some e) : g.Feeds e.source.node target.node := by
  obtain ⟨he, htarget⟩ := (hg.incoming?_eq_some_iff target e).mp hin
  exact ⟨e, he, rfl, congrArg PortRef.node htarget⟩

/-! ## The walk -/

/-- Any two walks with more depth than the rank of a node, and with only nodes that it leads to
above them, give it the same rule. -/
theorem Wired.resolve_eq (hg : g.Wired c) {depth depth' : Nat} {path path' : List String}
    {id : String} (hdepth : g.rank id < depth) (hdepth' : g.rank id < depth')
    (hpath : ∀ x ∈ path, TransGen g.Feeds id x) (hpath' : ∀ x ∈ path', TransGen g.Feeds id x) :
    g.resolve depth path id = g.resolve depth' path' id := by
  -- The two walks step together, and the bounds of both pass to what feeds the node.
  induction depth generalizing depth' path path' id with
  | zero => omega
  | succ depth ih =>
      obtain ⟨depth', rfl⟩ := Nat.exists_eq_succ_of_ne_zero (Nat.ne_zero_of_lt hdepth')
      have hnew : path.contains id = false := by
        simpa using fun hmem => hg.acyclic id (hpath id hmem)
      have hnew' : path'.contains id = false := by
        simpa using fun hmem => hg.acyclic id (hpath' id hmem)
      rw [resolve, resolve, hnew, hnew']
      simp only [Bool.false_eq_true, if_false]
      split
      next p _ =>
        apply Payload.rule_congr
        intro index _
        cases hin : g.incoming? ⟨id, index⟩ with
        | none => rfl
        | some e =>
            have hfeeds : g.Feeds e.source.node id := hg.feeds_of_incoming? hin
            have hrank := hg.rank_lt hfeeds
            rw [Option.map_some, Option.map_some, Option.some_inj]
            apply ih (by omega) (by omega)
            · intro x hx
              rcases List.mem_cons.mp hx with rfl | hx
              · exact .single hfeeds
              · exact .head hfeeds (hpath x hx)
            · intro x hx
              rcases List.mem_cons.mp hx with rfl | hx
              · exact .single hfeeds
              · exact .head hfeeds (hpath' x hx)
      next => rfl

/-- The rule of a node from the rules of the nodes that feed it. -/
theorem Wired.compileNode_eq (hg : g.Wired c) {id : String} {p : Payload}
    (hpayload : g.payload? id = some p) :
    g.compileNode id = p.rule fun index =>
      (g.incoming? ⟨id, index⟩).map fun e => g.compileNode e.source.node := by
  rw [compileNode, resolve]
  simp only [List.contains_nil, Bool.false_eq_true, if_false]
  rw [hpayload]
  apply Payload.rule_congr
  intro index _
  cases hin : g.incoming? ⟨id, index⟩ with
  | none => rfl
  | some e =>
      have hfeeds : g.Feeds e.source.node id := hg.feeds_of_incoming? hin
      have hrank := hg.rank_lt hfeeds
      have hle := g.rank_le id
      rw [Option.map_some, Option.map_some, Option.some_inj, compileNode]
      apply hg.resolve_eq (by omega) (by omega)
      · intro x hx
        rw [List.mem_singleton.mp hx]
        exact .single hfeeds
      · intro x hx
        cases hx

end Graph

end RuleCanvas
