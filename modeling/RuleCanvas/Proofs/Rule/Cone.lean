import Mathlib.Data.List.Perm.Subperm
import RuleCanvas.Proofs.Rule.Inferred

/-! # The cone behind a node

The rule of a node is made from its payload, from the nodes that feed its inputs, from those that
feed theirs, and from nothing else. Two graphs that agree on this cone give the node the same rule:
where the nodes lie, how edges are called and ordered, and what else there is does not matter. No
invariant is asked for. In a graph with cycles both walks end at the same repeated node, and as the
nodes on a path differ, neither runs out of depth.
-/

namespace RuleCanvas.Graph

open Relation

variable {α β : Type} {g : Graph α} {h : Graph β} {root id : String} {path : List String}

/-! ## Agreement -/

/-- An input port of one node is fed by the other. -/
def Draws (g : Graph α) (id source : String) : Prop :=
  ∃ p, g.payload? id = some p ∧ ∃ index < p.kind.inputCount, g.sourceAt? id index = some source

/-- Two graphs have the same payload at a node, and at each of its input ports the same source or
none. -/
structure AgreeAt (g : Graph α) (h : Graph β) (id : String) : Prop where
  payload : h.payload? id = g.payload? id
  source : ∀ p, g.payload? id = some p →
    ∀ index < p.kind.inputCount, h.sourceAt? id index = g.sourceAt? id index

/-- Two graphs agree on a node and on all that is met backward from it. -/
def SameCone (g : Graph α) (h : Graph β) (root : String) : Prop :=
  ∀ id, ReflTransGen g.Draws root id → g.AgreeAt h id

/-- It is enough to compare the nodes of a list that holds the source of each input of its nodes. -/
theorem SameCone.of_closed {ids : List String} (hroot : root ∈ ids)
    (hids : ∀ id ∈ ids, h.payload? id = g.payload? id ∧ ∀ p ∈ g.payload? id,
      ∀ index < p.kind.inputCount, h.sourceAt? id index = g.sourceAt? id index ∧
        ∀ source ∈ g.sourceAt? id index, source ∈ ids) : g.SameCone h root := by
  have hmem : ∀ id, ReflTransGen g.Draws root id → id ∈ ids := by
    intro id hpath
    induction hpath with
    | refl => exact hroot
    | tail _ hdraws ih =>
        obtain ⟨p, hp, index, hindex, hsource⟩ := hdraws
        exact (((hids _ ih).2 p hp) index hindex).2 _ hsource
  intro id hpath
  obtain ⟨hpayload, hinputs⟩ := hids id (hmem id hpath)
  exact ⟨hpayload, fun p hp index hindex => (hinputs p hp index hindex).1⟩

/-! ## Walks -/

/-- The nodes above the one that the walk is at: they exist, and none comes twice. -/
structure IsPath (g : Graph α) (path : List String) : Prop where
  nodup : path.Nodup
  exist : ∀ id ∈ path, g.hasNode id = true

theorem IsPath.nil (g : Graph α) : g.IsPath [] := ⟨List.nodup_nil, List.forall_mem_nil _⟩

theorem IsPath.cons (hpath : g.IsPath path) (hnew : id ∉ path) {p : Payload}
    (hpayload : g.payload? id = some p) : g.IsPath (id :: path) where
  nodup := List.nodup_cons.mpr ⟨hnew, hpath.nodup⟩
  exist := by
    intro x hx
    rcases List.mem_cons.mp hx with rfl | hx
    · exact hasNode_of_payload? hpayload
    · exact hpath.exist x hx

theorem IsPath.length_le (hpath : g.IsPath path) : path.length ≤ g.nodes.length := by
  have hsub : path ⊆ g.nodes.map (·.id) := by
    intro id hid
    obtain ⟨n, hnode⟩ := Option.isSome_iff_exists.mp (hpath.exist id hid)
    exact id_of_node?_eq_some hnode ▸ List.mem_map_of_mem (mem_of_node?_eq_some hnode)
  calc path.length ≤ (g.nodes.map (·.id)).length :=
        (List.Nodup.subperm hpath.nodup hsub).length_le
    _ = g.nodes.length := List.length_map _

/-- Walks down one path in two graphs that agree on what is behind it, each with depth for every
node that is not on the path yet. -/
theorem SameCone.resolve_eq (hcone : g.SameCone h root) {depth depth' : Nat}
    (hid : ReflTransGen g.Draws root id) (hpath : g.IsPath path) (hpath' : h.IsPath path)
    (hdepth : g.nodes.length < depth + path.length)
    (hdepth' : h.nodes.length < depth' + path.length) :
    g.resolve depth path id = h.resolve depth' path id := by
  -- A step down puts one more node on the path, so it may cost one unit of both depths.
  induction depth generalizing depth' path id with
  | zero =>
      have hle := hpath.length_le
      omega
  | succ depth ih =>
      have hle := hpath'.length_le
      obtain ⟨depth', rfl⟩ := Nat.exists_eq_succ_of_ne_zero (show depth' ≠ 0 by omega)
      obtain ⟨hpayload, hsource⟩ := hcone id hid
      rw [resolve, resolve, hpayload]
      split
      next => rfl
      next hnew =>
        have hnew : id ∉ path := by simpa using hnew
        cases hp : g.payload? id with
        | none => rfl
        | some p =>
            apply Payload.rule_congr
            intro index hread
            have hindex : index < p.kind.inputCount := Nat.lt_of_lt_of_le hread p.readCount_le
            calc
              (g.incoming? ⟨id, index⟩).map (fun e => g.resolve depth (id :: path) e.source.node)
              _ = (g.sourceAt? id index).map (g.resolve depth (id :: path)) :=
                (Option.map_map _ _ _).symm
              _ = (g.sourceAt? id index).map (h.resolve depth' (id :: path)) := by
                refine Option.map_congr fun source hin => ih ?_ ?_ ?_ ?_ ?_
                · exact hid.tail ⟨p, hp, index, hindex, hin⟩
                · exact hpath.cons hnew hp
                · exact hpath'.cons hnew (hpayload.trans hp)
                · rw [List.length_cons]
                  omega
                · rw [List.length_cons]
                  omega
              _ = (h.sourceAt? id index).map (h.resolve depth' (id :: path)) := by
                rw [hsource p hp index hindex]
              _ = (h.incoming? ⟨id, index⟩).map
                  (fun e => h.resolve depth' (id :: path) e.source.node) := Option.map_map _ _ _

theorem SameCone.compileNode_eq (hcone : g.SameCone h id) : g.compileNode id = h.compileNode id :=
  hcone.resolve_eq .refl (.nil g) (.nil h) (Nat.lt_succ_self _) (Nat.lt_succ_self _)

/-! ## Rule trees -/

theorem roots_eq_filterMap (g : Graph α) :
    g.roots = ((g.ofKind .result).map (·.id)).filterMap fun id => g.sourceAt? id 0 := by
  rw [List.filterMap_map]
  rfl

/-- One rule for each node that feeds a Result. -/
theorem SameCone.rules_eq (hroots : h.roots = g.roots)
    (hcones : ∀ root ∈ g.roots, g.SameCone h root) : g.rules = h.rules := by
  rw [rules_eq_map_roots, rules_eq_map_roots, hroots]
  exact List.map_congr_left fun root hroot => (hcones root hroot).compileNode_eq

/-- Two graphs, of stores with any history, that agree on the cone behind a node compile it to the
same rule; and they have the same rule tree if their Results are the same in the same order and each
has the same cone in both. All that is asked of a graph is that ids name one node each. -/
theorem compile_of_same_cone (g : Graph α) (h : Graph β) :
    (∀ id, g.SameCone h id → g.compileNode id = h.compileNode id) ∧
    ((g.nodes.map (·.id)).Nodup →
      (h.ofKind .result).map (·.id) = (g.ofKind .result).map (·.id) →
      (∀ n ∈ g.ofKind .result, g.SameCone h n.id) → g.ruleTree = h.ruleTree) := by
  refine ⟨fun id hcone => hcone.compileNode_eq, fun hnodup hresults hcones => ?_⟩
  have hpayload : ∀ n ∈ g.ofKind .result, g.payload? n.id = some .result := by
    intro n hn
    obtain ⟨hmem, hkind⟩ := List.mem_filter.mp hn
    rw [payload?_of_node? (node?_of_mem hnodup hmem)]
    cases hp : n.payload with
    | result => rfl
    | logic | compare | var | constant | choice => simp [Node.kind, Payload.kind, hp] at hkind
  have hroots : h.roots = g.roots := by
    rw [roots_eq_filterMap, roots_eq_filterMap, hresults]
    refine List.filterMap_congr fun id hid => ?_
    obtain ⟨n, hn, rfl⟩ := List.mem_map.mp hid
    exact (hcones n hn n.id .refl).source .result (hpayload n hn) 0 (by decide)
  have hrules : g.rules = h.rules := by
    refine SameCone.rules_eq hroots fun root hroot id hpath => ?_
    obtain ⟨n, hn, hsource⟩ := List.mem_filterMap.mp hroot
    have hdraws : g.Draws n.id root := ⟨.result, hpayload n hn, 0, by decide, hsource⟩
    exact hcones n hn id (.head hdraws hpath)
  rw [ruleTree, ruleTree, hrules]

/-- A comparison that was wired at once, and the same comparison in a graph where its nodes were
added in another order, an operand was replaced and another node is fed as well. -/
theorem compile_of_same_cone_replaced :
    let add (kind id : String) (x : Int) (fields : Json.Members) : Desk.Turn :=
      .edit (.addNode (.str kind) (.pair (.int x) (.int 0)) (.obj fields) (.str id) false)
    let wire (source target : String) (port : Nat) : Desk.Turn :=
      .edit (.connectRefs ⟨source, 0⟩ ⟨target, port⟩ .null)
    let start := Desk.fresh .attendance ⟨.counting, []⟩
    let g := ([add "Variable" "late" 0 [("key", .str "minutes_late")],
      add "Constant" "limit" 0 [("value", .int 10)], add "Compare" "over" 1 [],
      add "Result" "out" 2 [], wire "late" "over" 0, wire "limit" "over" 1,
      wire "over" "out" 0].foldl Desk.play start).graph
    let h := ([add "Result" "out" 7 [], add "Compare" "over" 6 [],
      add "Constant" "other" 5 [("value", .int 15)], add "Logic" "also" 7 [],
      add "Constant" "limit" 5 [("value", .int 10)], wire "other" "over" 1, wire "over" "out" 0,
      add "Variable" "late" 5 [("key", .str "minutes_late")], wire "over" "also" 1,
      wire "limit" "over" 1, wire "late" "over" 0].foldl Desk.play start).graph
    g.edges.map (·.id) = ["n1", "n2", "n3"] ∧ h.edges.map (·.id) = ["n2", "n3", "n4", "n5"] ∧
    g.compileNode "over" = h.compileNode "over" ∧ g.ruleTree = h.ruleTree := by
  intro add wire start g h
  have hover : g.SameCone h "over" :=
    .of_closed (show _ ∈ ["over", "limit", "late"] by decide) (by decide +kernel)
  have hout : g.SameCone h "out" :=
    .of_closed (show _ ∈ ["out", "over", "limit", "late"] by decide) (by decide +kernel)
  have hresults : (g.ofKind .result).map (·.id) = ["out"] := by decide +kernel
  obtain ⟨hnode, htree⟩ := compile_of_same_cone g h
  refine ⟨by decide +kernel, by decide +kernel, hnode "over" hover, htree ?_ ?_ fun n hn => ?_⟩
  · decide +kernel
  · decide +kernel
  · have hid : n.id ∈ (g.ofKind .result).map (·.id) := List.mem_map_of_mem hn
    rw [hresults, List.mem_singleton] at hid
    exact hid ▸ hout

end RuleCanvas.Graph
