import RuleCanvas.Port
import RuleCanvas.Proofs.Graph.Lookup
import RuleCanvas.Proofs.Graph.Reach

/-! # Well wired graphs

What holds of the graph of a store at all times. Nodes and edges have ids of their own, the index of
inputs agrees with the edges, at most one edge enters an input, no path of edges is closed, and
every edge joins two existing ports whose types fit. Each write of a graph keeps this under the
condition that its caller has checked; that no path is closed is kept apart from the rest, as it is
all that goes where cycles are not looked for.
-/

namespace RuleCanvas

/-! ## Ports -/

theorem NodeKind.outputCount_le_one (kind : NodeKind) : kind.outputCount ≤ 1 := by
  cases kind <;> decide

theorem Payload.outputType?_isSome_iff (c : Catalog) (p : Payload) :
    (p.outputType? c 0).isSome = true ↔ 0 < p.kind.outputCount := by
  cases p <;> simp [outputType?, kind, NodeKind.outputs, NodeKind.outputCount]

theorem NodeKind.inputType?_eq_some_lt {kind : NodeKind} {index : Nat} {type : ValueType}
    (htype : kind.inputType? index = some type) : index < kind.inputCount := by
  obtain ⟨port, hport, _⟩ := Option.map_eq_some_iff.mp htype
  exact (List.getElem?_eq_some_iff.mp hport).1

/-- An output of one node may feed an input of another: both ports exist and their types fit. -/
def Payload.Suits (c : Catalog) (source : Payload) (output : Nat) (target : NodeKind)
    (input : Nat) : Prop :=
  output < source.kind.outputCount ∧ ∃ sourceType targetType,
    source.outputType? c output = some sourceType ∧ target.inputType? input = some targetType ∧
      ValueType.compatible sourceType targetType = true

namespace Graph

open Relation

variable {α : Type} {c : Catalog} {g : Graph α}

/-- An edge that joins two existing ports whose types fit. -/
def Fits (c : Catalog) (g : Graph α) (e : Edge) : Prop :=
  ∃ source target, g.payload? e.source.node = some source ∧
    g.payload? e.target.node = some target ∧
    source.Suits c e.source.port target.kind e.target.port

/-- Ids are distinct, the index of inputs lists each edge at its target and nothing else, and no two
edges share a target. -/
structure Indexed (g : Graph α) : Prop where
  nodes_nodup : (g.nodes.map (·.id)).Nodup
  edges_nodup : (g.edges.map (·.id)).Nodup
  occupied : ∀ target id, (target, id) ∈ g.occupants ↔ ∃ e ∈ g.edges, e.target = target ∧ e.id = id
  single : ∀ e ∈ g.edges, ∀ f ∈ g.edges, e.target = f.target → e = f

/-- An indexed graph without a cycle. -/
structure Coherent (g : Graph α) : Prop extends Indexed g where
  acyclic : g.Acyclic

/-- An indexed graph all of whose edges fit, be there cycles or not. -/
structure Linked (c : Catalog) (g : Graph α) : Prop extends Indexed g where
  fits : ∀ e ∈ g.edges, g.Fits c e

/-- A coherent graph all of whose edges fit. -/
structure Wired (c : Catalog) (g : Graph α) : Prop extends Coherent g, Linked c g

theorem Linked.wired (hg : g.Linked c) (hacyclic : g.Acyclic) : g.Wired c :=
  ⟨⟨hg.toIndexed, hacyclic⟩, hg.fits⟩

theorem Fits.congr {h : Graph α} {e : Edge} (hfits : g.Fits c e)
    (hsource : h.payload? e.source.node = g.payload? e.source.node)
    (htarget : h.payload? e.target.node = g.payload? e.target.node) : h.Fits c e := by
  obtain ⟨source, target, hp, hq, hsuits⟩ := hfits
  exact ⟨source, target, hsource.trans hp, htarget.trans hq, hsuits⟩

/-! ## What the index answers -/

theorem Indexed.eq_of_id (hg : g.Indexed) {e f : Edge} (he : e ∈ g.edges) (hf : f ∈ g.edges)
    (hid : e.id = f.id) : e = f :=
  List.inj_on_of_nodup_map hg.edges_nodup he hf hid

/-- The index names an edge at an input just if the edge ends there. -/
theorem Indexed.lookup_eq_some_iff (hg : g.Indexed) (target : PortRef) (id : String) :
    g.occupants.lookup target = some id ↔ ∃ e ∈ g.edges, e.target = target ∧ e.id = id := by
  constructor
  · intro hlookup
    obtain ⟨before, after, heq, _⟩ := List.lookup_eq_some_iff.mp hlookup
    apply (hg.occupied target id).mp
    rw [heq]
    exact List.mem_append_right _ List.mem_cons_self
  · rintro ⟨e, he, htarget, hid⟩
    cases hlookup : g.occupants.lookup target with
    | none =>
        have hmem := (hg.occupied target id).mpr ⟨e, he, htarget, hid⟩
        have hne := List.lookup_eq_none_iff.mp hlookup _ hmem
        simp at hne
    | some found =>
        obtain ⟨before, after, heq, _⟩ := List.lookup_eq_some_iff.mp hlookup
        have hmem : (target, found) ∈ g.occupants := by
          rw [heq]
          exact List.mem_append_right _ List.mem_cons_self
        obtain ⟨f, hf, hfTarget, hfId⟩ := (hg.occupied target found).mp hmem
        rw [← hfId, ← hid, hg.single e he f hf (htarget.trans hfTarget.symm)]

theorem Indexed.incoming?_eq_some_iff (hg : g.Indexed) (target : PortRef) (e : Edge) :
    g.incoming? target = some e ↔ e ∈ g.edges ∧ e.target = target := by
  constructor
  · intro hin
    obtain ⟨id, hlookup, hedge⟩ := Option.bind_eq_some_iff.mp hin
    obtain ⟨f, hf, hfTarget, hfId⟩ := (hg.lookup_eq_some_iff target id).mp hlookup
    have heq : e = f := hg.eq_of_id (mem_of_edge?_eq_some hedge) hf
      ((id_of_edge?_eq_some hedge).trans hfId.symm)
    subst heq
    exact ⟨hf, hfTarget⟩
  · rintro ⟨he, htarget⟩
    have hlookup := (hg.lookup_eq_some_iff target e.id).mpr ⟨e, he, htarget, rfl⟩
    rw [incoming?, hlookup, Option.bind_some, edge?_of_mem hg.edges_nodup he]

theorem Indexed.incoming?_eq_none_iff (hg : g.Indexed) (target : PortRef) :
    g.incoming? target = none ↔ ∀ e ∈ g.edges, e.target ≠ target := by
  rw [Option.eq_none_iff_forall_not_mem]
  constructor
  · intro hnone e he htarget
    exact hnone e ((hg.incoming?_eq_some_iff target e).mpr ⟨he, htarget⟩)
  · intro hfree e hin
    obtain ⟨he, htarget⟩ := (hg.incoming?_eq_some_iff target e).mp hin
    exact hfree e he htarget

/-- The index answers what a scan of all edges would. -/
theorem Indexed.incoming?_eq_find? (hg : g.Indexed) (target : PortRef) :
    g.incoming? target = g.edges.find? fun e => e.target == target := by
  cases hin : g.incoming? target with
  | none =>
      symm
      rw [List.find?_eq_none]
      intro e he
      simpa using (hg.incoming?_eq_none_iff target).mp hin e he
  | some e =>
      obtain ⟨he, htarget⟩ := (hg.incoming?_eq_some_iff target e).mp hin
      symm
      apply find?_eq_some_of_unique he (by simpa using htarget)
      intro f hf heq
      exact hg.single f hf e he ((by simpa using heq : f.target = target).trans htarget.symm)

/-! ## Nodes -/

theorem Linked.empty (c : Catalog) : Linked c (Graph.empty : Graph α) where
  nodes_nodup := List.nodup_nil
  edges_nodup := List.nodup_nil
  occupied := by simp [Graph.empty]
  single := by simp [Graph.empty]
  fits := by simp [Graph.empty]

theorem Acyclic.empty : Acyclic (Graph.empty : Graph α) := by
  intro id hcycle
  obtain ⟨next, ⟨e, he, _⟩, _⟩ := TransGen.head'_iff.mp hcycle
  cases he

theorem Wired.empty (c : Catalog) : Wired c (Graph.empty : Graph α) :=
  (Linked.empty c).wired .empty

/-- Every node that an edge touches exists. -/
theorem Linked.hasNode_of_touches (hg : g.Linked c) {e : Edge} (he : e ∈ g.edges) :
    g.hasNode e.source.node = true ∧ g.hasNode e.target.node = true := by
  obtain ⟨source, target, hsource, htarget, _⟩ := hg.fits e he
  exact ⟨hasNode_of_payload? hsource, hasNode_of_payload? htarget⟩

theorem Linked.addNode (hg : g.Linked c) {n : Node α} (hnew : g.hasNode n.id = false) :
    (g.addNode n).Linked c where
  nodes_nodup := nodup_map_concat hg.nodes_nodup ((g.hasNode_eq_false_iff n.id).mp hnew)
  edges_nodup := hg.edges_nodup
  occupied := hg.occupied
  single := hg.single
  fits := by
    intro e he
    have hother : ∀ {id}, g.hasNode id = true →
        (g.addNode n).payload? id = g.payload? id := by
      intro id hid
      rw [payload?_addNode hnew, if_neg]
      rintro rfl
      rw [hid] at hnew
      cases hnew
    obtain ⟨hsource, htarget⟩ := hg.hasNode_of_touches he
    exact (hg.fits e he).congr (hother hsource) (hother htarget)

/-- Nodes may be replaced as long as their ids stay. -/
theorem Indexed.setNode (hg : g.Indexed) (n : Node α) : (g.setNode n).Indexed where
  nodes_nodup := by
    rw [map_id_setNode]
    exact hg.nodes_nodup
  edges_nodup := hg.edges_nodup
  occupied := hg.occupied
  single := hg.single

/-- A node that keeps its payload may be moved. -/
theorem Linked.moveNode (hg : g.Linked c) {n : Node α} (hsame : g.payload? n.id = some n.payload) :
    (g.setNode n).Linked c where
  toIndexed := hg.toIndexed.setNode n
  fits := by
    have hall : ∀ id, (g.setNode n).payload? id = g.payload? id := by
      intro id
      rw [payload?_setNode]
      split
      next h => rw [h.1, hsame]
      next => rfl
    intro e he
    exact (hg.fits e he).congr (hall _) (hall _)

/-! ## Edges -/

/-- An edge that is the only one with its id may be dropped. -/
theorem Indexed.dropEdge (hg : g.Indexed) {e : Edge}
    (honly : ∀ f ∈ g.edges, f.id = e.id → f = e) : (g.dropEdge e).Indexed where
  nodes_nodup := hg.nodes_nodup
  edges_nodup := hg.edges_nodup.sublist (List.filter_sublist.map _)
  occupied := by
    intro target id
    -- The index loses one entry, which no other edge has.
    have hmem : (target, id) ∈ (g.dropEdge e).occupants ↔
        (target, id) ∈ g.occupants ∧ ¬ (target = e.target ∧ id = e.id) := by
      simp [Graph.dropEdge, imp_iff_not_or]
    rw [hmem, hg.occupied]
    constructor
    · rintro ⟨⟨f, hf, rfl, rfl⟩, hother⟩
      refine ⟨f, (mem_edges_dropEdge g e f).mpr ⟨hf, ?_⟩, rfl, rfl⟩
      intro hid
      exact hother ⟨congrArg Edge.target (honly f hf hid), hid⟩
    · rintro ⟨f, hf, rfl, rfl⟩
      obtain ⟨hf, hid⟩ := (mem_edges_dropEdge g e f).mp hf
      exact ⟨⟨f, hf, rfl, rfl⟩, fun h => hid h.2⟩
  single := by
    intro f hf h hh
    exact hg.single f ((mem_edges_dropEdge g e f).mp hf).1 h ((mem_edges_dropEdge g e h).mp hh).1

theorem Linked.dropEdge (hg : g.Linked c) {e : Edge} (honly : ∀ f ∈ g.edges, f.id = e.id → f = e) :
    (g.dropEdge e).Linked c where
  toIndexed := hg.toIndexed.dropEdge honly
  fits := by
    intro f hf
    exact (hg.fits f ((mem_edges_dropEdge g e f).mp hf).1).congr rfl rfl

theorem Indexed.eq_of_mem_of_id (hg : g.Indexed) {e : Edge} (he : e ∈ g.edges) :
    ∀ f ∈ g.edges, f.id = e.id → f = e := fun _ hf hid => hg.eq_of_id hf he hid

theorem Linked.vacate (hg : g.Linked c) (target : PortRef) : (g.vacate target).Linked c := by
  rw [Graph.vacate]
  split
  next e hin =>
    exact hg.dropEdge (hg.eq_of_mem_of_id ((hg.incoming?_eq_some_iff target e).mp hin).1)
  next => exact hg

/-- Vacating an input takes away the edges that end there, and leaves the others in their order. -/
theorem Indexed.edges_vacate (hg : g.Indexed) (target : PortRef) :
    (g.vacate target).edges = g.edges.filter fun f => f.target ≠ target := by
  rw [Graph.vacate]
  split
  next e hin =>
    obtain ⟨he, htarget⟩ := (hg.incoming?_eq_some_iff target e).mp hin
    refine List.filter_congr fun f hf => ?_
    have hsame : f.id = e.id ↔ f.target = target := by
      constructor
      · intro hid
        rw [hg.eq_of_id hf he hid, htarget]
      · intro hend
        rw [hg.single f hf e he (hend.trans htarget.symm)]
    rw [Bool.eq_iff_iff]
    simpa using not_congr hsame
  next hfree =>
    symm
    rw [List.filter_eq_self]
    intro f hf
    simpa using (hg.incoming?_eq_none_iff target).mp hfree f hf

theorem Indexed.mem_edges_vacate (hg : g.Indexed) (target : PortRef) (f : Edge) :
    f ∈ (g.vacate target).edges ↔ f ∈ g.edges ∧ f.target ≠ target := by
  simp [hg.edges_vacate target]

/-- An edge may be added whose id is new, whose input is free, and whose ports exist and fit. -/
theorem Linked.insertEdge (hg : g.Linked c) {e : Edge} (hnew : ∀ f ∈ g.edges, f.id ≠ e.id)
    (hfree : ∀ f ∈ g.edges, f.target ≠ e.target) (hfits : g.Fits c e) :
    (g.insertEdge e).Linked c where
  nodes_nodup := hg.nodes_nodup
  edges_nodup := nodup_map_concat hg.edges_nodup hnew
  occupied := by
    intro target id
    simp only [mem_edges_insertEdge]
    constructor
    · intro hmem
      rcases List.mem_cons.mp hmem with heq | hmem
      · obtain ⟨rfl, rfl⟩ := Prod.mk.inj heq
        exact ⟨e, .inr rfl, rfl, rfl⟩
      · obtain ⟨f, hf, hends⟩ := (hg.occupied target id).mp hmem
        exact ⟨f, .inl hf, hends⟩
    · rintro ⟨f, hf | rfl, rfl, rfl⟩
      · exact List.mem_cons_of_mem _ ((hg.occupied f.target f.id).mpr ⟨f, hf, rfl, rfl⟩)
      · exact List.mem_cons_self
  single := by
    intro f hf h hh heq
    -- An old edge and the new one cannot share an input, which was free.
    rcases (mem_edges_insertEdge g e f).mp hf with hf | hf <;>
      rcases (mem_edges_insertEdge g e h).mp hh with hh | hh
    · exact hg.single f hf h hh heq
    · rw [hh] at heq
      exact absurd heq (hfree f hf)
    · rw [hf] at heq
      exact absurd heq.symm (hfree h hh)
    · rw [hf, hh]
  fits := by
    intro f hf
    rcases (mem_edges_insertEdge g e f).mp hf with hf | rfl
    · exact (hg.fits f hf).congr rfl rfl
    · exact hfits.congr rfl rfl

/-! ## Taking out a node -/

/-- Dropping edges leaves those with other ids, in their order. -/
theorem edges_foldl_dropEdge (l : List Edge) (g : Graph α) :
    (l.foldl Graph.dropEdge g).edges = g.edges.filter fun f => l.all fun e => f.id != e.id := by
  induction l generalizing g with
  | nil => simp
  | cons e rest ih =>
      rw [List.foldl_cons, ih, dropEdge, List.filter_filter]
      simp only [List.all_cons, Bool.and_comm]

theorem mem_edges_foldl_dropEdge (l : List Edge) (g : Graph α) (f : Edge) :
    f ∈ (l.foldl Graph.dropEdge g).edges ↔ f ∈ g.edges ∧ ∀ e ∈ l, f.id ≠ e.id := by
  simp [edges_foldl_dropEdge]

/-- Where ids differ, dropping all edges of one kind leaves just the others, in their order. -/
theorem Indexed.edges_foldl_filter (hg : g.Indexed) (dropped : Edge → Bool) :
    ((g.edges.filter dropped).foldl Graph.dropEdge g).edges =
      g.edges.filter fun f => !dropped f := by
  rw [edges_foldl_dropEdge]
  apply List.filter_congr
  intro f hf
  rw [Bool.eq_iff_iff]
  simp only [List.all_eq_true, List.mem_filter, bne_iff_ne, and_imp, Bool.not_eq_true']
  constructor
  · intro hkept
    rw [← Bool.not_eq_true]
    exact fun hdropped => hkept f hf hdropped rfl
  · intro hother e he hdropped hid
    rw [hg.eq_of_id hf he hid, hdropped] at hother
    cases hother

theorem nodes_foldl_dropEdge (l : List Edge) (g : Graph α) :
    (l.foldl Graph.dropEdge g).nodes = g.nodes := by
  induction l generalizing g with
  | nil => rfl
  | cons e rest ih => rw [List.foldl_cons, ih, nodes_dropEdge]

theorem Linked.foldl_dropEdge (hg : g.Linked c) {l : List Edge}
    (honly : ∀ e ∈ l, ∀ f ∈ g.edges, f.id = e.id → f = e) :
    (l.foldl Graph.dropEdge g).Linked c := by
  induction l generalizing g with
  | nil => exact hg
  | cons e rest ih =>
      apply ih (hg.dropEdge (honly e List.mem_cons_self))
      intro e' he' f hf hid
      exact honly e' (List.mem_cons_of_mem _ he') f ((mem_edges_dropEdge g e f).mp hf).1 hid

/-- Taking out a node takes away just the edges at it. -/
theorem Indexed.edges_removeNode (hg : g.Indexed) (id : String) :
    (g.removeNode id).edges = g.edges.filter fun e => !e.touches id :=
  hg.edges_foldl_filter fun e => e.touches id

theorem Indexed.mem_edges_removeNode (hg : g.Indexed) (id : String) (f : Edge) :
    f ∈ (g.removeNode id).edges ↔ f ∈ g.edges ∧ f.touches id = false := by
  simp [hg.edges_removeNode]

theorem payload?_removeNode (g : Graph α) (removed id : String) :
    (g.removeNode removed).payload? id = if id = removed then none else g.payload? id := by
  rw [removeNode, payload?_filter_nodes, payload?_congr (nodes_foldl_dropEdge _ g)]

theorem Linked.removeNode (hg : g.Linked c) (id : String) : (g.removeNode id).Linked c := by
  have hcut : ((g.touching id).foldl Graph.dropEdge g).Linked c := by
    apply hg.foldl_dropEdge
    intro e he
    exact hg.eq_of_mem_of_id (List.mem_filter.mp he).1
  refine ⟨⟨hcut.nodes_nodup.sublist (List.filter_sublist.map _), hcut.edges_nodup, hcut.occupied,
    hcut.single⟩, ?_⟩
  intro e he
  obtain ⟨he, haway⟩ := (hg.mem_edges_removeNode id e).mp he
  have hends : e.source.node ≠ id ∧ e.target.node ≠ id := by simpa [Edge.touches] using haway
  apply (hg.fits e he).congr
  · rw [payload?_removeNode, if_neg hends.1]
  · rw [payload?_removeNode, if_neg hends.2]

end Graph

end RuleCanvas
