import Mathlib.Data.List.Perm.Basic
import RuleCanvas.Proofs.Rule.Cone
import RuleCanvas.Proofs.Store.Faults
import RuleCanvas.Proofs.Store.Rebuilt

/-! # The order of edges in a document

The edges of a document are connected one by one, and each is compared with those that came
before it. If no two end at one input, the outcome does not depend on the order: the edges are
accepted just if all of them together leave the graph well wired, and then the graph has the
same edge at every input.
-/

namespace RuleCanvas

open Relation

/-! ## Graphs that differ in the order of edges -/

namespace Graph

variable {α : Type} {c : Catalog} {g h : Graph α}

/-- The edges of a well wired graph may be put in another order. -/
theorem Wired.permute (hg : g.Wired c) {edges : List Edge} (hperm : edges.Perm g.edges) :
    ({ g with edges := edges } : Graph α).Wired c where
  nodes_nodup := hg.nodes_nodup
  edges_nodup := ((hperm.map Edge.id).nodup_iff).mpr hg.edges_nodup
  occupied target id := by
    rw [hg.occupied]
    simp only [hperm.mem_iff]
  single e he f hf := hg.single e (hperm.mem_iff.mp he) f (hperm.mem_iff.mp hf)
  acyclic := hg.acyclic.mono fun _ he => hperm.mem_iff.mp he
  fits e he := (hg.fits e (hperm.mem_iff.mp he)).congr rfl rfl

/-- What enters an input is a matter of which edges there are, not of their order. -/
theorem Wired.incoming?_congr (hg : g.Wired c) (hh : h.Wired c) (hperm : h.edges.Perm g.edges)
    (target : PortRef) : h.incoming? target = g.incoming? target := by
  refine Option.ext fun e => ?_
  rw [hg.incoming?_eq_some_iff, hh.incoming?_eq_some_iff, hperm.mem_iff]

/-- Graphs with the same nodes that have the same edge at each input have the same rule tree. -/
theorem ruleTree_congr (hnodes : h.nodes = g.nodes)
    (hincoming : ∀ target, h.incoming? target = g.incoming? target) : h.ruleTree = g.ruleTree := by
  have hsource : ∀ id index, h.sourceAt? id index = g.sourceAt? id index := by
    intro id index
    rw [sourceAt?, sourceAt?, hincoming]
  have hroots : h.roots = g.roots := by
    rw [roots, roots, ofKind, ofKind, hnodes]
    simp only [hsource]
  have hagree : ∀ id, g.AgreeAt h id := fun id =>
    ⟨payload?_congr hnodes id, fun _ _ index _ => hsource id index⟩
  rw [ruleTree, ruleTree, SameCone.rules_eq hroots fun _ _ id _ => hagree id]

end Graph

/-! ## Documents of edges -/

namespace Desk

variable {d d' : Desk Double}

/-- The input that a document of an edge names, if it can be read. -/
def targetOf? (document : Json) : Option PortRef :=
  (document.member? "to").bind fun v => (Store.readRef "to" v).toOption

/-- A document of an edge with a text for an id that is not empty. -/
def HasId (document : Json) : Prop := ∃ id, id ≠ "" ∧ document.member? "id" = some (.str id)

theorem Describes.targetOf? {document : Json} {e : Edge} (h : Describes document e) :
    Desk.targetOf? document = some e.target := by
  obtain ⟨v, hv, hread⟩ := h.target
  rw [Desk.targetOf?, hv, Option.bind_some, hread]
  rfl

/-- A document that is loaded describes an edge. -/
theorem exists_describes {document : Json} (hid : HasId document)
    (hload : loadEdge document d = (.ok (), d')) : ∃ e, Describes document e ∧ e.id ≠ "" := by
  obtain ⟨id, hid, hmember⟩ := hid
  unfold loadEdge at hload
  dsimp only at hload
  split at hload
  next => cases hload
  next hends =>
    obtain ⟨source, hfrom, hends⟩ := bind_eq_ok_iff.mp hends
    obtain ⟨target, hto, hends⟩ := bind_eq_ok_iff.mp hends
    obtain ⟨_, _, hends⟩ := bind_eq_ok_iff.mp hends
    cases hends
    rw [connect] at hload
    split at hload
    next => cases hload
    next ends hcheck =>
      obtain ⟨hsource, htarget, _⟩ := checkGiven_eq_ok_iff.mp hcheck
      exact ⟨⟨id, _, _⟩, ⟨hmember, ⟨_, demand_ok hfrom, hsource⟩, ⟨_, demand_ok hto, htarget⟩⟩, hid⟩

/-- An edge that is loaded to a free input comes last in the graph. -/
theorem Describes.graph_of_loadEdge {document : Json} {e : Edge} (h : Describes document e)
    (hid : e.id ≠ "") (hfree : d.graph.incoming? e.target = none)
    (hload : Desk.loadEdge document d = (.ok (), d')) : d'.graph = d.graph.insertEdge e := by
  rw [h.loadEdge_eq, connectRefs] at hload
  cases hcheck : d.store.check e.source e.target with
  | error refusal =>
      rw [hcheck] at hload
      cases hload
  | ok types =>
      cases hnew : d.graph.hasEdge e.id with
      | true =>
          have hgiven : (Json.str e.id).isTruthy = true := by simpa [Json.isTruthy] using hid
          rw [hcheck] at hload
          dsimp only at hload
          rw [wire, chooseId_given _ hgiven] at hload
          dsimp only at hload
          rw [hnew] at hload
          cases hload
      | false =>
          obtain ⟨d₁, hload₁, hgraph, _⟩ := h.loadEdge hid hnew hfree hcheck
          rw [h.loadEdge_eq, connectRefs] at hload₁
          rw [hload₁] at hload
          cases hload
          exact hgraph

/-! ## Lists of edges -/

/-- Documents that are loaded describe edges, which come after those that were there. -/
theorem edges_of_loadAll {documents : List Json} (hids : ∀ document ∈ documents, HasId document)
    (htargets : (documents.filterMap targetOf?).Nodup) (hd : d.Sound)
    (hfree : ∀ e ∈ d.graph.edges, e.target ∉ documents.filterMap targetOf?)
    (hload : loadAll loadEdge documents d = (.ok (), d')) :
    ∃ edges, List.Forall₂ Describes documents edges ∧ (∀ e ∈ edges, e.id ≠ "") ∧
      d'.graph.nodes = d.graph.nodes ∧ d'.graph.edges = d.graph.edges ++ edges := by
  induction documents generalizing d with
  | nil =>
      cases hload
      exact ⟨[], .nil, nofun, rfl, (List.append_nil _).symm⟩
  | cons document rest ih =>
      rcases hfirst : loadEdge document d with ⟨result, middle⟩
      cases result with
      | error fault =>
          rw [loadAll, Edit.bind_error hfirst] at hload
          cases hload
      | ok _ =>
          rw [loadAll, Edit.bind_ok hfirst] at hload
          obtain ⟨e, hdescribes, hid⟩ := exists_describes (hids document List.mem_cons_self) hfirst
          rw [List.filterMap_cons_some hdescribes.targetOf?] at htargets hfree
          obtain ⟨hother, hrest⟩ := List.nodup_cons.mp htargets
          have hopen : d.graph.incoming? e.target = none := by
            rw [hd.2.incoming?_eq_none_iff]
            intro f hf htarget
            exact hfree f hf (htarget ▸ List.mem_cons_self)
          have hgraph := hdescribes.graph_of_loadEdge hid hopen hfirst
          have hsteps : Steps True d _ := loadEdge_stepwise document d
          rw [hfirst] at hsteps
          obtain ⟨edges, hall, hnamed, hnodes, hedges⟩ := ih
            (fun later hlater => hids later (List.mem_cons_of_mem _ hlater)) hrest
            (Steps.sound hsteps hd) (by
              intro f hf
              rw [hgraph] at hf
              rcases (Graph.mem_edges_insertEdge _ e f).mp hf with hf | rfl
              · exact fun hmem => hfree f hf (List.mem_cons_of_mem _ hmem)
              · exact hother) hload
          refine ⟨e :: edges, .cons hdescribes hall, ?_, ?_, ?_⟩
          · exact List.forall_mem_cons.mpr ⟨hid, hnamed⟩
          · rw [hnodes, hgraph, Graph.nodes_insertEdge]
          · rw [hedges, hgraph, Graph.insertEdge, List.append_assoc, List.singleton_append]

/-- What was loaded onto a graph without edges can be loaded in another order. -/
theorem loadAll_edges_perm {documents documents' : List Json} (hperm : documents'.Perm documents)
    (hids : ∀ document ∈ documents, HasId document)
    (htargets : (documents.filterMap targetOf?).Nodup) (hd : d.Sound) (hnone : d.graph.edges = [])
    {d₁ : Desk Double} (hload : loadAll loadEdge documents d = (.ok (), d₁)) :
    ∃ d₂, loadAll loadEdge documents' d = (.ok (), d₂) ∧
      (∀ target, d₂.graph.incoming? target = d₁.graph.incoming? target) ∧
      d₂.graph.ruleTree = d₁.graph.ruleTree := by
  have hsound : ∀ {documents d₁}, loadAll loadEdge documents d = (.ok (), d₁) →
      d₁.graph.Wired d.catalog := by
    intro documents d₁ hload
    have hsteps : Steps True d _ := loadAll_stepwise loadEdge_stepwise documents d
    rw [hload] at hsteps
    exact (Steps.settings hsteps).catalog ▸ (Steps.sound hsteps hd).2
  have hwired := hsound hload
  obtain ⟨edges, hdescribes, hnamed, hnodes, hedges⟩ := edges_of_loadAll hids htargets hd
    (by rw [hnone]; exact nofun) hload
  rw [hnone, List.nil_append] at hedges
  obtain ⟨edges', hdescribes', hperm'⟩ := List.perm_comp_forall₂ hperm hdescribes
  have hperm₁ : edges'.Perm d₁.graph.edges := hedges ▸ hperm'
  -- All edges together leave the graph well wired, in whatever order they are listed.
  obtain ⟨d₂, hload₂, hnodes₂, hedges₂, _⟩ := loadAll_edges (hwired.permute hperm₁)
    (fun e he => hnamed e (hperm'.mem_iff.mp he)) hdescribes' hd rfl hnodes.symm
    (by rw [hnone]; rfl)
  have hincoming := hwired.incoming?_congr (hsound hload₂) (hedges₂ ▸ hperm₁)
  exact ⟨d₂, hload₂, hincoming, Graph.ruleTree_congr hnodes₂ hincoming⟩

/-! ## Documents -/

theorem edges_placeNode (payload : Payload) (position : Except Fault (Point Double)) (given : Json)
    (d : Desk Double) : (d.placeNode payload position given).2.graph.edges = d.graph.edges := by
  rw [placeNode]
  rcases hchoose : d.chooseId given with ⟨id, chosen⟩
  have hgraph : chosen.graph = d.graph := congrArg Store.graph (chooseId_store hchoose)
  rw [← hgraph]
  dsimp only
  split
  · rfl
  · rfl
  · split
    · rfl
    · split <;> rfl

theorem edges_addNode (kind : Json) (position : Except Fault (Point Double)) (payload id : Json)
    (lenient : Bool) (d : Desk Double) :
    (d.addNode kind position payload id lenient).2.graph.edges = d.graph.edges := by
  rw [addNode]
  split
  · rfl
  · split
    · rfl
    · rw [addNodeOfKind]
      split
      · rfl
      next vetted _ =>
        rw [edges_placeNode]
        cases vetted.warning <;> rfl

theorem edges_loadNode (lenient : Bool) (document : Json) (d : Desk Double) :
    (loadNode lenient document d).2.graph.edges = d.graph.edges := by
  unfold loadNode
  dsimp only
  split
  · rfl
  · exact edges_addNode _ _ _ _ _ d

/-- Loading nodes adds no edge. -/
theorem edges_loadNodes (lenient : Bool) (documents : List Json) (d : Desk Double) :
    (loadAll (loadNode lenient) documents d).2.graph.edges = d.graph.edges := by
  induction documents generalizing d with
  | nil => rfl
  | cons document rest ih =>
      have hfirst := edges_loadNode lenient document d
      rcases hresult : loadNode lenient document d with ⟨result, middle⟩
      rw [hresult] at hfirst
      cases result with
      | error fault =>
          rw [loadAll, Edit.bind_error hresult]
          exact hfirst
      | ok _ =>
          rw [loadAll, Edit.bind_ok hresult, ih]
          exact hfirst

/-- A document that is accepted is accepted with its edges in another order, to the same effect. -/
theorem load_edges_of_perm {catalog : Catalog} {journal : Journal Double} {lenient : Bool}
    {nodes edges edges' : List Json} (hperm : edges'.Perm edges)
    (hids : ∀ document ∈ edges, HasId document) (htargets : (edges.filterMap targetOf?).Nodup)
    {d₁ : Desk Double}
    (hload : load (documentOf nodes edges) lenient (fresh catalog journal) = (.ok (), d₁)) :
    ∃ d₂, load (documentOf nodes edges') lenient (fresh catalog journal) = (.ok (), d₂) ∧
      (∀ target, d₂.graph.incoming? target = d₁.graph.incoming? target) ∧
      d₂.graph.ruleTree = d₁.graph.ruleTree := by
  have hsteps : Steps True (fresh catalog journal) _ :=
    loadAll_stepwise (loadNode_stepwise lenient) nodes (fresh catalog journal)
  have hnone := edges_loadNodes lenient nodes (fresh catalog journal)
  rw [load_documentOf_eq] at hload ⊢
  rcases hnodes : loadAll (loadNode lenient) nodes (fresh catalog journal) with ⟨result, middle⟩
  rw [hnodes] at hsteps hnone
  cases result with
  | error fault =>
      rw [Edit.bind_error hnodes] at hload
      cases hload
  | ok _ =>
      rw [Edit.bind_ok hnodes] at hload ⊢
      exact loadAll_edges_perm hperm hids htargets (Steps.sound hsteps (.fresh catalog journal))
        hnone hload

/-- The edges of a document may be listed in any order, if each has a text for an id and no two name
one input: the document is accepted in one order just if it is in the other, and then both stores
have the same edge at every input and the same rule tree. That the ids differ need not be asked for,
as one that comes twice is refused in every order. -/
theorem load_edges_perm (catalog : Catalog) (journal : Journal Double) (lenient : Bool)
    (nodes : List Json) {edges edges' : List Json} (hperm : edges.Perm edges')
    (hids : ∀ document ∈ edges, HasId document) (htargets : (edges.filterMap targetOf?).Nodup) :
    let outcome (edges : List Json) :=
      load (documentOf nodes edges) lenient (fresh catalog journal)
    ((outcome edges).1 = .ok () ↔ (outcome edges').1 = .ok ()) ∧
    ((outcome edges).1 = .ok () →
      (∀ target, (outcome edges').2.graph.incoming? target =
        (outcome edges).2.graph.incoming? target) ∧
      (outcome edges').2.graph.ruleTree = (outcome edges).2.graph.ruleTree) := by
  intro outcome
  have hids' : ∀ document ∈ edges', HasId document := fun document hmem =>
    hids document (hperm.mem_iff.mpr hmem)
  have htargets' : (edges'.filterMap targetOf?).Nodup :=
    ((hperm.filterMap targetOf?).nodup_iff).mp htargets
  refine ⟨⟨fun hok => ?_, fun hok => ?_⟩, fun hok => ?_⟩
  · obtain ⟨d₂, hload, _⟩ := load_edges_of_perm hperm.symm hids htargets (Prod.ext hok rfl)
    exact congrArg Prod.fst hload
  · obtain ⟨d₂, hload, _⟩ := load_edges_of_perm hperm hids' htargets' (Prod.ext hok rfl)
    exact congrArg Prod.fst hload
  · obtain ⟨d₂, hload, hsame⟩ := load_edges_of_perm hperm.symm hids htargets (Prod.ext hok rfl)
    rw [show outcome edges' = (.ok (), d₂) from hload]
    exact hsame

/-- A chain of three nodes whose last edge comes first, with one index written as a text. -/
theorem load_edges_perm_chain :
    let node (id kind : String) : Json := .obj [("id", .str id), ("kind", .str kind)]
    let ref (id : String) (index : Json) : Json := .obj [("nodeId", .str id), ("portIndex", index)]
    let edge (id source target : String) (index : Json) : Json :=
      .obj [("id", .str id), ("from", ref source (.int 0)), ("to", ref target index)]
    let nodes := [node "v" "Variable", node "c" "Compare", node "r" "Result"]
    let edges := [edge "b" "c" "r" (.int 0), edge "a" "v" "c" (.str "1")]
    let outcome (edges : List Json) :=
      load (documentOf nodes edges) false (fresh .attendance ⟨.counting, []⟩)
    (outcome edges).1 = .ok () ∧
    ((outcome edges).1 = .ok () ↔ (outcome edges.reverse).1 = .ok ()) ∧
    ((outcome edges).1 = .ok () →
      (∀ target, (outcome edges.reverse).2.graph.incoming? target =
        (outcome edges).2.graph.incoming? target) ∧
      (outcome edges.reverse).2.graph.ruleTree = (outcome edges).2.graph.ruleTree) := by
  intro node ref edge nodes edges outcome
  have hids : ∀ document ∈ edges, HasId document := by
    simp only [edges, List.forall_mem_cons]
    exact ⟨⟨"b", by decide, rfl⟩, ⟨"a", by decide, rfl⟩, nofun⟩
  exact ⟨rfl, load_edges_perm .attendance ⟨.counting, []⟩ false nodes edges.reverse_perm.symm hids
    (by decide +kernel)⟩

end Desk

end RuleCanvas
