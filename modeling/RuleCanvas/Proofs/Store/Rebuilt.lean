import Mathlib.Data.List.Forall2
import RuleCanvas.Proofs.Store.Reachable

/-! # Rebuilding a graph

The document of a graph holds all of it. A store that is built from the document adds the nodes and
connects the edges again, under the ids that they have, and every check is passed once more: ids
that differ from each other and from the empty text, payloads that read as they were written, and
edges of which any part is as well wired as the whole.
-/

namespace RuleCanvas

open Relation

/-! ## Payloads -/

/-- The fields of a payload read as the payload. -/
theorem Payload.read_fields (p : Payload) : Payload.read p.kind p.fields = .ok p := by
  cases p with
  | logic o => cases o <;> rfl
  | compare o => cases o <;> rfl
  | constant l => cases l <;> rfl
  | var | choice | result => rfl

namespace Desk

variable {α : Type} {d d' : Desk α}

/-- The fields of a payload leave no room for a default. -/
theorem putAll_defaultFields (c : Catalog) (p : Payload) :
    Json.putAll (Store.defaultFields c p.kind) p.fields = p.fields := by
  cases p with
  | var key =>
      unfold Store.defaultFields
      split <;> rfl
  | logic | compare | constant | choice | result => rfl

/-- Adding a payload is adding a node of its kind with its fields, which are
read back as the payload. -/
theorem addPayload_eq (d : Desk α) (p : Payload) (position : Except Fault (Point α)) (id : Json)
    (lenient : Bool) :
    d.addPayload p position id lenient = d.addNodeOfKind p.kind position p.fields id lenient := by
  rw [addNodeOfKind, putAll_defaultFields, Store.vet, p.read_fields]
  rfl

theorem vet_fields {c : Catalog} {p : Payload} {lenient : Bool}
    (hknown : ∀ key, p = .var key → c.contains key = true ∨ lenient = true) :
    ∃ warning, Store.vet c p.kind (Json.putAll (Store.defaultFields c p.kind) p.fields) lenient =
      .ok ⟨p, warning⟩ := by
  rw [putAll_defaultFields, Store.vet, p.read_fields]
  exact accept_of_known hknown

/-! ## Names -/

/-- No node and no edge has the empty id, and none will be drawn. -/
structure Named (d : Desk α) : Prop where
  names : ∀ k, d.journal.ids.name k ≠ ""
  nodes : ∀ n ∈ d.graph.nodes, n.id ≠ ""
  edges : ∀ e ∈ d.graph.edges, e.id ≠ ""

theorem Named.fresh (catalog : Catalog) {journal : Journal α}
    (hnames : ∀ k, journal.ids.name k ≠ "") : (Desk.fresh catalog journal).Named :=
  ⟨hnames, nofun, nofun⟩

theorem counting_ne_empty (k : Nat) : IdSource.counting.name k ≠ "" := by
  simp [IdSource.counting]

theorem Named.of_canName (hd : d.Named) {id : String} (hname : d.CanName id) : id ≠ "" := by
  rcases hname with hid | ⟨k, rfl⟩
  · exact hid
  · exact hd.names k

/-- Names stay good as long as none is added. -/
theorem Named.of_subset (hd : d.Named) (hnames : d'.journal.ids.name = d.journal.ids.name)
    (hnodes : ∀ id ∈ d'.graph.nodes.map (·.id), id ∈ d.graph.nodes.map (·.id))
    (hedges : ∀ e ∈ d'.graph.edges, e ∈ d.graph.edges) : d'.Named where
  names := hnames ▸ hd.names
  nodes n hn := by
    obtain ⟨m, hm, hid⟩ := List.mem_map.mp (hnodes n.id (List.mem_map_of_mem hn))
    exact hid ▸ hd.nodes m hm
  edges e he := hd.edges e (hedges e he)

theorem nodes_cutMisfits (n : Node α) (type : ValueType) (l : List Edge) (d : Desk α) :
    (cutMisfits n type l d).graph.nodes = d.graph.nodes := by
  induction l generalizing d with
  | nil => rfl
  | cons e rest ih =>
      rw [cutMisfits]
      split
      · split
        · exact ih d
        · exact ih _
      · exact ih d

theorem nodes_writePayload (d : Desk α) (n : Node α) (payload : Payload) :
    (d.writePayload n payload).graph.nodes = (d.graph.setNode { n with payload }).nodes := by
  rcases d.writePayload_cases n payload with hwrite | ⟨type, _, hwrite⟩
  · rw [hwrite]
    rfl
  · rw [hwrite]
    exact nodes_cutMisfits n type _ _

theorem Step.named {silent : Prop} (hstep : Step silent d d') (hd : d.Named) : d'.Named := by
  have hnames := hstep.settings.names
  cases hstep with
  | log | count | draw => exact ⟨hd.names, hd.nodes, hd.edges⟩
  | addNode n hnew hname =>
      refine ⟨hd.names, fun m hm => ?_, hd.edges⟩
      rcases List.mem_append.mp hm with hm | hm
      · exact hd.nodes m hm
      · rw [List.mem_singleton.mp hm]
        exact hd.of_canName hname
  | wire e _ _ _ _ hname =>
      refine ⟨hd.names, ?_, fun f hf => ?_⟩
      · change ∀ n ∈ (d.graph.vacate e.target).nodes, n.id ≠ ""
        rw [Graph.nodes_vacate]
        exact hd.nodes
      · rcases (Graph.mem_edges_insertEdge _ e f).mp hf with hf | rfl
        · exact hd.edges f (Graph.mem_edges_of_vacate hf)
        · exact hd.of_canName hname
  | removeNode id =>
      refine hd.of_subset hnames (fun _ hmem => ?_) fun e he =>
        ((Graph.mem_edges_foldl_dropEdge _ _ e).mp he).1
      obtain ⟨n, hn, rfl⟩ := List.mem_map.mp hmem
      have hkept : n ∈ ((d.graph.touching id).foldl Graph.dropEdge d.graph).nodes :=
        (List.mem_filter.mp hn).1
      rw [Graph.nodes_foldl_dropEdge] at hkept
      exact List.mem_map_of_mem hkept
  | moveNode n p hnode =>
      refine hd.of_subset hnames (fun id hid => ?_) fun e he => he
      exact (d.graph.map_id_setNode _) ▸ hid
  | writePayload n payload hnode hkind =>
      refine hd.of_subset hnames (fun id hid => ?_) fun e he => mem_edges_of_writePayload he
      rw [nodes_writePayload, Graph.map_id_setNode] at hid
      exact hid
  | dropEdge e =>
      exact hd.of_subset hnames (fun _ hid => hid) fun f hf =>
        ((d.graph.mem_edges_dropEdge e f).mp hf).1
  | vacate target =>
      refine hd.of_subset hnames (fun id hid => ?_) fun f hf => Graph.mem_edges_of_vacate hf
      change id ∈ (d.graph.vacate target).nodes.map (·.id) at hid
      rwa [Graph.nodes_vacate] at hid
  | clear => exact ⟨hd.names, nofun, nofun⟩

theorem lasting_named : Lasting Named where
  step _ _ hstep := hstep.named
  fresh catalog _ hd := .fresh catalog hd.names
  journal _ _ hd hd' := ⟨hd'.names, hd.nodes, hd.edges⟩

theorem Named.foldl_play {d : Desk Double} (hd : d.Named) (turns : List Turn) :
    (turns.foldl Desk.play d).Named := lasting_named.foldl_play hd turns

/-! ## Nodes -/

section

variable {d d' : Desk Double} {n : Node Double} {lenient : Bool}

theorem loadNode_toDocument_eq (n : Node Double) (lenient : Bool) (d : Desk Double) :
    loadNode lenient n.toDocument d =
      (((d.addNodeOfKind n.kind (.ok n.position) n.payload.fields (.str n.id) lenient).1.map
          fun _ => ()),
        (d.addNodeOfKind n.kind (.ok n.position) n.payload.fields (.str n.id) lenient).2) := by
  have hadd : d.addNode (.str n.kind.name) (.ok n.position) (.obj n.payload.fields) (.str n.id)
      lenient = d.addNodeOfKind n.kind (.ok n.position) n.payload.fields (.str n.id) lenient := by
    rw [addNode, Json.text?, Option.bind_some, NodeKind.ofName?_name]
    rfl
  rw [← hadd]
  rfl

/-- A node that is new and whose variable is known or let in is added as it was. -/
theorem loadNode_toDocument (hid : n.id ≠ "") (hnew : d.graph.hasNode n.id = false)
    (hknown : ∀ key, n.payload = .var key → d.catalog.contains key = true ∨ lenient = true) :
    ∃ d', loadNode lenient n.toDocument d = (.ok (), d') ∧ d'.graph = d.graph.addNode n ∧
      d'.journal.ids = d.journal.ids := by
  obtain ⟨warning, hvet⟩ := vet_fields hknown
  have hgiven : (Json.str n.id).isTruthy = true := by simpa [Json.isTruthy] using hid
  rw [loadNode_toDocument_eq, addNodeOfKind, show n.kind = n.payload.kind from rfl, hvet]
  dsimp only
  have hfree : (d.logOptional warning).graph.containsNode (.str n.id) = .ok false := by
    cases warning <;> exact congrArg Except.ok hnew
  rw [placeNode, chooseId_given _ hgiven]
  dsimp only
  rw [hfree]
  cases warning <;> exact ⟨_, rfl, rfl, rfl⟩

/-- A node with an unknown variable that is not let in is refused. -/
theorem loadNode_toDocument_unknown {key : String} (hpayload : n.payload = .var key)
    (hunknown : d.catalog.contains key = false) :
    loadNode false n.toDocument d = (.error (.refused (.unknownVariable key)), d) := by
  have haccept : Store.accept d.catalog n.payload false = .error (.unknownVariable key) := by
    rw [hpayload, Store.accept, hunknown]
    rfl
  rw [loadNode_toDocument_eq, addNodeOfKind, show n.kind = n.payload.kind from rfl,
    putAll_defaultFields, Store.vet, n.payload.read_fields]
  dsimp only
  rw [haccept]
  rfl

/-- The first of several nodes with new ids is added, and the others stay new. -/
theorem loadNode_cons {rest : List (Node Double)} (hids : ∀ m ∈ n :: rest, m.id ≠ "")
    (hnodup : ((d.graph.nodes ++ n :: rest).map (·.id)).Nodup)
    (hknown : ∀ key, n.payload = .var key → d.catalog.contains key = true ∨ lenient = true) :
    ∃ d', loadNode lenient n.toDocument d = (.ok (), d') ∧ d'.graph = d.graph.addNode n ∧
      d'.journal.ids = d.journal.ids ∧ d'.catalog = d.catalog ∧
      ((d'.graph.nodes ++ rest).map (·.id)).Nodup := by
  have hnew : d.graph.hasNode n.id = false := by
    rw [Graph.hasNode_eq_false_iff]
    intro m hm hsame
    rw [List.map_append, List.nodup_append] at hnodup
    exact hnodup.2.2 m.id (List.mem_map_of_mem hm) n.id (by simp) hsame
  obtain ⟨d', hload, hgraph, hdrawn⟩ := loadNode_toDocument (hids n List.mem_cons_self) hnew hknown
  have hsteps : Steps True d _ := loadNode_stepwise lenient n.toDocument d
  rw [hload] at hsteps
  refine ⟨d', hload, hgraph, hdrawn, hsteps.settings.catalog, ?_⟩
  rwa [hgraph, Graph.addNode, List.append_assoc, List.singleton_append]

/-- Nodes with new ids are added in their order. -/
theorem loadAll_nodes (nodes : List (Node Double)) (hids : ∀ n ∈ nodes, n.id ≠ "")
    (hnodup : ((d.graph.nodes ++ nodes).map (·.id)).Nodup)
    (hknown : ∀ n ∈ nodes, ∀ key, n.payload = .var key →
      d.catalog.contains key = true ∨ lenient = true) :
    ∃ d', loadAll (loadNode lenient) (nodes.map Node.toDocument) d = (.ok (), d') ∧
      d'.graph = { d.graph with nodes := d.graph.nodes ++ nodes } ∧
      d'.journal.ids = d.journal.ids := by
  induction nodes generalizing d with
  | nil =>
      refine ⟨d, rfl, ?_, rfl⟩
      rw [List.append_nil]
  | cons n rest ih =>
      obtain ⟨d₁, hload, hgraph, hdrawn, hcatalog, hnodup₁⟩ :=
        loadNode_cons hids hnodup (hknown n List.mem_cons_self)
      obtain ⟨d₂, hrest, hgraph₂, hdrawn₂⟩ := ih (fun m hm => hids m (List.mem_cons_of_mem _ hm))
        hnodup₁ (fun m hm => hcatalog ▸ hknown m (List.mem_cons_of_mem _ hm))
      refine ⟨d₂, ?_, ?_, hdrawn₂.trans hdrawn⟩
      · rw [List.map_cons, loadAll, Edit.bind_ok hload, hrest]
      · rw [hgraph₂, hgraph, Graph.addNode, List.append_assoc, List.singleton_append]

/-- The first node with a variable that is unknown ends the rebuilding. -/
theorem loadAll_nodes_unknown (nodes : List (Node Double)) (hids : ∀ n ∈ nodes, n.id ≠ "")
    (hnodup : ((d.graph.nodes ++ nodes).map (·.id)).Nodup)
    (hunknown : ∃ n ∈ nodes, ∃ key, n.payload = .var key ∧ d.catalog.contains key = false) :
    ∃ key d', d.catalog.contains key = false ∧
      loadAll (loadNode false) (nodes.map Node.toDocument) d =
        (.error (.refused (.unknownVariable key)), d') := by
  induction nodes generalizing d with
  | nil =>
      obtain ⟨n, hn, _⟩ := hunknown
      cases hn
  | cons n rest ih =>
      by_cases hknown : ∀ key, n.payload = .var key → d.catalog.contains key = true
      · obtain ⟨d₁, hload, _, _, hcatalog, hnodup₁⟩ :=
          loadNode_cons hids hnodup fun key hkey => .inl (hknown key hkey)
        obtain ⟨key, d₂, hkey, hrest⟩ := ih (fun m hm => hids m (List.mem_cons_of_mem _ hm)) hnodup₁
          (by
            obtain ⟨m, hm, key, hpayload, hkey⟩ := hunknown
            rw [hcatalog]
            rcases List.mem_cons.mp hm with rfl | hm
            · rw [hknown key hpayload] at hkey
              cases hkey
            · exact ⟨m, hm, key, hpayload, hkey⟩)
        refine ⟨key, d₂, hcatalog ▸ hkey, ?_⟩
        rw [List.map_cons, loadAll, Edit.bind_ok hload, hrest]
      · simp only [not_forall] at hknown
        obtain ⟨key, hpayload, hkey⟩ := hknown
        have hunknown : d.catalog.contains key = false := by simpa using hkey
        refine ⟨key, d, hunknown, ?_⟩
        rw [List.map_cons, loadAll,
          Edit.bind_error (loadNode_toDocument_unknown hpayload hunknown)]

/-! ## Edges -/

theorem natural_ofNat (n : Nat) : Form.natural (.int n) = .ok n := by
  have hle : ¬ (n : Int) < 0 := by omega
  simp [Form.natural, Form.integer, hle]

theorem read_toDocument (otherwise : Form.Cause) (ref : PortRef) :
    PortRef.read otherwise ref.toDocument = .ok ref := by
  have hread : PortRef.read otherwise ref.toDocument =
      (Form.both (.ok ref.node)
        (Form.within (.name "portIndex") (Form.natural (.int ref.port)))).map
        fun ends => ⟨ends.1, ends.2⟩ := rfl
  rw [hread, natural_ofNat]
  rfl

theorem readRef_toDocument (role : String) (ref : PortRef) :
    Store.readRef role ref.toDocument = .ok ref := by
  rw [Store.readRef, read_toDocument]

/-- A document of an edge: two references that can be read, and a text for the id. -/
structure Describes (document : Json) (e : Edge) : Prop where
  id : document.member? "id" = some (.str e.id)
  source : ∃ v, document.member? "from" = some v ∧ Store.readRef "from" v = .ok e.source
  target : ∃ v, document.member? "to" = some v ∧ Store.readRef "to" v = .ok e.target

theorem describes_toDocument (e : Edge) : Describes e.toDocument e :=
  ⟨rfl, ⟨_, rfl, readRef_toDocument _ e.source⟩, _, rfl, readRef_toDocument _ e.target⟩

theorem forall₂_toDocument (edges : List Edge) :
    List.Forall₂ Describes (edges.map Edge.toDocument) edges :=
  List.forall₂_map_left_iff.mpr (List.forall₂_same.mpr fun e _ => describes_toDocument e)

theorem connect_of_readRef {source target id : Json} {first second : PortRef}
    (hsource : Store.readRef "from" source = .ok first)
    (htarget : Store.readRef "to" target = .ok second) (d : Desk Double) :
    d.connect source target id = d.connectRefs first second id := by
  rw [connect, connectRefs, Store.checkGiven, hsource, htarget]
  cases hcheck : d.store.check first second <;>
    simp only [hcheck, Bind.bind, Except.bind, Pure.pure, Except.pure]

theorem demand_of_member? {name : String} {document v : Json}
    (hv : document.member? name = some v) : document.demand name = .ok v := by
  cases document with
  | obj members =>
      change Json.find? name members = some v at hv
      rw [Json.demand, hv]
  | null | bool | int | float | str | arr => cases hv

theorem ask_of_member? {name : String} {document v : Json}
    (hv : document.member? name = some v) : document.ask name = .ok (some v) := by
  cases document with
  | obj members => exact congrArg Except.ok hv
  | null | bool | int | float | str | arr => cases hv

theorem Describes.loadEdge_eq {document : Json} {e : Edge} (h : Describes document e)
    (d : Desk Double) :
    loadEdge document d =
      (((d.connectRefs e.source e.target (.str e.id)).1.map fun _ => ()),
        (d.connectRefs e.source e.target (.str e.id)).2) := by
  obtain ⟨source, hfrom, hsource⟩ := h.source
  obtain ⟨target, hto, htarget⟩ := h.target
  rw [← connect_of_readRef hsource htarget]
  unfold loadEdge
  rw [demand_of_member? hfrom, demand_of_member? hto, ask_of_member? h.id]
  rfl

/-- An edge that is new, passes the check and ends at a free input is connected as it was. -/
theorem Describes.loadEdge {document : Json} {e : Edge} (h : Describes document e) (hid : e.id ≠ "")
    (hnew : d.graph.hasEdge e.id = false) (hfree : d.graph.incoming? e.target = none)
    {types : ValueType × ValueType} (hcheck : d.store.check e.source e.target = .ok types) :
    ∃ d', Desk.loadEdge document d = (.ok (), d') ∧ d'.graph = d.graph.insertEdge e ∧
      d'.journal.ids = d.journal.ids := by
  have hgiven : (Json.str e.id).isTruthy = true := by simpa [Json.isTruthy] using hid
  rw [h.loadEdge_eq, connectRefs, hcheck]
  dsimp only
  rw [wire, chooseId_given _ hgiven]
  dsimp only
  rw [hnew, hfree, Graph.vacate_of_free hfree]
  exact ⟨_, rfl, rfl, rfl⟩

/-- A part of the edges of a well wired graph is connected next to the others. Each new edge closes
a cycle or shares its input only if it does so in the whole graph. -/
theorem loadAll_edges {g : Graph Double} {c : Catalog} (hg : g.Wired c)
    (hids : ∀ e ∈ g.edges, e.id ≠ "") {documents : List Json} {edges : List Edge}
    (hdescribes : List.Forall₂ Describes documents edges) (hd : d.Sound) (hcatalog : d.catalog = c)
    (hnodes : d.graph.nodes = g.nodes) (hedges : g.edges = d.graph.edges ++ edges) :
    ∃ d', loadAll loadEdge documents d = (.ok (), d') ∧
      d'.graph.nodes = g.nodes ∧ d'.graph.edges = g.edges ∧
      d'.journal.ids = d.journal.ids := by
  induction hdescribes generalizing d with
  | nil =>
      refine ⟨d, rfl, hnodes, ?_, rfl⟩
      rw [hedges, List.append_nil]
  | @cons document e documents rest hdescribe _ ih =>
      have he : e ∈ g.edges := by simp [hedges]
      have hsub : ∀ f ∈ d.graph.edges, f ∈ g.edges := fun f hf => by simp [hedges, hf]
      have hnew : ∀ f ∈ d.graph.edges, f.id ≠ e.id := by
        have hnodup := hg.edges_nodup
        rw [hedges, List.map_append, List.nodup_append] at hnodup
        intro f hf
        exact hnodup.2.2 f.id (List.mem_map_of_mem hf) e.id (by simp)
      have hfree : d.graph.incoming? e.target = none := by
        rw [hd.2.incoming?_eq_none_iff]
        intro f hf htarget
        exact hnew f hf (congrArg Edge.id (hg.single f (hsub f hf) e he htarget))
      obtain ⟨types, hcheck⟩ : ∃ types, d.store.check e.source e.target = .ok types := by
        obtain ⟨p, q, hp, hq, hsuits⟩ := hg.fits e he
        rw [← Graph.payload?_congr hnodes] at hp hq
        rw [← hcatalog] at hsuits
        refine Store.check_of_suits hp hq hsuits ?_ fun hpath => ?_
        · intro hself
          exact hg.acyclic.not_feeds_self _ ⟨e, he, rfl, hself.symm⟩
        · have hle : d.graph.Feeds ≤ g.Feeds := by
            rintro source target ⟨f, hf, hends⟩
            exact ⟨f, hsub f hf, hends⟩
          exact hg.acyclic _ (.tail' (ReflTransGen.mono hle _ _ hpath) ⟨e, he, rfl, rfl⟩)
      obtain ⟨d₁, hload, hgraph, hdrawn⟩ := hdescribe.loadEdge (hids e he)
        ((d.graph.hasEdge_eq_false_iff e.id).mpr hnew) hfree hcheck
      have hsteps : Steps True d _ := loadEdge_stepwise document d
      rw [hload] at hsteps
      obtain ⟨d₂, hrest, hnodes₂, hedges₂, hdrawn₂⟩ := ih (Steps.sound hsteps hd)
        ((Steps.settings hsteps).catalog.trans hcatalog) (by rw [hgraph]; exact hnodes)
        (by rw [hgraph, hedges]; simp [Graph.insertEdge])
      refine ⟨d₂, ?_, hnodes₂, hedges₂, hdrawn₂.trans hdrawn⟩
      rw [loadAll, Edit.bind_ok hload, hrest]

/-! ## Documents -/

/-- What comes of rebuilding a graph: all of it, and no id is drawn. -/
structure Rebuilds (g : Graph Double) (before : Desk Double)
    (outcome : Except Fault Unit × Desk Double) : Prop where
  done : outcome.1 = .ok ()
  nodes : outcome.2.graph.nodes = g.nodes
  edges : outcome.2.graph.edges = g.edges
  incoming : ∀ target, outcome.2.graph.incoming? target = g.incoming? target
  document : outcome.2.graph.toDocument = g.toDocument
  drawn : outcome.2.journal.ids.drawn = before.journal.ids.drawn

/-- Whether a catalog has every variable of a graph. -/
def Knows (c : Catalog) (g : Graph Double) : Prop :=
  ∀ n ∈ g.nodes, ∀ key, n.payload = .var key → c.contains key = true

/-- A graph document with the given documents of nodes and of edges. -/
def documentOf (nodes edges : List Json) : Json :=
  .obj [("nodes", .arr nodes), ("edges", .arr edges)]

theorem load_documentOf_eq (nodes edges : List Json) (lenient : Bool) (d : Desk Double) :
    load (documentOf nodes edges) lenient d =
      (loadAll (loadNode lenient) nodes >>= fun _ => loadAll loadEdge edges) d := by
  have hnodes : memberParts "nodes" (documentOf nodes edges) = .ok nodes := rfl
  have hedges : memberParts "edges" (documentOf nodes edges) = .ok edges := rfl
  rw [load, hnodes]
  dsimp only
  rcases hloaded : loadAll (loadNode lenient) nodes d with ⟨result, middle⟩
  cases result with
  | error fault => rw [Edit.bind_error hloaded]; rfl
  | ok _ =>
      rw [Edit.bind_ok hloaded, hedges]

theorem load_toDocument_eq (g : Graph Double) (lenient : Bool) (d : Desk Double) :
    load g.toDocument lenient d =
      (loadAll (loadNode lenient) (g.nodes.map Node.toDocument) >>= fun _ =>
        loadAll loadEdge (g.edges.map Edge.toDocument)) d := load_documentOf_eq _ _ lenient d

variable {g : Graph Double} {c : Catalog} {journal : Journal Double}

/-- A well wired graph is rebuilt where its variables are known or let in. -/
theorem rebuilds_of_wired (hg : g.Wired c) (hnodes : ∀ n ∈ g.nodes, n.id ≠ "")
    (hedges : ∀ e ∈ g.edges, e.id ≠ "")
    (hknown : ∀ n ∈ g.nodes, ∀ key, n.payload = .var key → c.contains key = true ∨ lenient = true) :
    Rebuilds g (fresh c journal) (load g.toDocument lenient (fresh c journal)) := by
  obtain ⟨d₁, hload₁, hgraph, hdrawn⟩ := loadAll_nodes (d := fresh c journal) g.nodes hnodes
    hg.nodes_nodup hknown
  have hsteps₁ : Steps True (fresh c journal) _ :=
    loadAll_stepwise (loadNode_stepwise lenient) (g.nodes.map Node.toDocument) (fresh c journal)
  rw [hload₁] at hsteps₁
  obtain ⟨d₂, hload₂, hnodes₂, hedges₂, hdrawn₂⟩ := loadAll_edges hg hedges
    (forall₂_toDocument g.edges) (Steps.sound hsteps₁ (.fresh c journal))
    (Steps.settings hsteps₁).catalog
    (by rw [hgraph]; rfl) (by rw [hgraph]; rfl)
  have hsteps₂ : Steps True d₁ _ :=
    loadAll_stepwise loadEdge_stepwise (g.edges.map Edge.toDocument) d₁
  rw [hload₂] at hsteps₂
  have hwired₂ := (Steps.sound (hsteps₁.trans hsteps₂) (.fresh c journal)).2
  rw [load_toDocument_eq, Edit.bind_ok hload₁, hload₂]
  refine ⟨rfl, hnodes₂, hedges₂, fun target => ?_, ?_, ?_⟩
  · rw [hwired₂.incoming?_eq_find?, hg.incoming?_eq_find?, hedges₂]
  · rw [Graph.toDocument, Graph.toDocument, hnodes₂, hedges₂]
  · rw [hdrawn₂, hdrawn]

end

/-- The document of any store that was reached from an empty one rebuilds its graph when unknown
variables are let in: nodes and edges are as they were and in the same order, the same edge is
at every input, and every id is the old one. Without leave it does so just if the catalog has
all variables, and is refused otherwise. That no id that is drawn is empty is all that is asked
of the supply of ids. -/
theorem load_toDocument (catalog : Catalog) (journal journal' : Journal Double) (turns : List Turn)
    (hnames : ∀ k, journal.ids.name k ≠ "") :
    let d := turns.foldl Desk.play (fresh catalog journal)
    let start := fresh d.catalog journal'
    Rebuilds d.graph start (load d.graph.toDocument true start) ∧
      (Knows d.catalog d.graph → Rebuilds d.graph start (load d.graph.toDocument false start)) ∧
      (¬ Knows d.catalog d.graph → ∃ refusal,
        (load d.graph.toDocument false start).1 = .error (.refused refusal) ∧
          refusal.family = .invalidPayload) := by
  intro d start
  have hwired : d.graph.Wired d.catalog := ((Sound.fresh catalog journal).foldl_play turns).2
  obtain ⟨_, hnodes, hedges⟩ := (Named.fresh catalog hnames).foldl_play turns
  refine ⟨rebuilds_of_wired hwired hnodes hedges fun _ _ _ _ => .inr rfl,
    fun hknown => rebuilds_of_wired hwired hnodes hedges fun n hn key hkey =>
      .inl (hknown n hn key hkey), fun hunknown => ?_⟩
  have hsome : ∃ n ∈ d.graph.nodes, ∃ key, n.payload = .var key ∧
      d.catalog.contains key = false := by
    simpa [Knows] using hunknown
  obtain ⟨key, d', _, hload⟩ := loadAll_nodes_unknown (d := start) d.graph.nodes hnodes
    hwired.nodes_nodup hsome
  refine ⟨.unknownVariable key, ?_, rfl⟩
  rw [load_toDocument_eq, Edit.bind_error hload]

/-- A Variable that the catalog does not have, and its edge. -/
theorem load_toDocument_unknown_variable :
    let turns : List Turn := [
      .edit (.addNode (.str "Variable") (.pair (.int 0) (.int 0)) (.obj [("key", .str "shift")])
        .null true),
      .edit (.addNode (.str "Result") (.pair (.int 1) (.int 0)) .null .null false),
      .edit (.connectRefs ⟨"n1", 0⟩ ⟨"n2", 0⟩ .null)]
    let d := turns.foldl Desk.play (fresh .attendance ⟨.counting, []⟩)
    let start := fresh d.catalog ⟨.counting, []⟩
    d.graph.edges = [⟨"n3", ⟨"n1", 0⟩, ⟨"n2", 0⟩⟩] ∧
    Rebuilds d.graph start (load d.graph.toDocument true start) ∧
    ∃ refusal, (load d.graph.toDocument false start).1 = .error (.refused refusal) ∧
      refusal.family = .invalidPayload := by
  intro turns d start
  have hshift : Catalog.attendance.contains "shift" = false := by decide +kernel
  have hunknown : ¬ Knows d.catalog d.graph := by
    intro hknows
    have hcontains : Catalog.attendance.contains "shift" = true :=
      hknows ⟨"n1", .zero false, .zero false, .var "shift"⟩ (.head _) "shift" rfl
    rw [hshift] at hcontains
    cases hcontains
  obtain ⟨hlenient, -, hstrict⟩ := load_toDocument .attendance ⟨.counting, []⟩ ⟨.counting, []⟩ turns
    counting_ne_empty
  exact ⟨rfl, hlenient, hstrict hunknown⟩

end Desk

end RuleCanvas
