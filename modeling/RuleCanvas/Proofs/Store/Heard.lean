import RuleCanvas.Proofs.Store.Atomic

/-! # What listeners see

A listener is told of a change with the graph as it is at that moment, which may be in the middle
of an operation. All that holds of the graph between operations holds then too, but for one thing:
a change of a payload that leaves several edges with the wrong type tells of each cut as it makes
it, and those still to be cut are seen with types that do not fit. Each of them is told as cut
before the operation is over.
-/

namespace RuleCanvas

variable {α : Type}

namespace Graph

variable {c : Catalog} {g : Graph α}

/-- Both ports of an edge exist. -/
def Joins (g : Graph α) (e : Edge) : Prop :=
  ∃ source target, g.payload? e.source.node = some source ∧
    g.payload? e.target.node = some target ∧ e.source.port < source.kind.outputCount ∧
    e.target.port < target.kind.inputCount

/-- A coherent graph whose edges join existing ports, whatever their types. -/
structure Joined (g : Graph α) : Prop extends Coherent g where
  joins : ∀ e ∈ g.edges, g.Joins e

theorem Fits.joins {e : Edge} (hfits : g.Fits c e) : g.Joins e := by
  obtain ⟨source, target, hsource, htarget, hlt, _, _, _, htype, _⟩ := hfits
  exact ⟨source, target, hsource, htarget, hlt, NodeKind.inputType?_eq_some_lt htype⟩

theorem Wired.joined (hg : g.Wired c) : g.Joined where
  toCoherent := hg.toCoherent
  joins e he := (hg.fits e he).joins

/-- No edge of a coherent graph leads from a node to itself. -/
theorem Coherent.source_ne_target (hg : g.Coherent) {e : Edge} (he : e ∈ g.edges) :
    e.source.node ≠ e.target.node := by
  intro hself
  exact hg.acyclic.not_feeds_self e.source.node ⟨e, he, rfl, hself.symm⟩

end Graph

namespace Desk

variable {c : Catalog} {d d' : Desk α} {first second : List (Listener × Change × Graph α)}

/-! ## Tellings in order -/

/-- Every graph that was shown joins existing ports. An edge whose types do not fit is shown only at
the cut of another, and whoever sees it is told of its own cut as well. -/
def Candid (c : Catalog) (told : List (Listener × Change × Graph α)) : Prop :=
  ∀ listener change g, (listener, change, g) ∈ told → g.Joined ∧
    ∀ e ∈ g.edges, ¬ g.Fits c e → (∃ cut, change = .edgeRemoved cut) ∧
      ∃ later, (listener, .edgeRemoved e.id, later) ∈ told ∧ e ∉ later.edges

theorem Candid.nil (c : Catalog) : Candid c ([] : List (Listener × Change × Graph α)) := nofun

theorem Candid.append (hfirst : Candid c first) (hsecond : Candid c second) :
    Candid c (first ++ second) := by
  intro listener change g htold
  rcases List.mem_append.mp htold with htold | htold
  · obtain ⟨hjoined, hmisfits⟩ := hfirst listener change g htold
    refine ⟨hjoined, fun e he hmisfit => ?_⟩
    obtain ⟨hcut, later, hlater, hgone⟩ := hmisfits e he hmisfit
    exact ⟨hcut, later, List.mem_append_left _ hlater, hgone⟩
  · obtain ⟨hjoined, hmisfits⟩ := hsecond listener change g htold
    refine ⟨hjoined, fun e he hmisfit => ?_⟩
    obtain ⟨hcut, later, hlater, hgone⟩ := hmisfits e he hmisfit
    exact ⟨hcut, later, List.mem_append_right _ hlater, hgone⟩

/-- What a change is told as, the latest first. -/
def telling (d : Desk α) (change : Change) : List (Listener × Change × Graph α) :=
  (d.store.listeners.map fun listener => (listener, change, d.graph)).reverse

theorem told_announce (d : Desk α) (change : Change) :
    (d.announce change).journal.told = d.telling change ++ d.journal.told := by
  change (((d.store.listeners.map fun l => Entry.heard l change d.graph).reverse ++
    d.journal.recent).filterMap Entry.told?) = _
  rw [List.filterMap_append, List.filterMap_reverse, List.filterMap_map]
  have hheard : Entry.told? ∘ (fun l => Entry.heard l change d.graph) =
      fun l => some (l, change, d.graph) := rfl
  rw [hheard, List.filterMap_eq_map', telling]
  rfl

theorem mem_telling {change change' : Change} {listener : Listener} {g : Graph α}
    (htold : (listener, change', g) ∈ d.telling change) :
    listener ∈ d.store.listeners ∧ change' = change ∧ g = d.graph := by
  rw [telling, List.mem_reverse, List.mem_map] at htold
  obtain ⟨_, hmem, heq⟩ := htold
  cases heq
  exact ⟨hmem, rfl, rfl⟩

theorem telling_mem (change : Change) {listener : Listener} (hmem : listener ∈ d.store.listeners) :
    (listener, change, d.graph) ∈ d.telling change :=
  List.mem_reverse.mpr (List.mem_map_of_mem hmem)

/-- In a well wired graph there is nothing to hide. -/
theorem candid_telling (hwired : d.graph.Wired c) (change : Change) :
    Candid c (d.telling change) := by
  intro listener change' g htold
  obtain ⟨_, _, rfl⟩ := mem_telling htold
  exact ⟨hwired.joined, fun e he hmisfit => absurd (hwired.fits e he) hmisfit⟩

/-! ## Cutting misfits -/

namespace Cuttable

variable {n : Node α} {payload : Payload} {type : ValueType} {l : List Edge}

theorem joined (h : Cuttable c d n payload l) (hacyclic : d.graph.Acyclic)
    (htype : payload.outputType? c 0 = some type) : d.graph.Joined := by
  refine ⟨⟨h.indexed, hacyclic⟩, fun e he => ?_⟩
  rcases h.fits e he with hfits | hmem
  · exact hfits.joins
  · obtain ⟨q, expected, hq, htarget⟩ := h.target e hmem
    have hout : 0 < payload.kind.outputCount := by
      rw [← payload.outputType?_isSome_iff c, htype]
      rfl
    rw [Graph.Joins, h.source e hmem]
    exact ⟨payload, q, h.node, hq, hout, NodeKind.inputType?_eq_some_lt htarget⟩

/-- The cuts are told candidly, and to every listener each edge that does not fit. -/
theorem told (htype : payload.outputType? c 0 = some type) (h : Cuttable c d n payload l)
    (hacyclic : d.graph.Acyclic) :
    ∃ new, (cutMisfits n type l d).journal.told = new ++ d.journal.told ∧ Candid c new ∧
      ∀ listener ∈ d.store.listeners, ∀ e ∈ d.graph.edges, ¬ d.graph.Fits c e →
        ∃ later, (listener, .edgeRemoved e.id, later) ∈ new ∧ e ∉ later.edges := by
  induction l generalizing d with
  | nil =>
      refine ⟨[], rfl, .nil c, fun _ _ e he hmisfit => ?_⟩
      exact absurd ((h.fits e he).resolve_right List.not_mem_nil) hmisfit
  | cons e rest ih =>
      obtain ⟨expected, hexpected⟩ := h.exists_expected List.mem_cons_self
      have hfits := h.fits_iff htype List.mem_cons_self hexpected
      rw [cutMisfits, hexpected]
      dsimp only
      split
      next hcompatible => exact ih (h.skip (hfits.mpr hcompatible)) hacyclic
      next hmisfit =>
        -- Whoever is shown the graph after this cut is told of the misfits in
        -- it by the cuts to come.
        generalize hcut : (d.setGraph (d.graph.dropEdge e)).log _ = cut
        have hgraph : cut.graph = d.graph.dropEdge e := by rw [← hcut]; rfl
        have htold : cut.journal.told = d.journal.told := by rw [← hcut]; rfl
        have hlisteners : cut.store.listeners = d.store.listeners := by rw [← hcut]; rfl
        have hlast : Cuttable c (cut.announce (.edgeRemoved e.id)) n payload rest := h.drop hgraph
        have hopen : cut.graph.Acyclic := by
          rw [hgraph]
          exact hacyclic.mono fun f hf => ((Graph.mem_edges_dropEdge _ _ f).mp hf).1
        obtain ⟨new, hnew, hcandid, hall⟩ := ih hlast hopen
        refine ⟨new ++ cut.telling (.edgeRemoved e.id), ?_, ?_, fun listener hmem f hf hout => ?_⟩
        · rw [hnew, told_announce, htold, List.append_assoc]
        · intro listener change g hshown
          rcases List.mem_append.mp hshown with hshown | hshown
          · obtain ⟨hjoined, hmisfits⟩ := hcandid listener change g hshown
            refine ⟨hjoined, fun f hf hout => ?_⟩
            obtain ⟨hchange, later, hlater, hgone⟩ := hmisfits f hf hout
            exact ⟨hchange, later, List.mem_append_left _ hlater, hgone⟩
          · obtain ⟨hmem, rfl, rfl⟩ := mem_telling hshown
            refine ⟨hlast.joined hopen htype, fun f hf hout => ⟨⟨e.id, rfl⟩, ?_⟩⟩
            obtain ⟨later, hlater, hgone⟩ := hall listener hmem f hf hout
            exact ⟨later, List.mem_append_left _ hlater, hgone⟩
        · by_cases hself : f.id = e.id
          · refine ⟨cut.graph, List.mem_append_right _ ?_, ?_⟩
            · rw [hself]
              exact telling_mem _ (hlisteners.symm ▸ hmem)
            · rw [hgraph, Graph.mem_edges_dropEdge]
              exact fun hkept => hkept.2 hself
          · have hkept : f ∈ cut.graph.edges := by
              rw [hgraph, Graph.mem_edges_dropEdge]
              exact ⟨hf, hself⟩
            have hstill : ¬ cut.graph.Fits c f := by
              intro hfit
              have hpayload : ∀ id, d.graph.payload? id = cut.graph.payload? id := by
                intro id
                rw [hgraph, Graph.payload?_congr (Graph.nodes_dropEdge _ _)]
              exact hout (hfit.congr (hpayload _) (hpayload _))
            obtain ⟨later, hlater, hgone⟩ := hall listener (hlisteners.symm ▸ hmem) f hkept hstill
            exact ⟨later, List.mem_append_left _ hlater, hgone⟩

end Cuttable

/-! ## Steps -/

theorem told_writePayload (hd : d.graph.Wired d.catalog) {n : Node α} {payload : Payload}
    (hnode : d.graph.node? n.id = some n) (hkind : payload.kind = n.kind) :
    ∃ new, (d.writePayload n payload).journal.told = new ++ d.journal.told ∧
      Candid d.catalog new := by
  -- Whatever is cut before, the last thing told is the change itself, of the graph as it ends up.
  obtain ⟨cut, new, hwrite, htold, hcandid⟩ :
      ∃ (cut : Desk α) (new : List (Listener × Change × Graph α)),
      d.writePayload n payload = cut.announce (.payloadUpdated n.id) ∧
        cut.journal.told = new ++ d.journal.told ∧ Candid d.catalog new := by
    rcases d.writePayload_cases n payload with hwrite | ⟨type, hafter, hwrite⟩
    · exact ⟨_, [], hwrite, rfl, .nil _⟩
    · obtain ⟨new, htold, hcandid, _⟩ := (cuttable_setNode hd.toLinked hnode hkind).told hafter
        (hd.acyclic.mono fun _ he => he)
      exact ⟨_, new, hwrite, htold, hcandid⟩
  have hwired : (d.writePayload n payload).graph.Wired d.catalog :=
    (linked_writePayload hd.toLinked hnode hkind).wired
      (hd.acyclic.mono fun _ => mem_edges_of_writePayload)
  rw [hwrite] at hwired ⊢
  refine ⟨cut.telling (.payloadUpdated n.id) ++ new, ?_, (candid_telling hwired _).append hcandid⟩
  rw [told_announce, htold, List.append_assoc]

/-- What one step tells is candid. -/
theorem Step.candid {silent : Prop} (hstep : Step silent d d') (hd : d.Sound) :
    ∃ new, d'.journal.told = new ++ d.journal.told ∧ Candid d.catalog new := by
  have hwired : d'.graph.Wired d.catalog := by
    rw [← hstep.settings.catalog]
    exact (hstep.sound hd).2
  cases hstep with
  | log | count | draw | vacate => exact ⟨[], rfl, .nil _⟩
  | writePayload n payload hnode hkind => exact told_writePayload hd.2 hnode hkind
  -- All other steps write once and tell of it.
  | addNode | removeNode | moveNode | wire | dropEdge | clear =>
      exact ⟨_, told_announce _ _, candid_telling hwired _⟩

theorem Steps.candid {silent : Prop} (hsteps : Steps silent d d') (hd : d.Sound) :
    ∃ new, d'.journal.told = new ++ d.journal.told ∧ Candid d.catalog new := by
  induction hsteps with
  | refl => exact ⟨[], rfl, .nil _⟩
  | @tail middle last hfirst hlast ih =>
      obtain ⟨before, hbefore, hcandid⟩ := ih
      obtain ⟨after, hafter, hcandid'⟩ := hlast.candid (Steps.sound hfirst hd)
      rw [(Steps.settings hfirst).catalog] at hcandid'
      exact ⟨after ++ before, by rw [hafter, hbefore, List.append_assoc], hcandid'.append hcandid⟩

/-! ## Runs -/

/-- Whoever listens to a store that was reached from an empty one, and whatever is done with it:
every graph shown has edges between existing ports of two nodes, at most one for an input, and no
cycle. The types of an edge fit unless another was cut just then, and in that case whoever sees it
is told before the operation is over that it has been cut as well. -/
theorem told_consistent (catalog : Catalog) (journal : Journal Double) (turns : List Turn)
    (listeners : List Listener) (operation : Operation) :
    let reached := turns.foldl Desk.play (fresh catalog journal)
    let d : Desk Double := { reached with store := { reached.store with listeners } }
    ∃ new, (operation.run d).2.journal.told = new ++ d.journal.told ∧
      ∀ listener change g, (listener, change, g) ∈ new →
        (∀ e ∈ g.edges, g.Joins e ∧ e.source.node ≠ e.target.node) ∧
        (∀ e ∈ g.edges, ∀ f ∈ g.edges, e.target = f.target → e = f) ∧ g.Acyclic ∧
        ∀ e ∈ g.edges, ¬ g.Fits d.catalog e → (∃ cut, change = .edgeRemoved cut) ∧
          ∃ later, (listener, .edgeRemoved e.id, later) ∈ new ∧ e ∉ later.edges := by
  intro reached d
  have hreached : reached.Sound := (Sound.fresh catalog journal).foldl_play turns
  have hd : d.Sound := hreached
  obtain ⟨new, htold, hcandid⟩ := Steps.candid (operation.run_stepwise (.inl trivial) d) hd
  refine ⟨new, htold, fun listener change g hshown => ?_⟩
  obtain ⟨hjoined, hmisfits⟩ := hcandid listener change g hshown
  exact ⟨fun e he => ⟨hjoined.joins e he, hjoined.source_ne_target he⟩, hjoined.single,
    hjoined.acyclic, hmisfits⟩

/-- A constant that feeds both inputs of a conjunction becomes a number. When the first edge is told
as cut, the second is still there, and leads from a number to a boolean. -/
theorem told_misfit_fan_out :
    let turns : List Turn := [
      .edit (.addNode (.str "Constant") (.pair (.int 0) (.int 0))
        (.obj [("valueType", .str "boolean"), ("value", .bool true)]) .null false),
      .edit (.addNode (.str "Logic") (.pair (.int 0) (.int 0)) .null .null false),
      .edit (.connectRefs ⟨"n1", 0⟩ ⟨"n2", 0⟩ .null),
      .edit (.connectRefs ⟨"n1", 0⟩ ⟨"n2", 1⟩ .null)]
    let reached := turns.foldl Desk.play (fresh .attendance ⟨.counting, []⟩)
    let d : Desk Double := { reached with store := reached.store.subscribe (.named "panel" 0) }
    let operation : Operation :=
      .updatePayload (.str "n1") (.obj [("valueType", .str "number")])
    ∃ g e, (.named "panel" 0, .edgeRemoved "n3", g) ∈ (operation.run d).2.journal.told ∧
      e ∈ g.edges ∧ ¬ g.Fits d.catalog e := by
  intro turns reached d operation
  let second : Edge := ⟨"n4", ⟨"n1", 0⟩, ⟨"n2", 1⟩⟩
  let number : Node Double := ⟨"n1", .zero false, .zero false, .constant (.int 0)⟩
  let g : Graph Double := (d.graph.setNode number).dropEdge ⟨"n3", ⟨"n1", 0⟩, ⟨"n2", 0⟩⟩
  refine ⟨g, second, by decide +kernel, by decide +kernel, ?_⟩
  rintro ⟨source, target, hsource, htarget, _, sourceType, targetType, hout, hin, hcompatible⟩
  rw [show g.payload? second.source.node = some (.constant (.int 0)) by decide +kernel] at hsource
  rw [show g.payload? second.target.node = some (.logic .and) by decide +kernel] at htarget
  cases hsource
  cases htarget
  cases hout
  cases hin
  cases hcompatible

end Desk

end RuleCanvas
