import RuleCanvas.Proofs.Rule.Held
import RuleCanvas.Proofs.Rule.Layout
import RuleCanvas.Proofs.Store.Invariant
import RuleCanvas.Proofs.Store.Reachable

/-! # Placing plans

Placing a plan that is proper always succeeds, adds to the graph without touching what is there, and
leaves a node that holds the plan. The ids are fresh because the source of ids never repeats itself
and everything in the graph was named by an earlier draw.
-/

namespace RuleCanvas

open Relation

variable {α : Type}

/-! ## Checks that are passed -/

/-- Of two ports that exist on different nodes the check looks at the types next. -/
theorem Store.check_of_misfit {s : Store α} {source target : PortRef} {p q : Payload}
    {sourceType targetType : ValueType} (hsource : s.graph.payload? source.node = some p)
    (htarget : s.graph.payload? target.node = some q) (hlt : source.port < p.kind.outputCount)
    (hsourceType : p.outputType? s.catalog source.port = some sourceType)
    (htargetType : q.kind.inputType? target.port = some targetType)
    (hother : source.node ≠ target.node)
    (hmisfit : ValueType.compatible sourceType targetType = false) :
    s.check source target =
      .error (.typeMismatch sourceType targetType source.node target.node) := by
  obtain ⟨sourceNode, hsourceNode, rfl⟩ := Option.map_eq_some_iff.mp hsource
  obtain ⟨targetNode, htargetNode, rfl⟩ := Option.map_eq_some_iff.mp htarget
  rw [check, hsourceNode, htargetNode]
  dsimp only
  rw [hsourceType]
  dsimp only
  rw [if_neg (show ¬ sourceNode.kind.outputCount ≤ source.port from Nat.not_le.mpr hlt),
    show targetNode.kind.inputType? target.port = _ from htargetType]
  dsimp only
  rw [if_neg hother, hmisfit]
  rfl

namespace Desk

variable {d : Desk α}

/-- A node without an id is placed under the id that is drawn next. -/
theorem placeNode_missing (payload : Payload) (p : Point α)
    (hnew : d.graph.hasNode d.journal.draw.1 = false) :
    d.placeNode payload (.ok p) .null =
      ((({ d with journal := d.journal.draw.2 } : Desk α).setGraph
        (d.graph.addNode ⟨d.journal.draw.1, p.x, p.y, payload⟩)).announce
          (.nodeAdded d.journal.draw.1)).done d.journal.draw.1 := by
  rw [placeNode, d.chooseId_missing rfl]
  have hfree : ({ d with journal := d.journal.draw.2 } : Desk α).graph.containsNode
      (.str d.journal.draw.1) = .ok false := congrArg Except.ok hnew
  dsimp only
  rw [hfree]
  rfl

/-- An edge without an id to a free input gets the id that is drawn next. -/
theorem connectRefs_missing {source target : PortRef} {types : ValueType × ValueType}
    (hcheck : d.store.check source target = .ok types)
    (hnew : d.graph.hasEdge d.journal.draw.1 = false) (hfree : d.graph.incoming? target = none) :
    d.connectRefs source target .null =
      (((({ d with journal := d.journal.draw.2 } : Desk α).setGraph
        (d.graph.insertEdge ⟨d.journal.draw.1, source, target⟩)).count
          (.wire .connected)).announce (.edgeAdded d.journal.draw.1)).done d.journal.draw.1 := by
  have hsame : ({ d with journal := d.journal.draw.2 } : Desk α).graph = d.graph := rfl
  rw [connectRefs, hcheck]
  dsimp only
  rw [wire, d.chooseId_missing rfl]
  dsimp only
  rw [hsame, hnew, hfree, Graph.vacate_of_free hfree]
  rfl

end Desk

namespace Rule.Importer

open Desk

variable {i : Importer α} {d d' : Desk α}

/-! ## Desks for an import -/

/-- The ids `n1`, `n2`, and so on, differ from each other. -/
theorem counting_injective : Function.Injective IdSource.counting.name := by
  intro j k heq
  -- Equal names have equal digits, which spell one number.
  have hdigits : Nat.toDigits 10 (j + 1) = Nat.toDigits 10 (k + 1) := by
    have hlist := congrArg String.toList heq
    simpa [IdSource.counting] using hlist
  have hvalue := congrArg (Nat.ofDigitChars 10 · 0) hdigits
  simpa using hvalue

/-- A desk at which documents can be placed: its store has the catalog of the importer and is sound,
and the ids still to be drawn are distinct and not in use. -/
structure Ready (i : Importer α) (d : Desk α) : Prop where
  catalog : d.catalog = i.context.catalog
  sound : d.Sound
  names : Function.Injective d.journal.ids.name
  nodes_new : ∀ k, d.journal.ids.drawn ≤ k → d.graph.hasNode (d.journal.ids.name k) = false
  edges_new : ∀ k, d.journal.ids.drawn ≤ k → d.graph.hasEdge (d.journal.ids.name k) = false

theorem Ready.wired (hd : i.Ready d) : d.graph.Wired i.context.catalog := hd.catalog ▸ hd.sound.2

theorem Ready.of_steps (hd : i.Ready d) (hsteps : Steps True d d')
    (hnodes : ∀ k, d'.journal.ids.drawn ≤ k → d'.graph.hasNode (d.journal.ids.name k) = false)
    (hedges : ∀ k, d'.journal.ids.drawn ≤ k → d'.graph.hasEdge (d.journal.ids.name k) = false) :
    i.Ready d' := by
  obtain ⟨hcatalog, _, _, hnames⟩ := hsteps.settings
  refine ⟨hcatalog.trans hd.catalog, hsteps.sound hd.sound, ?_, ?_, ?_⟩
  · rw [hnames]
    exact hd.names
  · rw [hnames]
    exact hnodes
  · rw [hnames]
    exact hedges

theorem Ready.clear (hcatalog : d.catalog = i.context.catalog) (hguarded : d.store.guarded = true)
    (hnames : Function.Injective d.journal.ids.name) : i.Ready d.clear where
  catalog := hcatalog
  sound := ⟨hguarded, .empty _⟩
  names := hnames
  nodes_new _ _ := rfl
  edges_new _ _ := rfl

/-- What placing a part of a document does to a desk: nothing that was there is touched, and some
nodes and edges are added. -/
structure Builds (i : Importer α) (d d' : Desk α) (nodes : List (Node α)) (edges : List Edge) :
    Prop where
  ready : i.Ready d'
  extends_ : d.graph.Extends d'.graph
  nodes_eq : d'.graph.nodes = d.graph.nodes ++ nodes
  edges_eq : d'.graph.edges = d.graph.edges ++ edges

theorem Builds.refl (hd : i.Ready d) : i.Builds d d [] [] :=
  ⟨hd, .refl _, (List.append_nil _).symm, (List.append_nil _).symm⟩

theorem Builds.trans {d₁ d₂ d₃ : Desk α} {nodes nodes' : List (Node α)} {edges edges' : List Edge}
    (hfirst : i.Builds d₁ d₂ nodes edges) (hsecond : i.Builds d₂ d₃ nodes' edges') :
    i.Builds d₁ d₃ (nodes ++ nodes') (edges ++ edges') where
  ready := hsecond.ready
  extends_ := hfirst.extends_.trans hsecond.extends_
  nodes_eq := by rw [hsecond.nodes_eq, hfirst.nodes_eq, List.append_assoc]
  edges_eq := by rw [hsecond.edges_eq, hfirst.edges_eq, List.append_assoc]

/-! ## One wire and one node -/

/-- A wire that passes the check takes the id that is drawn next. -/
theorem wire_checked (hd : i.Ready d) {target : String} (feed : Feed)
    {types : ValueType × ValueType}
    (hcheck : d.store.check ⟨feed.id, 0⟩ ⟨target, feed.index⟩ = .ok types)
    (hfree : d.graph.incoming? ⟨target, feed.index⟩ = none) :
    ∃ d', wire target feed d = (.ok [], d') ∧ i.Ready d' ∧
      ∃ id, d'.graph = d.graph.insertEdge ⟨id, ⟨feed.id, 0⟩, ⟨target, feed.index⟩⟩ := by
  have hsteps : Steps True d _ := wire_stepwise target feed d
  have hnew := hd.edges_new d.journal.ids.drawn (Nat.le_refl _)
  have hconnect := connectRefs_missing hcheck hnew hfree
  obtain ⟨d', hwire, hgraph, hdrawn⟩ : ∃ d', wire target feed d = (.ok [], d') ∧
      d'.graph = d.graph.insertEdge ⟨d.journal.draw.1, ⟨feed.id, 0⟩, ⟨target, feed.index⟩⟩ ∧
      d'.journal.ids.drawn = d.journal.ids.drawn + 1 := by
    rw [wire, hconnect]
    exact ⟨_, rfl, rfl, rfl⟩
  rw [hwire] at hsteps
  refine ⟨d', hwire, hd.of_steps hsteps ?_ ?_, _, hgraph⟩
  · intro k hk
    rw [hgraph]
    exact hd.nodes_new k (by omega)
  · intro k hk
    rw [hgraph, Graph.hasEdge_insertEdge, hd.edges_new k (by omega), Bool.false_or,
      beq_eq_false_iff_ne]
    intro heq
    have := hd.names heq
    omega

/-- A wire between types that do not fit is reported, and nothing else happens. -/
theorem wire_mismatched (hd : i.Ready d) {target : String} (feed : Feed)
    {sourceType targetType : ValueType}
    (hcheck : d.store.check ⟨feed.id, 0⟩ ⟨target, feed.index⟩ =
      .error (.typeMismatch sourceType targetType feed.id target))
    (hmisfit : ValueType.compatible sourceType targetType = false) :
    ∃ d', wire target feed d = (.ok (misfit feed.path sourceType targetType), d') ∧ i.Ready d' ∧
      d'.graph = d.graph := by
  have hsteps : Steps True d _ := wire_stepwise target feed d
  obtain ⟨d', hwire, hgraph, hids⟩ : ∃ d',
      wire target feed d = (.ok (misfit feed.path sourceType targetType), d') ∧
        d'.graph = d.graph ∧ d'.journal.ids = d.journal.ids := by
    rw [wire, connectRefs, hcheck, misfit, hmisfit]
    exact ⟨_, rfl, rfl, rfl⟩
  rw [hwire] at hsteps
  refine ⟨d', hwire, hd.of_steps hsteps ?_ ?_, hgraph⟩
  · rw [hgraph, hids]
    exact hd.nodes_new
  · rw [hgraph, hids]
    exact hd.edges_new

/-- Wiring a new node to a free input of another succeeds with an edge there if the types fit, and
with an issue if they do not. -/
theorem wire_spec (hd : i.Ready d) {target : String} (feed : Feed) {p q : Payload}
    (hsource : d.graph.payload? feed.id = some p) (hp : p ≠ .result)
    (htarget : d.graph.payload? target = some q) (hindex : feed.index < q.kind.inputCount)
    (hother : feed.id ≠ target) (hunused : ∀ e ∈ d.graph.edges, e.source.node ≠ target)
    (hfree : d.graph.incoming? ⟨target, feed.index⟩ = none) :
    ∃ d', wire target feed d = (.ok (misfit feed.path (p.type i.context.catalog)
        (q.kind.expected feed.index)), d') ∧ i.Ready d' ∧
      d.graph.Gains d'.graph (ValueType.compatible (p.type i.context.catalog)
        (q.kind.expected feed.index)) feed.id ⟨target, feed.index⟩ := by
  have hout : 0 < p.kind.outputCount := by
    rw [← p.outputType?_isSome_iff i.context.catalog, Payload.outputType?_of_ne hp]
    rfl
  have hsourceType : p.outputType? d.catalog 0 = some (p.type i.context.catalog) := by
    rw [hd.catalog]
    exact Payload.outputType?_of_ne hp _
  have htargetType := NodeKind.inputType?_of_lt hindex
  cases hfits : ValueType.compatible (p.type i.context.catalog) (q.kind.expected feed.index) with
  | true =>
      -- Nothing leaves the new node, so no path leads from it back to the source.
      have hopen : ¬ ReflTransGen d.graph.Feeds target feed.id := by
        intro hpath
        rcases hpath.cases_head with heq | ⟨next, ⟨e, he, hsource, _⟩, _⟩
        · exact hother heq.symm
        · exact hunused e he hsource
      obtain ⟨types, hcheck⟩ : ∃ types,
          d.store.check ⟨feed.id, 0⟩ ⟨target, feed.index⟩ = .ok types :=
        Store.check_of_suits hsource htarget ⟨hout, _, _, hsourceType, htargetType, hfits⟩ hother
          hopen
      obtain ⟨d', hwire, hready, hgains⟩ := wire_checked hd feed hcheck hfree
      refine ⟨d', ?_, hready, hgains⟩
      rw [hwire, misfit, if_pos hfits]
  | false =>
      have hcheck : d.store.check ⟨feed.id, 0⟩ ⟨target, feed.index⟩ = .error _ :=
        Store.check_of_misfit hsource htarget hout hsourceType htargetType hother hfits
      exact wire_mismatched hd feed hcheck hfits

/-- Wiring the next input of a node under construction to a node that was there before and holds the
plan of the input. -/
theorem wireHeld_spec {g : Graph α} {id target : String} {q : Payload} {index : Nat} {plan : Plan}
    (hd : i.Ready d) (hopens : g.Opens d.graph target q index) (hindex : index < q.kind.inputCount)
    (hproper : plan.Proper i.context) (hholds : g.Holds i.context.catalog id plan) :
    ∃ d', wire target ⟨index, id, plan.path⟩ d = (.ok (misfit plan.path
        (plan.payload.type i.context.catalog) (q.kind.expected index)), d') ∧ i.Ready d' ∧
      g.Opens d'.graph target q (index + 1) ∧
      d.graph.Gains d'.graph (ValueType.compatible (plan.payload.type i.context.catalog)
        (q.kind.expected index)) id ⟨target, index⟩ ∧
      (∀ earlier < index,
        d'.graph.incoming? ⟨target, earlier⟩ = d.graph.incoming? ⟨target, earlier⟩) ∧
      if ValueType.compatible (plan.payload.type i.context.catalog) (q.kind.expected index) then
        ∃ e, d'.graph.incoming? ⟨target, index⟩ = some e ∧ e.source.node = id
      else d'.graph.incoming? ⟨target, index⟩ = none := by
  have hid : g.hasNode id = true := Graph.hasNode_of_payload? hholds.payload
  have hother : id ≠ target := by
    rintro rfl
    rw [hopens.fresh] at hid
    cases hid
  have hsource : d.graph.payload? id = some plan.payload :=
    (hopens.extends_.payload id hid).trans hholds.payload
  have hfree := hopens.free index (Nat.le_refl _)
  obtain ⟨d', hwire, hready, hgains⟩ := wire_spec hd ⟨index, id, plan.path⟩ hsource
    hproper.placeable.ne_result hopens.payload hindex hother hopens.unused hfree
  have hcoherent := hd.wired.toCoherent
  have hcoherent' := hready.wired.toCoherent
  refine ⟨d', hwire, hready, hopens.feed hgains hcoherent hcoherent' hother, hgains, ?_,
    hgains.incoming_target hcoherent hcoherent' hfree⟩
  intro earlier hlt
  apply hgains.incoming_other hcoherent hcoherent'
  intro heq
  exact Nat.ne_of_lt hlt (PortRef.mk.inj heq).2

/-- The edge of a feed, if it fits, goes before those of the later feeds. -/
theorem exists_wires {g h k : Graph α} {c : Catalog} {kind : NodeKind} {target : String}
    {index : Nat} {plan : Plan} {rest : Inputs} {feeds : List Feed} (feed : Feed)
    (hgains : g.Gains h (ValueType.compatible (plan.payload.type c) (kind.expected index)) feed.id
      ⟨target, index⟩)
    (hrest : ∃ wires, Wires c kind target (index + 1) rest feeds wires ∧
      k.edges = h.edges ++ wires) :
    ∃ wires, Wires c kind target index (.wired plan rest) (feed :: feeds) wires ∧
      k.edges = g.edges ++ wires := by
  obtain ⟨wires, hwires, hedges⟩ := hrest
  cases hfits : ValueType.compatible (plan.payload.type c) (kind.expected index) with
  | true =>
      rw [hfits] at hgains
      obtain ⟨edge, rfl⟩ := hgains
      refine ⟨_, .fits feed edge hfits hwires, ?_⟩
      rw [hedges, Graph.insertEdge, List.append_assoc]
      rfl
  | false =>
      rw [hfits] at hgains
      obtain rfl := hgains
      exact ⟨wires, .refused feed hfits hwires, hedges⟩

/-- Wiring the collected feeds to a new node leaves its inputs fed as planned,
where the types fit. -/
theorem wireAll_spec {d : Desk α} {g : Graph α} {target : String} {q : Payload} {index : Nat}
    (inputs : Inputs) {feeds : List Feed} (hd : i.Ready d) (hopens : g.Opens d.graph target q index)
    (hproper : inputs.Proper i.context) (hlength : index + inputs.length ≤ q.kind.inputCount)
    (hfeeding : g.Feeding i.context.catalog index inputs feeds) :
    ∃ d', wireAll target feeds d = (.ok (inputs.misfits i.context.catalog q.kind index), d') ∧
      i.Ready d' ∧ g.Extends d'.graph ∧ d'.graph.nodes = d.graph.nodes ∧
      (∃ wires, Wires i.context.catalog q.kind target index inputs feeds wires ∧
        d'.graph.edges = d.graph.edges ++ wires) ∧
      (∀ earlier < index,
        d'.graph.incoming? ⟨target, earlier⟩ = d.graph.incoming? ⟨target, earlier⟩) ∧
      d'.graph.HoldsInputs i.context.catalog target q.kind index inputs := by
  cases inputs with
  | done =>
      rw [show feeds = [] from hfeeding]
      exact ⟨d, rfl, hd, hopens.extends_, rfl, ⟨[], .done index, (List.append_nil _).symm⟩,
        fun _ _ => rfl, hopens.free⟩
  | unwired rest =>
      simp only [Inputs.length] at hlength
      obtain ⟨d', hwire, hready, hextends, hnodes, ⟨wires, hwires, hedges⟩, hearlier, hholds⟩ :=
        wireAll_spec rest hd hopens.skip hproper (by omega) hfeeding
      refine ⟨d', hwire, hready, hextends, hnodes, ⟨wires, .unwired hwires, hedges⟩,
        fun earlier hlt => hearlier earlier (by omega), ?_, hholds⟩
      rw [hearlier index (by omega)]
      exact hopens.free index (Nat.le_refl _)
  | wired plan rest =>
      obtain ⟨hplan, hrest⟩ := hproper
      obtain ⟨id, later, rfl, hheld, hlater⟩ := hfeeding
      simp only [Inputs.length] at hlength
      -- What later wires add leaves this input alone, as they end at later ones.
      obtain ⟨d₁, hfirst, hready₁, hopens₁, hgains, hearlier₁, hinput⟩ :=
        wireHeld_spec hd hopens (by omega) hplan hheld
      obtain ⟨d₂, hsecond, hready₂, hextends, hnodes, hwires, hearlier, hholds⟩ :=
        wireAll_spec rest hready₁ hopens₁ hrest (by omega) hlater
      refine ⟨d₂, ?_, hready₂, hextends, hnodes.trans hgains.nodes,
        exists_wires ⟨index, id, plan.path⟩ hgains hwires, fun earlier hlt => ?_, ?_, hholds⟩
      · rw [wireAll, Edit.bind_ok hfirst, Edit.bind_ok hsecond]
        rfl
      · rw [hearlier earlier (by omega), hearlier₁ earlier hlt]
      · rw [← hearlier index (by omega)] at hinput
        split
        next hfits =>
          rw [if_pos hfits] at hinput
          obtain ⟨e, hin, rfl⟩ := hinput
          exact ⟨e, hin, hheld.extend hextends⟩
        next hmisfit =>
          rw [if_neg hmisfit] at hinput
          exact hinput

variable [Scalar α]

/-- Making a node succeeds and adds it under a new id. -/
theorem make_spec (hd : i.Ready d) (depth : Nat) (y : α) (payload : Payload)
    (hknown : ∀ key, payload = .var key →
      i.context.catalog.contains key = true ∨ i.context.lenient = true) :
    ∃ id d', i.make depth y payload d = (.ok id, d') ∧ i.Ready d' ∧
      d.graph.hasNode id = false ∧
      d'.graph = d.graph.addNode ⟨id, i.spacing.x depth, y, payload⟩ := by
  obtain ⟨warning, haccept⟩ := accept_of_known hknown
  have hsteps : Steps True d _ := i.make_stepwise depth y payload d
  have hnew := hd.nodes_new d.journal.ids.drawn (Nat.le_refl _)
  obtain ⟨d', hmake, hgraph, hdrawn⟩ : ∃ d', i.make depth y payload d = (.ok d.journal.draw.1, d') ∧
      d'.graph = d.graph.addNode ⟨d.journal.draw.1, i.spacing.x depth, y, payload⟩ ∧
      d'.journal.ids.drawn = d.journal.ids.drawn + 1 := by
    have hplaced := placeNode_missing (d := d.logOptional warning) payload
      ⟨i.spacing.x depth, y⟩ (by cases warning <;> exact hnew)
    rw [make, addPayload, hd.catalog, haccept]
    dsimp only
    rw [hplaced]
    cases warning <;> exact ⟨_, rfl, rfl, rfl⟩
  rw [hmake] at hsteps
  refine ⟨_, d', hmake, hd.of_steps hsteps ?_ ?_, hnew, hgraph⟩
  · intro k hk
    rw [hgraph, Graph.hasNode_addNode, hd.nodes_new k (by omega), Bool.false_or,
      beq_eq_false_iff_ne]
    intro heq
    have := hd.names heq
    omega
  · intro k hk
    rw [hgraph]
    exact hd.edges_new k (by omega)

/-! ## Plans -/

mutual

/-- Placing a proper plan succeeds, reports the feeds that do not fit, and answers with a node that
holds the plan. -/
theorem place_spec {d : Desk α} (hd : i.Ready d) (depth : Nat) (top : α) {plan : Plan}
    (hproper : plan.Proper i.context) :
    ∃ id d', i.place depth top plan d = (.ok (id, plan.allMisfits i.context.catalog), d') ∧
      (∃ nodes edges, Placed i depth top plan id nodes edges ∧ i.Builds d d' nodes edges) ∧
      d'.graph.Holds i.context.catalog id plan := by
  cases plan with
  | node payload path inputs =>
      obtain ⟨hplaceable, hlength, hinputs⟩ := hproper
      obtain ⟨feeds, d₁, hplaced, ⟨nodes, edges, hbelow, hbuilds⟩, hfeeding⟩ :=
        placeInputs_spec hd (depth + 1) top 0 inputs hinputs
      obtain ⟨id, d₂, hmake, hready, hnew, hgraph⟩ :=
        i.make_spec hbuilds.ready depth (i.spacing.y top (max 1 inputs.rows)) payload
          hplaceable.known
      have hopens : d₁.graph.Opens d₂.graph id payload 0 := by
        rw [hgraph]
        exact hbuilds.ready.wired.opens_addNode hnew
      obtain ⟨d₃, hwire, hready₃, hextends, hnodes, ⟨wires, hwires, hedges⟩, _, hholds⟩ :=
        wireAll_spec inputs hready hopens hinputs (by omega) hfeeding
      refine ⟨id, d₃, ?_, ⟨_, _, .node id hbelow hwires,
        hbuilds.trans ⟨hready₃, hextends, ?_, ?_⟩⟩, ?_, hholds⟩
      · rw [place, Edit.bind_ok hplaced]
        dsimp only
        rw [Edit.bind_ok hmake, Edit.bind_ok hwire]
        rfl
      · rw [hnodes, hgraph, Graph.addNode]
      · rw [hedges, hgraph, Graph.addNode]
      · rw [Graph.payload?_congr hnodes, hopens.payload]

theorem placeInputs_spec {d : Desk α} (hd : i.Ready d) (depth : Nat) (top : α) (index : Nat)
    (inputs : Inputs) (hproper : inputs.Proper i.context) :
    ∃ feeds d', i.placeInputs depth top index inputs d =
        (.ok (feeds, inputs.allMisfits i.context.catalog), d') ∧
      (∃ nodes edges, PlacedInputs i depth top index inputs feeds nodes edges ∧
        i.Builds d d' nodes edges) ∧
      d'.graph.Feeding i.context.catalog index inputs feeds := by
  cases inputs with
  | done => exact ⟨[], d, rfl, ⟨[], [], .done depth top index, .refl hd⟩, rfl⟩
  | unwired rest =>
      obtain ⟨feeds, d', hplace, ⟨nodes, edges, hplaced, hbuilds⟩, hfeeding⟩ :=
        placeInputs_spec hd depth top (index + 1) rest hproper
      exact ⟨feeds, d', hplace, ⟨nodes, edges, .unwired hplaced, hbuilds⟩, hfeeding⟩
  | wired plan rest =>
      obtain ⟨hplan, hrest⟩ := hproper
      obtain ⟨id, d₁, hplace, ⟨nodes, edges, hplaced, hbuilds⟩, hholds⟩ :=
        place_spec hd depth top hplan
      obtain ⟨feeds, d₂, hplaceRest, ⟨nodes', edges', hplacedRest, hbuildsRest⟩, hfeeding⟩ :=
        placeInputs_spec hbuilds.ready depth (i.spacing.below top plan.rows) (index + 1) rest hrest
      refine ⟨⟨index, id, plan.path⟩ :: feeds, d₂, ?_,
        ⟨_, _, .wired hplaced hplacedRest, hbuilds.trans hbuildsRest⟩, id, feeds, rfl,
        hholds.extend hbuildsRest.extends_, hfeeding⟩
      rw [placeInputs, Edit.bind_ok hplace]
      dsimp only
      rw [Edit.bind_ok hplaceRest]
      rfl

end

/-! ## Rules -/

/-- Placing a rule succeeds and adds one Result, fed by what holds the plan of the rule. -/
theorem placeRule_spec (hd : i.Ready d) (top : α) {plan : Option Plan}
    (hproper : ∀ p ∈ plan, p.Proper i.context) :
    ∃ id d', i.placeRule top plan d =
        (.ok (id, (plan.map (·.allMisfits i.context.catalog)).getD []), d') ∧
      (∃ nodes edges, PlacedRule i top plan id nodes edges ∧ i.Builds d d' nodes edges) ∧
      d'.graph.HoldsRule i.context.catalog id plan := by
  cases plan with
  | none =>
      obtain ⟨id, d₁, hmake, hready, hnew, hgraph⟩ :=
        i.make_spec hd 0 top .result (by simp)
      have hopens : d.graph.Opens d₁.graph id .result 0 := by
        rw [hgraph]
        exact hd.wired.opens_addNode hnew
      refine ⟨id, d₁, ?_, ⟨_, _, .null id, hready, hopens.extends_, ?_, ?_⟩,
        hopens.payload, hopens.free 0 (Nat.le_refl _), hopens.skip.free⟩
      · rw [placeRule, Edit.bind_ok hmake]
        rfl
      · rw [hgraph, Graph.addNode]
      · rw [hgraph, Graph.addNode, List.append_nil]
  | some plan =>
      have hplan := hproper plan rfl
      obtain ⟨root, d₁, hplace, ⟨nodes, edges, hplaced, hbuilds⟩, hholds⟩ :=
        place_spec hd 1 top hplan
      obtain ⟨id, d₂, hmake, hready, hnew, hgraph⟩ :=
        i.make_spec hbuilds.ready 0 (i.spacing.y top plan.rows) .result (by simp)
      have hopens : d₁.graph.Opens d₂.graph id .result 0 := by
        rw [hgraph]
        exact hbuilds.ready.wired.opens_addNode hnew
      obtain ⟨d₃, hwire, hready₃, hfed, hgains, _, hinput⟩ :=
        wireHeld_spec hready hopens (by decide) hplan hholds
      -- A Result takes values of every type, so that its wire is never refused.
      have hfits : ValueType.compatible (plan.payload.type i.context.catalog)
          (Payload.result.kind.expected 0) = true := by
        cases plan.payload.type i.context.catalog <;> rfl
      rw [hfits] at hgains
      obtain ⟨edge, hgraph₃⟩ := hgains
      refine ⟨id, d₃, ?_, ⟨_, _, .plan id edge hplaced,
        hbuilds.trans ⟨hready₃, hfed.extends_, ?_, ?_⟩⟩, hfed.payload, ?_, hfed.free⟩
      · rw [placeRule, Edit.bind_ok hplace]
        dsimp only
        rw [Edit.bind_ok hmake, Edit.bind_ok hwire, misfit, if_pos hfits, List.append_nil]
        rfl
      · rw [hgraph₃, hgraph, Graph.insertEdge, Graph.addNode]
      · rw [hgraph₃, hgraph, Graph.insertEdge, Graph.addNode]
      · rw [if_pos hfits] at hinput ⊢
        obtain ⟨e, hin, rfl⟩ := hinput
        exact ⟨e, hin, hholds.extend hfed.extends_⟩

/-- The rules that plans compile to; `null` gives none. -/
def compiledRules (i : Importer α) (plans : List (Option Plan)) : List Json :=
  plans.filterMap fun plan => plan.map (·.rule i.context.catalog)

/-- Placing rules succeeds and adds a Result for each in order, fed by what holds its plan. -/
theorem placeRules_spec {d : Desk α} (hd : i.Ready d) (top : α) {plans : List (Option Plan)}
    (hproper : ∀ plan ∈ plans, ∀ p ∈ plan, p.Proper i.context) :
    ∃ results d', i.placeRules top plans d = (.ok (results, i.rulesMisfits plans), d') ∧
      (∃ nodes edges, PlacedRules i top plans results nodes edges ∧ i.Builds d d' nodes edges) ∧
      List.Forall₂ (d'.graph.HoldsRule i.context.catalog) results plans := by
  induction plans generalizing d top with
  | nil => exact ⟨[], d, rfl, ⟨[], [], .nil top, .refl hd⟩, .nil⟩
  | cons plan rest ih =>
      obtain ⟨id, d₁, hplace, ⟨nodes, edges, hplaced, hbuilds⟩, hholds⟩ :=
        placeRule_spec hd top (hproper plan List.mem_cons_self)
      obtain ⟨ids, d₂, hplaceRest, ⟨nodes', edges', hplacedRest, hbuildsRest⟩, hholdsRest⟩ :=
        ih hbuilds.ready (i.spacing.below top (ruleRows plan + 1)) fun p hp =>
          hproper p (List.mem_cons_of_mem _ hp)
      refine ⟨id :: ids, d₂, ?_, ⟨_, _, .cons hplaced hplacedRest, hbuilds.trans hbuildsRest⟩,
        .cons (Graph.Holds.extend hholds hbuildsRest.extends_) hholdsRest⟩
      rw [placeRules, Edit.bind_ok hplace]
      dsimp only
      rw [Edit.bind_ok hplaceRest]
      rfl

/-! ## Documents -/

omit [Scalar α] in
theorem plans_of_proper {rules : List Json}
    (hproper : ∀ draft ∈ i.plans rules, ∀ p ∈ draft.1, p.Proper i.context) :
    ∀ plan ∈ (i.plans rules).map (·.1), ∀ p ∈ plan, p.Proper i.context := by
  intro plan hplan
  obtain ⟨draft, hdraft, rfl⟩ := List.mem_map.mp hplan
  exact hproper draft hdraft

/-- The import of a document with a list of rules succeeds. Its issues are those of planning and
then those of feeds that do not fit; its graph is what placing the plans adds, and its Results are
fed as the plans say. -/
theorem run_places (hcatalog : d.catalog = i.context.catalog) (hguarded : d.store.guarded = true)
    (hnames : Function.Injective d.journal.ids.name) {document : Json} {rules : List Json}
    (hrules : rulesOf document = .ok rules)
    (hproper : ∀ draft ∈ i.plans rules, ∀ p ∈ draft.1, p.Proper i.context) :
    ∃ imported d', i.run document d = (.ok imported, d') ∧
      imported.issues =
        (i.plans rules).flatMap (·.2) ++ i.rulesMisfits ((i.plans rules).map (·.1)) ∧
      d'.graph.Wired i.context.catalog ∧
      PlacedRules i Spacing.top ((i.plans rules).map (·.1)) imported.results d'.graph.nodes
        d'.graph.edges ∧
      List.Forall₂ (d'.graph.HoldsRule i.context.catalog) imported.results
        ((i.plans rules).map (·.1)) := by
  have hplans := plans_of_proper hproper
  obtain ⟨results, d₁, hplace, ⟨nodes, edges, hplaced, hbuilds⟩, hholds⟩ :=
    placeRules_spec (Ready.clear hcatalog hguarded hnames) Spacing.top hplans
  have hfinish : ∀ issues, ∃ imported d', finish issues results d₁ = (.ok imported, d') ∧
      imported.issues = issues ∧ imported.results = results ∧ d'.graph = d₁.graph := by
    intro issues
    rw [finish]
    split <;> exact ⟨_, _, rfl, rfl, rfl, rfl⟩
  obtain ⟨imported, d₂, hdone, hissues, hresults, hgraph⟩ := hfinish
    ((i.plans rules).flatMap (·.2) ++ i.rulesMisfits ((i.plans rules).map (·.1)))
  have hnodes : d₁.graph.nodes = nodes := hbuilds.nodes_eq
  have hedges : d₁.graph.edges = edges := hbuilds.edges_eq
  refine ⟨imported, d₂, ?_, hissues, ?_, ?_, ?_⟩
  · rw [run, hrules]
    dsimp only
    rw [Edit.bind_ok hplace]
    exact hdone
  · rw [hgraph]
    exact hbuilds.ready.wired
  · rw [hgraph, hnodes, hedges, hresults]
    exact hplaced
  · rw [hgraph, hresults]
    exact hholds

/-- The Results of an imported graph, in the order of its nodes, are fed as the plans say. -/
theorem run_spec (hcatalog : d.catalog = i.context.catalog) (hguarded : d.store.guarded = true)
    (hnames : Function.Injective d.journal.ids.name) {document : Json} {rules : List Json}
    (hrules : rulesOf document = .ok rules)
    (hproper : ∀ draft ∈ i.plans rules, ∀ p ∈ draft.1, p.Proper i.context) :
    ∃ imported d', i.run document d = (.ok imported, d') ∧
      imported.issues =
        (i.plans rules).flatMap (·.2) ++ i.rulesMisfits ((i.plans rules).map (·.1)) ∧
      d'.graph.Wired i.context.catalog ∧
      d'.graph.HoldsRules i.context.catalog (d'.graph.ofKind .result)
        ((i.plans rules).map (·.1)) := by
  obtain ⟨imported, d', hrun, hissues, hwired, hplaced, hholds⟩ :=
    run_places hcatalog hguarded hnames hrules hproper
  refine ⟨imported, d', hrun, hissues, hwired, ?_⟩
  have hresults : (d'.graph.ofKind .result).map (·.id) = imported.results :=
    (hplaced.counted (plans_of_proper hproper)).results
  rw [← hresults, List.forall₂_map_left_iff] at hholds
  exact hholds

end Rule.Importer

end RuleCanvas
