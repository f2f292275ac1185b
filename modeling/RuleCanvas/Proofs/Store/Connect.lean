import RuleCanvas.Proofs.Store.Heard
import RuleCanvas.Proofs.Store.Rebuilt

/-! # Which connections are made

A connection is made just if its ends are ready ports of two nodes with types that fit, its id is
not in use, and the graph with the new edge in the place of the one at its input has no cycle.
The search for a cycle looks at the graph before that edge is taken out. This makes no
difference: the edge enters the node that the search starts from, so a path that uses it is back
at its start and can do without it.
-/

namespace RuleCanvas

open Relation

variable {α : Type}

namespace Graph

variable {g : Graph α} {e : Edge}

/-! ## Replacing an edge -/

/-- The edges without the one at the target of a new edge, and then the new edge. -/
def edgesWith (g : Graph α) (e : Edge) : List Edge :=
  (g.edges.filter fun f => f.target ≠ e.target) ++ [e]

/-- Cycles are made of edges alone. -/
theorem acyclic_congr {g h : Graph α} (hedges : h.edges = g.edges) : h.Acyclic ↔ g.Acyclic :=
  ⟨fun hh => hh.mono fun _ hf => hedges ▸ hf, fun hg => hg.mono fun _ hf => hedges ▸ hf⟩

theorem Indexed.edges_replace (hg : g.Indexed) (e : Edge) :
    ((g.vacate e.target).insertEdge e).edges = g.edgesWith e := by
  rw [edgesWith, ← hg.edges_vacate e.target]
  rfl

/-- A path from a node does not need the edges that enter it. -/
theorem reaches_without_entering {target : PortRef} {goal : String}
    (hpath : ReflTransGen g.Feeds target.node goal) :
    ReflTransGen (fun source next => ∃ f ∈ g.edges, f.target ≠ target ∧ f.source.node = source ∧
      f.target.node = next) target.node goal := by
  -- A path whose last edge enters the start is there again, and begins anew.
  induction hpath with
  | refl => exact .refl
  | tail _ hlast ih =>
      obtain ⟨f, hf, rfl, rfl⟩ := hlast
      by_cases hentering : f.target = target
      · rw [hentering]
      · exact ih.tail ⟨f, hf, hentering, rfl, rfl⟩

/-- The graph with an edge replaced has a cycle just if the target of the new edge leads to its
source in the graph as it was. -/
theorem Acyclic.edgesWith_iff (hg : g.Acyclic) (e : Edge) :
    Acyclic { g with edges := g.edgesWith e } ↔
      ¬ ReflTransGen g.Feeds e.target.node e.source.node := by
  constructor
  · intro hnew hpath
    refine hnew e.source.node (.head' ⟨e, by simp [edgesWith], rfl, rfl⟩ ?_)
    refine ReflTransGen.mono ?_ _ _ (reaches_without_entering hpath)
    rintro source next ⟨f, hf, hother, hends⟩
    exact ⟨f, by simp [edgesWith, hf, hother], hends⟩
  · intro hback
    let kept : Graph α := { g with edges := g.edges.filter fun f => f.target ≠ e.target }
    have hkept : ∀ f ∈ kept.edges, f ∈ g.edges := fun f hf => (List.mem_filter.mp hf).1
    have hinserted : (kept.insertEdge e).Acyclic := by
      refine (hg.mono hkept).insertEdge fun hpath => hback (ReflTransGen.mono ?_ _ _ hpath)
      rintro source next ⟨f, hf, hends⟩
      exact ⟨f, hkept f hf, hends⟩
    exact (acyclic_congr (g := kept.insertEdge e) rfl).mpr hinserted

/-- The index after a replacement names the new edge at its target, and elsewhere what it named. -/
theorem Indexed.lookup_replace (hg : g.Indexed)
    (hnew : ((g.vacate e.target).insertEdge e).Indexed) (port : PortRef) :
    ((g.vacate e.target).insertEdge e).occupants.lookup port =
      if port = e.target then some e.id else g.occupants.lookup port := by
  have hmem : ∀ f, f ∈ ((g.vacate e.target).insertEdge e).edges ↔
      (f ∈ g.edges ∧ f.target ≠ e.target) ∨ f = e := by
    intro f
    rw [mem_edges_insertEdge, hg.mem_edges_vacate]
  ext id
  rw [hnew.lookup_eq_some_iff]
  split
  next hport =>
    subst hport
    constructor
    · rintro ⟨f, hf, htarget, rfl⟩
      rcases (hmem f).mp hf with ⟨_, hother⟩ | rfl
      · exact absurd htarget hother
      · rfl
    · rintro hid
      exact ⟨e, (hmem e).mpr (.inr rfl), rfl, by simpa using hid⟩
  next hport =>
    rw [hg.lookup_eq_some_iff]
    constructor
    · rintro ⟨f, hf, rfl, rfl⟩
      rcases (hmem f).mp hf with ⟨hold, _⟩ | rfl
      · exact ⟨f, hold, rfl, rfl⟩
      · exact absurd rfl hport
    · rintro ⟨f, hf, rfl, rfl⟩
      exact ⟨f, (hmem f).mpr (.inl ⟨hf, hport⟩), rfl, rfl⟩

end Graph

/-! ## The search for cycles -/

/-- On every graph, with cycles, with several edges between two nodes and with edges to nodes that
are not there, the search from the target of an edge to its source comes to an answer, within two
turns more than there are edges and in any greater number. It is the answer that the store gives,
and it says whether a path of edges, of any length, leads from the target to the source. -/
theorem Store.wouldCycle_exact (catalog : Catalog) (g : Graph α) (listeners : List Listener)
    (source target : String) (more : Nat) :
    ∃ answer, g.search source (g.edges.length + 2 + more) ⟨[target], []⟩ = some answer ∧
      (⟨catalog, g, listeners, true⟩ : Store α).wouldCycle (.str source) (.str target) =
        .ok answer ∧
      (answer = true ↔ ReflTransGen g.Feeds target source) := by
  obtain ⟨answer, hanswer, hright⟩ := g.search_start target source (Nat.le_add_right _ more)
  refine ⟨answer, hanswer, ?_, hright⟩
  have hsame : g.closesCycle source target = answer := by
    rw [Bool.eq_iff_iff, Graph.closesCycle, Graph.reaches_iff, hright]
  exact congrArg Except.ok hsame

namespace Desk

variable {d : Desk α} {source target : PortRef} {id : Json}

/-! ## Names -/

/-- The id of a new edge: the given text, or the next of the supply where it is
empty or left out. -/
def nameFor (d : Desk α) : Json → String
  | .str id => if id = "" then d.journal.draw.1 else id
  | _ => d.journal.draw.1

/-- Choosing an id touches nothing but the supply. -/
theorem chooseId_nameFor (d : Desk α) (hid : id.IsTextId) :
    ∃ ids : IdSource, ids.name = d.journal.ids.name ∧ d.chooseId id =
      (.str (d.nameFor id), { d with journal := { d.journal with ids } }) := by
  rcases hid with rfl | ⟨name, rfl⟩
  · exact ⟨d.journal.draw.2.ids, rfl, d.chooseId_missing rfl⟩
  · by_cases hempty : name = ""
    · subst hempty
      exact ⟨d.journal.draw.2.ids, rfl, d.chooseId_missing rfl⟩
    · refine ⟨d.journal.ids, rfl, ?_⟩
      rw [d.chooseId_given (by simpa [Json.isTruthy] using hempty), nameFor, if_neg hempty]

/-! ## What is asked of an edge, and what is done with it -/

/-- What a new edge is asked for: two existing ports of different nodes, types that fit, an id that
is not in use, and no cycle in the graph that it would be in. -/
structure Admits (d : Desk α) (e : Edge) : Prop where
  ports : ∃ source target sourceType targetType, d.graph.node? e.source.node = some source ∧
    d.graph.node? e.target.node = some target ∧ e.source.port < source.kind.outputCount ∧
    e.target.port < target.kind.inputCount ∧
    source.payload.outputType? d.catalog e.source.port = some sourceType ∧
    target.kind.inputType? e.target.port = some targetType ∧
    ValueType.compatible sourceType targetType = true
  apart : e.source.node ≠ e.target.node
  unused : ∀ f ∈ d.graph.edges, f.id ≠ e.id
  acyclic : Graph.Acyclic { d.graph with edges := d.graph.edgesWith e }

/-- What a connection changes: the edge at the target is exchanged for the new one, the
index of inputs follows, and every listener is told once. The nodes, the catalog, the
listeners and the guard stay. -/
structure Connects (d d' : Desk α) (e : Edge) : Prop where
  nodes : d'.graph.nodes = d.graph.nodes
  edges : d'.graph.edges = d.graph.edgesWith e
  occupants : ∀ port, d'.graph.occupants.lookup port =
    if port = e.target then some e.id else d.graph.occupants.lookup port
  settings : d.SameSettings d'
  told : d'.journal.told = d'.telling (.edgeAdded e.id) ++ d.journal.told

/-- The check and the look at the ids let an edge pass just if it is admitted. -/
theorem Sound.admits_iff (hd : d.Sound) (e : Edge) :
    ((∃ types, d.store.check e.source e.target = .ok types) ∧ d.graph.hasEdge e.id = false) ↔
      d.Admits e := by
  obtain ⟨hguarded, hwired⟩ := hd
  constructor
  · rintro ⟨⟨types, hcheck⟩, hnew⟩
    obtain ⟨p, q, hp, hq, ⟨hlt, sourceType, targetType, hout, hin, hcompatible⟩, hapart, hback⟩ :=
      Store.suits_of_check hcheck
    obtain ⟨sourceNode, hsource, rfl⟩ := Option.map_eq_some_iff.mp hp
    obtain ⟨targetNode, htarget, rfl⟩ := Option.map_eq_some_iff.mp hq
    exact ⟨⟨sourceNode, targetNode, sourceType, targetType, hsource, htarget, hlt,
      NodeKind.inputType?_eq_some_lt hin, hout, hin, hcompatible⟩, hapart,
      (d.graph.hasEdge_eq_false_iff e.id).mp hnew,
      (hwired.acyclic.edgesWith_iff e).mpr (hback hguarded)⟩
  · rintro ⟨⟨sourceNode, targetNode, sourceType, targetType, hsource, htarget, hlt, _, hout, hin,
      hcompatible⟩, hapart, hunused, hacyclic⟩
    refine ⟨?_, (d.graph.hasEdge_eq_false_iff e.id).mpr hunused⟩
    exact Store.check_of_suits (Graph.payload?_of_node? hsource) (Graph.payload?_of_node? htarget)
      ⟨hlt, sourceType, targetType, hout, hin, hcompatible⟩ hapart
      ((hwired.acyclic.edgesWith_iff e).mp hacyclic)

/-- Ends that passed the check are connected unless the id is in use. -/
theorem Sound.wire_connects (hd : d.Sound) (hid : id.IsTextId)
    (hcheck : ∃ types, d.store.check source target = .ok types) :
    let e : Edge := ⟨d.nameFor id, source, target⟩
    (d.graph.hasEdge e.id = true → ∃ fault, (d.wire source target id).1 = .error fault) ∧
    (d.graph.hasEdge e.id = false → (d.wire source target id).1 = .ok e.id ∧
      d.Connects (d.wire source target id).2 e) := by
  intro e
  obtain ⟨types, hcheck⟩ := hcheck
  obtain ⟨ids, hnames, hchoose⟩ := d.chooseId_nameFor hid
  rw [wire, hchoose]
  dsimp only
  split
  next htaken =>
    refine ⟨fun _ => ⟨_, rfl⟩, fun hnew => ?_⟩
    have htaken : d.graph.hasEdge e.id = true := htaken
    rw [hnew] at htaken
    cases htaken
  next hfree =>
    have hnew : d.graph.hasEdge e.id = false := by
      rw [← Bool.not_eq_true]
      exact hfree
    refine ⟨fun htaken => absurd htaken hfree, fun _ => ⟨rfl, ?_⟩⟩
    have hlinked := linked_connect (e := e) hd.2.toLinked hcheck hnew
    exact ⟨Graph.nodes_vacate _ _, hd.2.edges_replace e,
      hd.2.lookup_replace hlinked.toIndexed, ⟨rfl, rfl, rfl, hnames⟩, told_announce _ _⟩

theorem readRef_eq_ok_iff {role : String} {v : Json} {ref : PortRef} :
    Store.readRef role v = .ok ref ↔ PortRef.read .modelType v = .ok ref := by
  rw [Store.readRef]
  cases PortRef.read .modelType v <;> simp

/-- A connection is made just if both references can be read and the edge
between them is admitted. -/
theorem Sound.connect_iff (hd : d.Sound) (hid : id.IsTextId) (source target : Json) :
    ((∃ name, (d.connect source target id).1 = .ok name) ↔
      ∃ s t, PortRef.read .modelType source = .ok s ∧ PortRef.read .modelType target = .ok t ∧
        d.Admits ⟨d.nameFor id, s, t⟩) ∧
    ∀ name, (d.connect source target id).1 = .ok name →
      ∃ s t, PortRef.read .modelType source = .ok s ∧ PortRef.read .modelType target = .ok t ∧
        name = d.nameFor id ∧ d.Connects (d.connect source target id).2 ⟨name, s, t⟩ := by
  rw [connect]
  cases hgiven : d.store.checkGiven source target with
  | error refusal =>
      refine ⟨⟨fun hmade => ?_, ?_⟩, fun name hok => by cases hok⟩
      · obtain ⟨name, hok⟩ := hmade
        cases hok
      · rintro ⟨s, t, hs, ht, hadmits⟩
        obtain ⟨hcheck, _⟩ := (hd.admits_iff _).mpr hadmits
        have hpassed : d.store.checkGiven source target = .ok (s, t) :=
          checkGiven_eq_ok_iff.mpr ⟨readRef_eq_ok_iff.mpr hs, readRef_eq_ok_iff.mpr ht, hcheck⟩
        rw [hgiven] at hpassed
        cases hpassed
  | ok ends =>
      obtain ⟨hs, ht, hcheck⟩ := checkGiven_eq_ok_iff.mp hgiven
      rw [readRef_eq_ok_iff] at hs ht
      obtain ⟨htaken, hfree⟩ := hd.wire_connects hid hcheck
      cases hnew : d.graph.hasEdge (d.nameFor id) with
      | true =>
          obtain ⟨fault, hfault⟩ := htaken hnew
          refine ⟨⟨fun hmade => ?_, ?_⟩, fun name hok => ?_⟩
          · obtain ⟨name, hok⟩ := hmade
            rw [hfault] at hok
            cases hok
          · rintro ⟨s, t, _, _, hadmits⟩
            rw [((hd.admits_iff _).mpr hadmits).2] at hnew
            cases hnew
          · rw [hfault] at hok
            cases hok
      | false =>
          obtain ⟨hok, hconnects⟩ := hfree hnew
          refine ⟨⟨fun _ => ?_, fun _ => ⟨_, hok⟩⟩, fun name hname => ?_⟩
          · exact ⟨_, _, hs, ht, (hd.admits_iff _).mp ⟨hcheck, hnew⟩⟩
          · rw [hok] at hname
            cases hname
            exact ⟨_, _, hs, ht, rfl, hconnects⟩

theorem canConnect_iff {s : Store α} {source target : Json} :
    s.canConnect source target = true ↔ ∃ ends, s.checkGiven source target = .ok ends := by
  rw [Store.canConnect]
  cases s.checkGiven source target with
  | error refusal => exact ⟨nofun, nofun⟩
  | ok ends => exact ⟨fun _ => ⟨ends, rfl⟩, fun _ => rfl⟩

/-- Where the next id is not in use, the question whether two ports can be connected is answered as
a connection would go. -/
theorem Sound.canConnect_iff_connect (hd : d.Sound)
    (hfresh : ∀ f ∈ d.graph.edges, f.id ≠ d.journal.draw.1) (source target : Json) :
    d.store.canConnect source target = true ↔
      ∃ name, (d.connect source target .null).1 = .ok name := by
  have hnew : d.graph.hasEdge (d.nameFor .null) = false :=
    (d.graph.hasEdge_eq_false_iff _).mpr hfresh
  rw [canConnect_iff, (hd.connect_iff (.inl rfl) source target).1]
  constructor
  · rintro ⟨ends, hgiven⟩
    obtain ⟨hs, ht, hcheck⟩ := checkGiven_eq_ok_iff.mp hgiven
    exact ⟨ends.1, ends.2, readRef_eq_ok_iff.mp hs, readRef_eq_ok_iff.mp ht,
      (hd.admits_iff _).mp ⟨hcheck, hnew⟩⟩
  · rintro ⟨s, t, hs, ht, hadmits⟩
    exact ⟨(s, t), checkGiven_eq_ok_iff.mpr ⟨readRef_eq_ok_iff.mpr hs, readRef_eq_ok_iff.mpr ht,
      ((hd.admits_iff _).mpr hadmits).1⟩⟩

/-- At every store that is reached from an empty one, whatever is given for the two ports and under
every id that is a text or left out: a connection is made just if both references can be read and
the edge between them is admitted. It then exchanges the edge at the target for the new one and
changes nothing else. Ready references count as their documents. Whether two ports can be connected
is answered as a connection under a fresh id would go. -/
theorem connect_exact (catalog : Catalog) (journal : Journal Double) (turns : List Turn)
    (source target id : Json) (hid : id.IsTextId) :
    let d := turns.foldl Desk.play (fresh catalog journal)
    ((∃ name, (d.connect source target id).1 = .ok name) ↔
      ∃ s t, PortRef.read .modelType source = .ok s ∧ PortRef.read .modelType target = .ok t ∧
        d.Admits ⟨d.nameFor id, s, t⟩) ∧
    (∀ name, (d.connect source target id).1 = .ok name →
      ∃ s t, PortRef.read .modelType source = .ok s ∧ PortRef.read .modelType target = .ok t ∧
        name = d.nameFor id ∧ d.Connects (d.connect source target id).2 ⟨name, s, t⟩) ∧
    (∀ s t : PortRef, d.connectRefs s t id = d.connect s.toDocument t.toDocument id) ∧
    ((∀ f ∈ d.graph.edges, f.id ≠ d.journal.draw.1) →
      (d.store.canConnect source target = true ↔
        ∃ name, (d.connect source target .null).1 = .ok name)) := by
  intro d
  have hd : d.Sound := (Sound.fresh catalog journal).foldl_play turns
  obtain ⟨hmade, hchanged⟩ := hd.connect_iff hid source target
  refine ⟨hmade, hchanged, fun s t => ?_, fun hfresh => hd.canConnect_iff_connect hfresh _ _⟩
  exact (connect_of_readRef (readRef_toDocument _ s) (readRef_toDocument _ t) d).symm

/-- A constant that feeds a conjunction, which feeds another, takes the place of the first
conjunction at the input of the second. A connection back from the second to the first is not made,
although it would take the place of the edge that is there. -/
theorem connect_exact_replaced :
    let turns : List Turn := [
      .edit (.addNode (.str "Constant") (.pair (.int 0) (.int 0))
        (.obj [("valueType", .str "boolean"), ("value", .bool true)]) .null false),
      .edit (.addNode (.str "Logic") (.pair (.int 0) (.int 0)) .null .null false),
      .edit (.addNode (.str "Logic") (.pair (.int 0) (.int 0)) .null .null false),
      .edit (.connectRefs ⟨"n1", 0⟩ ⟨"n2", 0⟩ .null),
      .edit (.connectRefs ⟨"n2", 0⟩ ⟨"n3", 0⟩ .null)]
    let d := turns.foldl Desk.play (fresh .attendance ⟨.counting, []⟩)
    let source : PortRef := ⟨"n1", 0⟩
    let target : PortRef := ⟨"n3", 0⟩
    let e : Edge := ⟨"n6", source, target⟩
    let back : Edge := ⟨"n6", ⟨"n3", 0⟩, ⟨"n2", 0⟩⟩
    d.graph.edges.map (·.id) = ["n4", "n5"] ∧ d.Admits e ∧
    d.Connects (d.connect source.toDocument target.toDocument .null).2 e ∧
    (d.graph.edgesWith e).map (·.id) = ["n4", "n6"] ∧ ¬ d.Admits back := by
  intro turns d source target e back
  have hfresh : ∀ f ∈ d.graph.edges, f.id ≠ d.journal.draw.1 := by decide +kernel
  have hname : d.nameFor .null = e.id := by decide +kernel
  have hread : ∀ ref : PortRef, PortRef.read .modelType ref.toDocument = .ok ref :=
    read_toDocument .modelType
  obtain ⟨hadmitted, hconnected, _, hcan⟩ := connect_exact .attendance ⟨.counting, []⟩ turns
    source.toDocument target.toDocument .null (.inl rfl)
  obtain ⟨hback, _, _, hcannot⟩ := connect_exact .attendance ⟨.counting, []⟩ turns
    back.source.toDocument back.target.toDocument .null (.inl rfl)
  obtain ⟨name, hmade⟩ := (hcan hfresh).mp (by decide +kernel)
  refine ⟨by decide +kernel, ?_, ?_, by decide +kernel, fun hadmits => ?_⟩
  · obtain ⟨s, t, hs, ht, hadmits⟩ := hadmitted.mp ⟨name, hmade⟩
    cases (hread source).symm.trans hs
    cases (hread target).symm.trans ht
    rw [show turns.foldl Desk.play (fresh .attendance ⟨.counting, []⟩) = d from rfl, hname]
      at hadmits
    exact hadmits
  · obtain ⟨s, t, hs, ht, hid, hconnects⟩ := hconnected name hmade
    cases (hread source).symm.trans hs
    cases (hread target).symm.trans ht
    rw [show name = e.id from hid.trans hname] at hconnects
    exact hconnects
  · have hadmits : d.Admits ⟨d.nameFor .null, back.source, back.target⟩ := hname ▸ hadmits
    have hyes := (hcannot hfresh).mpr (hback.mpr ⟨_, _, hread _, hread _, hadmits⟩)
    have hno : d.store.canConnect back.source.toDocument back.target.toDocument = false := by
      decide +kernel
    rw [hno] at hyes
    cases hyes

end Desk

end RuleCanvas
