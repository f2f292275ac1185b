import RuleCanvas.Proofs.Store.Connect

/-! # Connections that are refused for their id

An id that is no text either counts as missing, and the next of the supply takes its place, or is
refused. A list or an object is refused when it is looked for among the ids in use, before anything
is written. `true` and the numbers but zero are looked for in vain, so that the edge at the target
makes room for one that is refused then: it is lost, and no listener is told. No other refused
connection changes the store.
-/

namespace RuleCanvas

variable {α : Type}

/-! ## Vacated inputs -/

/-- After an input is vacated the index has no edge for it, and for the others what it had. -/
theorem Graph.Linked.lookup_vacate {c : Catalog} {g : Graph α} (hg : g.Linked c)
    (target port : PortRef) :
    (g.vacate target).occupants.lookup port =
      if port = target then none else g.occupants.lookup port := by
  have hvacated := (hg.vacate target).toIndexed
  ext id
  rw [hvacated.lookup_eq_some_iff]
  simp only [hg.mem_edges_vacate]
  split
  next hport =>
    refine iff_of_false ?_ nofun
    rintro ⟨e, ⟨_, hother⟩, htarget, _⟩
    exact hother (htarget.trans hport)
  next hport =>
    rw [hg.lookup_eq_some_iff]
    constructor
    · rintro ⟨e, ⟨he, _⟩, hends⟩
      exact ⟨e, he, hends⟩
    · rintro ⟨e, he, rfl, rfl⟩
      exact ⟨e, ⟨he, hport⟩, rfl, rfl⟩

namespace Desk

variable {d d' : Desk α} {source target : PortRef} {id : Json}

/-- What is lost with the edge at an input: that edge and its entry in the index of inputs, without
a word to the listeners. The nodes, the other edges in their order, and all settings stay. -/
structure Evicts (d d' : Desk α) (target : PortRef) : Prop where
  occupied : ∃ e ∈ d.graph.edges, e.target = target
  nodes : d'.graph.nodes = d.graph.nodes
  edges : d'.graph.edges = d.graph.edges.filter fun e => e.target ≠ target
  occupants : ∀ port, d'.graph.occupants.lookup port =
    if port = target then none else d.graph.occupants.lookup port
  settings : d.SameSettings d'
  told : d'.journal.told = d.journal.told

theorem Evicts.graph_ne (h : d.Evicts d' target) : d'.graph ≠ d.graph := by
  obtain ⟨e, he, htarget⟩ := h.occupied
  intro hsame
  rw [← hsame, h.edges] at he
  exact of_decide_eq_true (List.mem_filter.mp he).2 htarget

theorem Evicts.store_ne (h : d.Evicts d' target) : d'.store ≠ d.store :=
  fun hstore => h.graph_ne (congrArg Store.graph hstore)

/-- Vacating an occupied input, and no more. -/
theorem evicts_vacate (hd : d.graph.Linked d.catalog)
    (hoccupied : ∃ e ∈ d.graph.edges, e.target = target) :
    d.Evicts (d.setGraph (d.graph.vacate target)) target :=
  ⟨hoccupied, Graph.nodes_vacate _ _, hd.edges_vacate target, hd.lookup_vacate target,
    ⟨rfl, rfl, rfl, rfl⟩, rfl⟩

/-! ## Ids that are no texts -/

/-- A value that counts as missing is as good as none. -/
theorem wire_of_missing (hmissing : id.isTruthy = false) :
    d.wire source target id = d.wire source target .null := by
  rw [wire, wire, d.chooseId_missing hmissing, d.chooseId_missing rfl]

/-- A value that is no text but can be looked for among the ids is refused once
the input is vacated. -/
theorem wire_of_key (hid : ∀ text, id ≠ .str text) (hgiven : id.isTruthy = true)
    (hkey : id.isKey = true) :
    d.wire source target id =
      (d.setGraph (d.graph.vacate target)).fail (.invalid Form.idIssue) := by
  rw [wire, d.chooseId_given hgiven]
  dsimp only
  split
  next text => exact absurd rfl (hid text)
  next => rw [if_pos hkey]

theorem wire_of_container (hgiven : id.isTruthy = true) (hkey : id.isKey = false) :
    d.wire source target id = d.fail .wrongKind := by
  rw [wire, d.chooseId_given hgiven]
  dsimp only
  split
  next text => cases hkey
  next => rw [if_neg (by simp [hkey])]

/-- A connection that gives up the edge at its target: its ends could be connected, the target is
occupied, and its id is looked for in vain. -/
structure GivesUp (d : Desk α) (source target : PortRef) (id : Json) : Prop where
  given : id.isTruthy = true
  key : id.isKey = true
  fits : ∃ types, d.store.check source target = .ok types
  occupied : ∃ e ∈ d.graph.edges, e.target = target

theorem GivesUp.connectRefs (h : d.GivesUp source target id) (hid : ∀ text, id ≠ .str text)
    (hd : d.graph.Linked d.catalog) :
    (d.connectRefs source target id).1 = .error (.invalid Form.idIssue) ∧
      d.Evicts (d.connectRefs source target id).2 target := by
  obtain ⟨types, hcheck⟩ := h.fits
  rw [Desk.connectRefs, hcheck]
  dsimp only
  rw [wire_of_key hid h.given h.key]
  exact ⟨rfl, evicts_vacate hd h.occupied⟩

/-- Where nothing can be given up, ends that passed the check are connected or
the desk is untouched. -/
theorem wire_untouched (hid : ∀ text, id ≠ .str text) (hd : d.graph.Linked d.catalog)
    (hkept : id.isTruthy = true → id.isKey = true → ∀ e ∈ d.graph.edges, e.target ≠ target)
    {fault : Fault} (hfault : d.wire source target id = (.error fault, d')) : d.Untouched d' := by
  cases hgiven : id.isTruthy with
  | false =>
      rw [wire_of_missing hgiven] at hfault
      exact wire_atomic source target (.inl rfl) hfault
  | true =>
      cases hkey : id.isKey with
      | false =>
          rw [wire_of_container hgiven hkey] at hfault
          cases hfault
          exact .refl d
      | true =>
          have hfree := (hd.incoming?_eq_none_iff target).mpr (hkept hgiven hkey)
          rw [wire_of_key hid hgiven hkey, Graph.vacate_of_free hfree] at hfault
          cases hfault
          exact .refl d

theorem connectRefs_untouched (hid : ∀ text, id ≠ .str text) (hd : d.graph.Linked d.catalog)
    (hkept : ¬ d.GivesUp source target id) {fault : Fault}
    (hfault : d.connectRefs source target id = (.error fault, d')) : d.Untouched d' := by
  rw [connectRefs] at hfault
  split at hfault
  · exact refuseWire_untouched hfault
  next types hcheck =>
    refine wire_untouched hid hd (fun hgiven hkey e he htarget => ?_) hfault
    exact hkept ⟨hgiven, hkey, ⟨types, hcheck⟩, e, he, htarget⟩

/-- At every store that is reached from an empty one, for every two references that can be read, and
under every id that is no text: a connection that ends in a fault leaves the store as it was, unless
it gives up the edge at its target. It does that just if its ends could be connected, the target is
occupied, and the id is `true` or a number other than zero; then that edge is lost, and nothing
else. No listener is told of anything in either case. -/
theorem refused_connection_exact (catalog : Catalog) (journal : Journal Double) (turns : List Turn)
    {source target : Json} {s t : PortRef} (hsource : PortRef.read .modelType source = .ok s)
    (htarget : PortRef.read .modelType target = .ok t) (id : Json) (hid : ∀ text, id ≠ .str text) :
    let d := turns.foldl Desk.play (fresh catalog journal)
    let d' := (d.connect source target id).2
    d.connectRefs s t id = d.connect source target id ∧
    (∀ fault, (d.connect source target id).1 = .error fault →
      (d'.store = d.store ↔ ¬ d.GivesUp s t id) ∧ d'.journal.told = d.journal.told) ∧
    (d.GivesUp s t id → (d.connect source target id).1 = .error (.invalid Form.idIssue) ∧
      d.Evicts d' t) := by
  intro d d'
  have hd : d.graph.Linked d.catalog :=
    linked_foldl_play (d := fresh catalog journal) (.empty catalog) turns
  have hsame : d.connectRefs s t id = d.connect source target id :=
    (connect_of_readRef (readRef_eq_ok_iff.mpr hsource) (readRef_eq_ok_iff.mpr htarget) d).symm
  have hlost : d.GivesUp s t id → (d.connect source target id).1 = .error (.invalid Form.idIssue) ∧
      d.Evicts (d.connect source target id).2 t := by
    rw [← hsame]
    exact fun hgives => hgives.connectRefs hid hd
  refine ⟨hsame, fun fault hfault => ?_, hlost⟩
  by_cases hgives : d.GivesUp s t id
  · obtain ⟨_, hevicts⟩ := hlost hgives
    exact ⟨iff_of_false hevicts.store_ne (not_not_intro hgives), hevicts.told⟩
  · have huntouched : d.Untouched d' :=
      connectRefs_untouched hid hd hgives (hsame.trans (Prod.ext hfault rfl))
    exact ⟨iff_of_true huntouched.store hgives, huntouched.told⟩

/-- A constant feeds both inputs of a conjunction. Connected to the first again under the id `0.5`,
it feeds the second only; under a list as id nothing happens. -/
theorem refused_connection_exact_fan_out :
    let turns : List Turn := [
      .edit (.addNode (.str "Constant") (.pair (.int 0) (.int 0))
        (.obj [("valueType", .str "boolean"), ("value", .bool true)]) .null false),
      .edit (.addNode (.str "Logic") (.pair (.int 0) (.int 0)) .null .null false),
      .edit (.connectRefs ⟨"n1", 0⟩ ⟨"n2", 0⟩ .null),
      .edit (.connectRefs ⟨"n1", 0⟩ ⟨"n2", 1⟩ .null)]
    let d := turns.foldl Desk.play (fresh .attendance ⟨.counting, []⟩)
    let source : PortRef := ⟨"n1", 0⟩
    let target : PortRef := ⟨"n2", 0⟩
    let half : Json := .float (Double.ofDecimal false 5 (-1))
    let connected (id : Json) := d.connect source.toDocument target.toDocument id
    d.GivesUp source target half ∧ d.Evicts (connected half).2 target ∧
    (connected half).2.graph.edges.map (·.id) = ["n4"] ∧
    (connected (.arr [half])).1 = .error .wrongKind ∧
    (connected (.arr [half])).2.store = d.store := by
  intro turns d source target half connected
  have hread (ref : PortRef) : PortRef.read .modelType ref.toDocument = .ok ref :=
    read_toDocument .modelType ref
  have hgives : d.GivesUp source target half := by
    refine ⟨by decide +kernel, rfl, ⟨(.boolean, .boolean), rfl⟩, ⟨"n3", source, target⟩, ?_, rfl⟩
    decide +kernel
  obtain ⟨_, _, hlost⟩ := refused_connection_exact .attendance ⟨.counting, []⟩ turns (hread source)
    (hread target) half nofun
  obtain ⟨_, hkept, _⟩ := refused_connection_exact .attendance ⟨.counting, []⟩ turns (hread source)
    (hread target) (.arr [half]) nofun
  have hrefused : (connected (.arr [half])).1 = .error .wrongKind := rfl
  have hevicts : d.Evicts (connected half).2 target := (hlost hgives).2
  exact ⟨hgives, hevicts, by rw [hevicts.edges]; decide +kernel, hrefused,
    (hkept _ hrefused).1.mpr fun h => absurd h.key (by decide)⟩

/-- A connection that is refused for its id takes the edge at its target with it. -/
theorem refused_id_evicts :
    let turns : List Turn := [
      .edit (.addNode (.str "Constant") (.pair (.int 0) (.int 0))
        (.obj [("valueType", .str "boolean"), ("value", .bool true)]) .null false),
      .edit (.addNode (.str "Logic") (.pair (.int 0) (.int 0)) .null .null false),
      .edit (.connectRefs ⟨"n1", 0⟩ ⟨"n2", 0⟩ .null)]
    let d := turns.foldl Desk.play (fresh .attendance ⟨.counting, []⟩)
    let answer := d.connectRefs ⟨"n1", 0⟩ ⟨"n2", 0⟩ (.int 7)
    answer.1 = .error (.invalid Form.idIssue) ∧
    d.graph.edges = [⟨"n3", ⟨"n1", 0⟩, ⟨"n2", 0⟩⟩] ∧ d.graph.occupants = [(⟨"n2", 0⟩, "n3")] ∧
    answer.2.graph.edges = [] ∧ answer.2.graph.occupants = [] :=
  ⟨rfl, rfl, rfl, rfl, rfl⟩

end Desk

end RuleCanvas
