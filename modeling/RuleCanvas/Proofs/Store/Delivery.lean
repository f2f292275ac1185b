import RuleCanvas.Proofs.Store.Heard

/-! # Deliveries

The changes that an operation commits account for all that becomes of the graph, but for an edge
that is given up to a connection which is refused then. Each of them is delivered to every
listener as often as the listener is registered when the operation starts, and in the order in
which they are committed.
-/

namespace RuleCanvas

variable {α : Type}

/-! ## Committed changes -/

namespace Graph

/-- A change with the graph before and after it, of those that are written at once. An edge that
makes room for another, or goes with its node, has no change of its own. -/
inductive Commit : Graph α → Change → Graph α → Prop
  | addNode (g : Graph α) (n : Node α) (hnew : g.hasNode n.id = false) :
      Commit g (.nodeAdded n.id) (g.addNode n)
  | removeNode (g : Graph α) (id : String) : Commit g (.nodeRemoved id) (g.removeNode id)
  | moveNode (g : Graph α) (n : Node α) (p : Point α) (hnode : g.node? n.id = some n) :
      Commit g (.nodeMoved n.id) (g.setNode { n with x := p.x, y := p.y })
  | wire (g : Graph α) (e : Edge) (hnew : g.hasEdge e.id = false) :
      Commit g (.edgeAdded e.id) ((g.vacate e.target).insertEdge e)
  | dropEdge (g : Graph α) (e : Edge) (hedge : e ∈ g.edges) :
      Commit g (.edgeRemoved e.id) (g.dropEdge e)
  | clear (g : Graph α) : Commit g .cleared empty

/-- The changes of cutting edges one after the other, each with the graph that it leaves. -/
def cuts (g : Graph α) : List Edge → List (Change × Graph α)
  | [] => []
  | e :: rest => (.edgeRemoved e.id, g.dropEdge e) :: (g.dropEdge e).cuts rest

/-- How committed changes, each with the graph that it leaves, lead from one graph to another. A new
payload is written before the edges are cut that do not fit it, but told of after them. `silent`
says whether an edge may be given up to a connection that is refused then. -/
inductive Commits (silent : Prop) : Graph α → List (Change × Graph α) → Graph α → Prop
  | none (g : Graph α) : Commits silent g [] g
  | append {g g' g'' : Graph α} {first second : List (Change × Graph α)}
      (hfirst : Commits silent g first g') (hsecond : Commits silent g' second g'') :
      Commits silent g (first ++ second) g''
  | one {g g' : Graph α} {change : Change} (hcommit : Commit g change g') :
      Commits silent g [(change, g')] g'
  | writePayload {g written left : Graph α} (n : Node α) (payload : Payload) (cut : List Edge)
      (hnode : g.node? n.id = some n) (hcut : cut.Sublist (g.outgoing n.id))
      (hwritten : written = g.setNode { n with payload })
      (hleft : left = cut.foldl dropEdge written) :
      Commits silent g (written.cuts cut ++ [(.payloadUpdated n.id, left)]) left
  | vacate (g : Graph α) (target : PortRef) (hsilent : silent) :
      Commits silent g [] (g.vacate target)

/-- Without a committed change a graph is as it was. -/
theorem Commits.eq_of_nil {silent : Prop} {g g' : Graph α} {changes : List (Change × Graph α)}
    (hcommits : Commits silent g changes g') (hsilent : ¬ silent) (hnone : changes = []) :
    g' = g := by
  induction hcommits with
  | none => rfl
  | append _ _ ihfirst ihsecond =>
      obtain ⟨hfirst, hsecond⟩ := List.append_eq_nil_iff.mp hnone
      rw [ihsecond hsecond, ihfirst hfirst]
  | one => cases hnone
  | writePayload => exact absurd hnone (List.append_ne_nil_of_right_ne_nil _ (List.cons_ne_nil _ _))
  | vacate _ _ h => exact absurd h hsilent

end Graph

/-- What a listener was told so far, the earliest first. -/
def Journal.heardBy (j : Journal α) (listener : Listener) : List (Change × Graph α) :=
  (j.told.filter (·.1 = listener)).reverse.map (·.2)

namespace Desk

variable {silent : Prop} {d d' d'' : Desk α} {times : Listener → Nat}

/-- How often a listener is registered with the store. -/
def registered (d : Desk α) (listener : Listener) : Nat := d.store.listeners.count listener

/-- Every change that was committed between two desks was delivered to each listener as many times
as `times` says, in the order of the changes. -/
def Delivers (silent : Prop) (times : Listener → Nat) (d d' : Desk α) : Prop :=
  ∃ changes, Graph.Commits silent d.graph changes d'.graph ∧ ∀ listener,
    d'.journal.heardBy listener =
      d.journal.heardBy listener ++ changes.flatMap (List.replicate (times listener))

namespace Delivers

theorem refl (d : Desk α) : Delivers silent times d d :=
  ⟨[], .none _, fun _ => (List.append_nil _).symm⟩

theorem trans (hfirst : Delivers silent times d d') (hsecond : Delivers silent times d' d'') :
    Delivers silent times d d'' := by
  obtain ⟨first, hfirst, hheard⟩ := hfirst
  obtain ⟨second, hsecond, hheard'⟩ := hsecond
  refine ⟨first ++ second, hfirst.append hsecond, fun listener => ?_⟩
  rw [hheard', hheard, List.append_assoc, List.flatMap_append]

end Delivers

theorem graph_announce (d : Desk α) (change : Change) : (d.announce change).graph = d.graph := rfl

theorem registered_announce (d : Desk α) (change : Change) :
    (d.announce change).registered = d.registered := rfl

theorem registered_congr (hsame : d'.store.listeners = d.store.listeners) :
    d'.registered = d.registered := by
  funext listener
  rw [registered, hsame, registered]

/-- A change is told to a listener as often as it is registered. -/
theorem heardBy_announce (d : Desk α) (change : Change) (listener : Listener) :
    (d.announce change).journal.heardBy listener =
      d.journal.heardBy listener ++ List.replicate (d.registered listener) (change, d.graph) := by
  have htelling : ((d.telling change).filter (·.1 = listener)).reverse.map (·.2) =
      List.replicate (d.registered listener) (change, d.graph) := by
    rw [telling, registered, List.filter_reverse, List.reverse_reverse]
    induction d.store.listeners with
    | nil => rfl
    | cons l rest ih =>
        by_cases hl : l = listener
        · simp [hl, List.replicate_succ, ih]
        · simp [hl, ih]
  rw [Journal.heardBy, told_announce, List.filter_append, List.reverse_append, List.map_append,
    htelling]
  rfl

theorem heardBy_congr (hsame : d'.journal.told = d.journal.told) (listener : Listener) :
    d'.journal.heardBy listener = d.journal.heardBy listener := by
  rw [Journal.heardBy, hsame, Journal.heardBy]

/-- Some of the given edges were cut, one after the other, and each listener was told of every cut
as often as it is registered. -/
def CutsSome (l : List Edge) (d d' : Desk α) : Prop :=
  ∃ cut, cut.Sublist l ∧ d'.graph = cut.foldl Graph.dropEdge d.graph ∧ ∀ listener,
    d'.journal.heardBy listener =
      d.journal.heardBy listener ++
        (d.graph.cuts cut).flatMap (List.replicate (d.registered listener))

namespace CutsSome

variable {e : Edge} {l : List Edge}

theorem refl (d : Desk α) (l : List Edge) : CutsSome l d d :=
  ⟨[], l.nil_sublist, rfl, fun _ => (List.append_nil _).symm⟩

theorem skip (e : Edge) (hrest : CutsSome l d d') : CutsSome (e :: l) d d' := by
  obtain ⟨cut, hcut, hends⟩ := hrest
  exact ⟨cut, hcut.cons e, hends⟩

/-- An edge is cut and announced, and then some of the others. -/
theorem cut (dropped : Desk α) (hgraph : dropped.graph = d.graph.dropEdge e)
    (hlisteners : dropped.store.listeners = d.store.listeners)
    (htold : dropped.journal.told = d.journal.told)
    (hrest : CutsSome l (dropped.announce (.edgeRemoved e.id)) d') : CutsSome (e :: l) d d' := by
  obtain ⟨cut, hcut, hleft, hheard⟩ := hrest
  rw [graph_announce, hgraph] at hleft
  refine ⟨e :: cut, hcut.cons_cons e, hleft, fun listener => ?_⟩
  rw [hheard, heardBy_announce, heardBy_congr htold, registered_announce,
    registered_congr hlisteners, graph_announce, hgraph, List.append_assoc]
  rfl

end CutsSome

theorem cutMisfits_cutsSome (n : Node α) (type : ValueType) (l : List Edge) (d : Desk α) :
    CutsSome l d (cutMisfits n type l d) := by
  induction l generalizing d with
  | nil => exact .refl d []
  | cons e rest ih =>
      rw [cutMisfits]
      dsimp only
      split
      · split
        · exact (ih d).skip e
        · exact .cut ((d.setGraph (d.graph.dropEdge e)).log _) rfl rfl rfl (ih _)
      · exact (ih d).skip e

/-! ## Deliveries of an operation -/

namespace Delivers

/-- Where the graph stays, there is nothing to deliver. -/
theorem untold (hgraph : d'.graph = d.graph) (htold : d'.journal.told = d.journal.told) :
    Delivers silent times d d' :=
  ⟨[], hgraph ▸ .none _, fun listener =>
    (heardBy_congr htold listener).trans (List.append_nil _).symm⟩

/-- A change that is written at once, and then announced. -/
theorem announce {change : Change} (hcommit : Graph.Commit d.graph change d'.graph)
    (htold : d'.journal.told = d.journal.told)
    (hlisteners : d'.store.listeners = d.store.listeners) :
    Delivers silent d.registered d (d'.announce change) := by
  refine ⟨_, .one hcommit, fun listener => ?_⟩
  rw [heardBy_announce, heardBy_congr htold, registered_congr hlisteners, List.flatMap_singleton,
    graph_announce]

end Delivers

theorem writePayload_delivers {n : Node α} {payload : Payload}
    (hnode : d.graph.node? n.id = some n) :
    Delivers silent d.registered d (d.writePayload n payload) := by
  let written := d.setGraph (d.graph.setNode { n with payload })
  obtain ⟨left, hwrite, hsettings, hcuts⟩ : ∃ left, d.writePayload n payload =
      left.announce (.payloadUpdated n.id) ∧ written.SameSettings left ∧
        CutsSome (d.graph.outgoing n.id) written left := by
    rcases d.writePayload_cases n payload with hwrite | ⟨type, _, hwrite⟩
    · exact ⟨written, hwrite, .refl written, .refl written _⟩
    · exact ⟨_, hwrite, cutMisfits_settings n type _ _, cutMisfits_cutsSome n type _ written⟩
  obtain ⟨cut, hcut, hleft, hheard⟩ := hcuts
  rw [hwrite]
  refine ⟨_, .writePayload n payload cut hnode hcut rfl hleft, fun listener => ?_⟩
  rw [heardBy_announce, hheard, registered_congr hsettings.listeners, List.append_assoc,
    List.flatMap_append, List.flatMap_singleton]
  rfl

/-- What one step commits is delivered to every listener as often as it is registered. -/
theorem Step.delivers (hstep : Step silent d d') : Delivers silent d.registered d d' := by
  cases hstep with
  | log | count | draw => exact .untold rfl rfl
  | vacate target hsilent => exact ⟨[], .vacate _ _ hsilent, fun _ => (List.append_nil _).symm⟩
  | addNode n hnew => exact .announce (.addNode _ n hnew) rfl rfl
  | removeNode id => exact .announce (.removeNode _ id) rfl rfl
  | moveNode n p hnode => exact .announce (.moveNode _ n p hnode) rfl rfl
  | writePayload n payload hnode => exact writePayload_delivers hnode
  | wire e measure types _ hnew => exact .announce (.wire _ e hnew) rfl rfl
  | dropEdge e hedge => exact .announce (.dropEdge _ e hedge) rfl rfl
  | clear => exact .announce (.clear _) rfl rfl

theorem Steps.delivers (hsteps : Steps silent d d') : Delivers silent d.registered d d' := by
  induction hsteps with
  | refl => exact .refl d
  | tail hfirst hlast ih =>
      have hsame := registered_congr (Steps.settings hfirst).listeners
      exact ih.trans (hsame ▸ hlast.delivers)

/-- Whatever operation comes next, every change that it commits is delivered to each
listener as many times as `times` says. An edge goes without a change only where an id is
given that is no text. -/
def Serves (d : Desk Double) (times : Listener → Nat) : Prop :=
  ∀ operation : Operation, d.Delivers (¬ operation.TextIds) times (operation.run d).2

theorem serves_registered (d : Desk Double) : d.Serves d.registered :=
  fun operation => Steps.delivers (operation.run_stepwise (not_or_of_imp id) d)

/-- On every graph there is something to do that commits one change: an empty one gets a
node, another is cleared. -/
theorem exists_committing (d : Desk Double) : ∃ operation : Operation, operation.TextIds ∧
    ∃ (written : Desk Double) (change : Change), (operation.run d).2 = written.announce change ∧
      written.journal.told = d.journal.told ∧ written.store.listeners = d.store.listeners ∧
      written.graph ≠ d.graph := by
  obtain ⟨⟨catalog, ⟨nodes, edges, occupants⟩, listeners, guarded⟩, journal⟩ := d
  cases nodes with
  | nil =>
      refine ⟨.addNode (.str "If") (.pair (.int 0) (.int 0)) .null (.str "first") false,
        .inr ⟨"first", rfl⟩, _, _, rfl, rfl, rfl, fun hsame => ?_⟩
      cases congrArg (·.nodes) hsame
  | cons n rest =>
      refine ⟨.clear, trivial, _, _, rfl, rfl, rfl, fun hsame => ?_⟩
      cases congrArg (·.nodes) hsame

/-- No listener is told of every change more often than it is registered. -/
theorem Serves.le_registered {d : Desk Double} {times : Listener → Nat} (h : d.Serves times)
    (listener : Listener) : times listener ≤ d.registered listener := by
  obtain ⟨operation, htext, written, change, hrun, htold, hlisteners, hchanged⟩ :=
    exists_committing d
  obtain ⟨changes, hcommits, hheard⟩ := h operation
  rw [hrun] at hcommits hheard
  have hsome : changes ≠ [] := fun hnone =>
    hchanged (hcommits.eq_of_nil (not_not_intro htext) hnone)
  have hlength := congrArg List.length (hheard listener)
  rw [heardBy_announce, heardBy_congr htold, registered_congr hlisteners] at hlength
  have hsame : d.registered listener = changes.length * times listener := by simpa using hlength
  rw [hsame]
  exact Nat.le_mul_of_pos_left _ (List.length_pos_iff.mpr hsome)

end Desk

end RuleCanvas
