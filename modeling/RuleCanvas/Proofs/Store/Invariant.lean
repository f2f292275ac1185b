import RuleCanvas.Proofs.Graph.Wired
import RuleCanvas.Proofs.Store.Step

/-! # Steps keep the wiring

The check of a connection lets through just the edges that a well wired graph has room for, and
a change of a payload cuts the edges that lose their type. So a store whose connections are
checked for cycles stays well wired through every chain of steps, and a store that does not
check for them stays linked.
-/

namespace RuleCanvas

open Relation

variable {α : Type} {c : Catalog}

namespace Store

/-- The check lets a connection through only if both ends exist, lie on different nodes and have
types that fit, and the target does not lead to the source where that is looked at. -/
theorem suits_of_check {s : Store α} {source target : PortRef} {types : ValueType × ValueType}
    (hcheck : s.check source target = .ok types) :
    ∃ p q, s.graph.payload? source.node = some p ∧ s.graph.payload? target.node = some q ∧
      p.Suits s.catalog source.port q.kind target.port ∧ source.node ≠ target.node ∧
      (s.guarded = true → ¬ ReflTransGen s.graph.Feeds target.node source.node) := by
  -- Each split is one refusal of the check; only the last branch answers.
  unfold check at hcheck
  split at hcheck
  next sourceNode targetNode hsource htarget =>
    split at hcheck
    · cases hcheck
    next sourceType hsourceType =>
      split at hcheck
      · cases hcheck
      next hlt =>
        split at hcheck
        · cases hcheck
        next targetType htargetType =>
          split at hcheck
          · cases hcheck
          next hother =>
            split at hcheck
            · cases hcheck
            next hfit =>
              split at hcheck
              · cases hcheck
              next hopen =>
                refine ⟨sourceNode.payload, targetNode.payload, Graph.payload?_of_node? hsource,
                  Graph.payload?_of_node? htarget, ⟨Nat.not_le.mp hlt, sourceType, targetType,
                    hsourceType, htargetType, by simpa using hfit⟩, hother, ?_⟩
                intro hguarded hpath
                apply hopen
                rw [hguarded, Bool.true_and, Graph.closesCycle, Graph.reaches_iff]
                exact hpath
  · cases hcheck

/-- Such a connection is let through. -/
theorem check_of_suits {s : Store α} {source target : PortRef} {p q : Payload}
    (hsource : s.graph.payload? source.node = some p)
    (htarget : s.graph.payload? target.node = some q)
    (hsuits : p.Suits s.catalog source.port q.kind target.port) (hother : source.node ≠ target.node)
    (hopen : ¬ ReflTransGen s.graph.Feeds target.node source.node) :
    ∃ types, s.check source target = .ok types := by
  obtain ⟨sourceNode, hsourceNode, rfl⟩ := Option.map_eq_some_iff.mp hsource
  obtain ⟨targetNode, htargetNode, rfl⟩ := Option.map_eq_some_iff.mp htarget
  obtain ⟨hlt, sourceType, targetType, hsourceType, htargetType, hfit⟩ := hsuits
  have hcycle : s.graph.closesCycle source.node target.node = false := by
    rw [← Bool.not_eq_true, Graph.closesCycle, Graph.reaches_iff]
    exact hopen
  refine ⟨(sourceType, targetType), ?_⟩
  rw [check, hsourceNode, htargetNode]
  dsimp only
  rw [hsourceType]
  dsimp only
  rw [if_neg (show ¬ sourceNode.kind.outputCount ≤ source.port from Nat.not_le.mpr hlt),
    show targetNode.kind.inputType? target.port = _ from htargetType]
  dsimp only
  rw [if_neg hother, hfit, hcycle, Bool.and_false]
  rfl

end Store

namespace Desk

variable {d d' : Desk α}

/-! ## Connections -/

/-- An edge that passes the check takes the place of the one at its input. -/
theorem linked_connect (hd : d.graph.Linked d.catalog) {e : Edge}
    {types : ValueType × ValueType} (hcheck : d.store.check e.source e.target = .ok types)
    (hnew : d.graph.hasEdge e.id = false) :
    ((d.graph.vacate e.target).insertEdge e).Linked d.catalog := by
  obtain ⟨p, q, hp, hq, hsuits, _⟩ := Store.suits_of_check hcheck
  have hpayload : ∀ id, (d.graph.vacate e.target).payload? id = d.graph.payload? id :=
    Graph.payload?_congr (Graph.nodes_vacate _ _)
  have hmem := hd.mem_edges_vacate e.target
  apply (hd.vacate e.target).insertEdge
  · intro f hf
    exact (d.graph.hasEdge_eq_false_iff e.id).mp hnew f ((hmem f).mp hf).1
  · intro f hf
    exact ((hmem f).mp hf).2
  · exact ⟨p, q, (hpayload _).trans hp, (hpayload _).trans hq, hsuits⟩

/-- Where cycles are looked for, it closes none. -/
theorem acyclic_connect (hacyclic : d.graph.Acyclic) (hguarded : d.store.guarded = true) {e : Edge}
    {types : ValueType × ValueType} (hcheck : d.store.check e.source e.target = .ok types) :
    ((d.graph.vacate e.target).insertEdge e).Acyclic := by
  obtain ⟨_, _, _, _, _, _, hback⟩ := Store.suits_of_check hcheck
  have hkept : ∀ f ∈ (d.graph.vacate e.target).edges, f ∈ d.graph.edges := fun _ =>
    Graph.mem_edges_of_vacate
  refine (hacyclic.mono hkept).insertEdge fun hpath => hback hguarded ?_
  refine ReflTransGen.mono ?_ _ _ hpath
  rintro source target ⟨f, hf, hends⟩
  exact ⟨f, hkept f hf, hends⟩

/-! ## Payloads -/

/-- What is left of the wiring at a node whose payload is exchanged for one of the same kind: edges
from other nodes fit as before, and the node's own edges still end at typed inputs. -/
theorem fits_setNode {g : Graph α} (hg : g.Linked c) {n : Node α} {old : Payload}
    (hold : g.payload? n.id = some old) (hkind : n.payload.kind = old.kind) {e : Edge}
    (he : e ∈ g.edges) :
    (e.source.node ≠ n.id → (g.setNode n).Fits c e) ∧
      (e.source.node = n.id → e.source.port = 0 ∧ ∃ q sourceType targetType,
        (g.setNode n).payload? e.target.node = some q ∧ old.outputType? c 0 = some sourceType ∧
        q.kind.inputType? e.target.port = some targetType ∧
        ValueType.compatible sourceType targetType = true) := by
  obtain ⟨p, q, hp, hq, hlt, sourceType, targetType, hsource, htarget, hcompatible⟩ := hg.fits e he
  have hend : ∃ q', (g.setNode n).payload? e.target.node = some q' ∧ q'.kind = q.kind := by
    rw [Graph.payload?_setNode]
    split
    next h =>
      rw [h.1, hold] at hq
      cases hq
      exact ⟨n.payload, rfl, hkind⟩
    next => exact ⟨q, hq, rfl⟩
  obtain ⟨q', hq', hsame⟩ := hend
  rw [← hsame] at htarget
  constructor
  · intro hother
    refine ⟨p, q', ?_, hq', hlt, sourceType, targetType, hsource, htarget, hcompatible⟩
    rw [Graph.payload?_setNode, if_neg fun h => hother h.1]
    exact hp
  · intro hown
    rw [hown, hold] at hp
    cases hp
    have hport : e.source.port = 0 := by
      have := old.kind.outputCount_le_one
      omega
    rw [hport] at hsource
    exact ⟨hport, q', sourceType, targetType, hq', hsource, htarget, hcompatible⟩

/-- What cutting misfits starts from: an indexed graph in which every edge fits or is listed. The
edges listed leave one output of a node with the given payload and end at typed inputs. -/
structure Cuttable (c : Catalog) (d : Desk α) (n : Node α) (payload : Payload) (l : List Edge) :
    Prop where
  indexed : d.graph.Indexed
  node : d.graph.payload? n.id = some payload
  fits : ∀ e ∈ d.graph.edges, d.graph.Fits c e ∨ e ∈ l
  sole : ∀ e ∈ l, ∀ f ∈ d.graph.edges, f.id = e.id → f = e
  source : ∀ e ∈ l, e.source = ⟨n.id, 0⟩
  target : ∀ e ∈ l, ∃ q targetType, d.graph.payload? e.target.node = some q ∧
    q.kind.inputType? e.target.port = some targetType

namespace Cuttable

variable {n : Node α} {payload : Payload} {type : ValueType} {e : Edge} {l : List Edge}

theorem exists_expected (h : Cuttable c d n payload l) (he : e ∈ l) :
    ∃ expected, ((d.graph.node? e.target.node).bind fun n =>
      n.kind.inputType? e.target.port) = some expected := by
  obtain ⟨q, expected, hq, htarget⟩ := h.target e he
  obtain ⟨m, hm, rfl⟩ := Option.map_eq_some_iff.mp hq
  refine ⟨expected, ?_⟩
  rw [hm]
  exact htarget

/-- Whether a listed edge fits is a matter of the type of the one output. -/
theorem fits_iff (h : Cuttable c d n payload l) (htype : payload.outputType? c 0 = some type)
    (he : e ∈ l) {expected : ValueType}
    (hexpected : ((d.graph.node? e.target.node).bind fun n =>
      n.kind.inputType? e.target.port) = some expected) :
    d.graph.Fits c e ↔ ValueType.compatible type expected = true := by
  obtain ⟨m, hm, htarget⟩ := Option.bind_eq_some_iff.mp hexpected
  have hnode := h.node
  have hsource := h.source e he
  constructor
  · rintro ⟨p, q, hp, hq, _, sourceType, targetType, hsourceType, htargetType, hcompatible⟩
    rw [hsource, hnode] at hp
    rw [Graph.payload?_of_node? hm] at hq
    cases hp
    cases hq
    rw [hsource, htype] at hsourceType
    rw [show m.payload.kind.inputType? e.target.port = some expected from htarget] at htargetType
    cases hsourceType
    cases htargetType
    exact hcompatible
  · intro hcompatible
    have hout : 0 < payload.kind.outputCount := by
      rw [← payload.outputType?_isSome_iff c, htype]
      rfl
    rw [Graph.Fits, hsource]
    exact ⟨payload, m.payload, hnode, Graph.payload?_of_node? hm, hout, type, expected, htype,
      htarget, hcompatible⟩

/-- An edge that fits need not be listed. -/
theorem skip (h : Cuttable c d n payload (e :: l)) (hfits : d.graph.Fits c e) :
    Cuttable c d n payload l where
  indexed := h.indexed
  node := h.node
  fits := by
    intro f hf
    rcases h.fits f hf with hfit | hmem
    · exact .inl hfit
    · rcases List.mem_cons.mp hmem with rfl | hmem
      · exact .inl hfits
      · exact .inr hmem
  sole f hf := h.sole f (List.mem_cons_of_mem _ hf)
  source f hf := h.source f (List.mem_cons_of_mem _ hf)
  target f hf := h.target f (List.mem_cons_of_mem _ hf)

/-- An edge that was dropped need not be listed. -/
theorem drop (h : Cuttable c d n payload (e :: l)) (hgraph : d'.graph = d.graph.dropEdge e) :
    Cuttable c d' n payload l := by
  have hpayload : ∀ id, d'.graph.payload? id = d.graph.payload? id := by
    intro id
    rw [hgraph, Graph.payload?_congr (Graph.nodes_dropEdge _ _)]
  have hedges : ∀ f, f ∈ d'.graph.edges ↔ f ∈ d.graph.edges ∧ f.id ≠ e.id := by
    intro f
    rw [hgraph, Graph.mem_edges_dropEdge]
  refine ⟨?_, (hpayload _).trans h.node, fun f hf => ?_, fun f hf k hk => ?_,
    fun f hf => h.source f (List.mem_cons_of_mem _ hf), fun f hf => ?_⟩
  · rw [hgraph]
    exact h.indexed.dropEdge (h.sole e List.mem_cons_self)
  · obtain ⟨hf, hid⟩ := (hedges f).mp hf
    rcases h.fits f hf with hfit | hmem
    · exact .inl (hfit.congr (hpayload _) (hpayload _))
    · rcases List.mem_cons.mp hmem with rfl | hmem
      · exact absurd rfl hid
      · exact .inr hmem
  · exact h.sole f (List.mem_cons_of_mem _ hf) k ((hedges k).mp hk).1
  · rw [hpayload]
    exact h.target f (List.mem_cons_of_mem _ hf)

end Cuttable

/-- Cutting the misfits among a node's edges leaves edges that fit, if all others do. -/
theorem linked_cutMisfits {n : Node α} {payload : Payload} {type : ValueType}
    (htype : payload.outputType? c 0 = some type) {l : List Edge}
    (hcuttable : Cuttable c d n payload l) : (cutMisfits n type l d).graph.Linked c := by
  -- Only the edges that were not looked at yet may still have the wrong type.
  induction l generalizing d with
  | nil =>
      exact ⟨hcuttable.indexed, fun e he => (hcuttable.fits e he).resolve_right List.not_mem_nil⟩
  | cons e rest ih =>
      obtain ⟨expected, hexpected⟩ := hcuttable.exists_expected List.mem_cons_self
      have hfits := hcuttable.fits_iff htype List.mem_cons_self hexpected
      rw [cutMisfits, hexpected]
      dsimp only
      split
      next hcompatible => exact ih (hcuttable.skip (hfits.mpr hcompatible))
      next => exact ih (hcuttable.drop rfl)

theorem mem_edges_of_cutMisfits {n : Node α} {type : ValueType} {l : List Edge} {e : Edge}
    (he : e ∈ (cutMisfits n type l d).graph.edges) : e ∈ d.graph.edges := by
  induction l generalizing d with
  | nil => exact he
  | cons f rest ih =>
      rw [cutMisfits] at he
      split at he
      · split at he
        · exact ih he
        · exact ((d.graph.mem_edges_dropEdge f e).mp (ih he)).1
      · exact ih he

theorem mem_edges_of_writePayload {n : Node α} {payload : Payload} {e : Edge}
    (he : e ∈ (d.writePayload n payload).graph.edges) : e ∈ d.graph.edges := by
  rcases d.writePayload_cases n payload with hwrite | ⟨type, _, hwrite⟩
  · rw [hwrite] at he
    exact he
  · rw [hwrite] at he
    have hkept := mem_edges_of_cutMisfits he
    exact hkept

/-- What a change of a payload leaves to be cut: edges at the node's own output. -/
theorem cuttable_setNode (hd : d.graph.Linked d.catalog) {n : Node α} {payload : Payload}
    (hnode : d.graph.node? n.id = some n) (hkind : payload.kind = n.kind) :
    Cuttable d.catalog (d.setGraph (d.graph.setNode { n with payload })) n payload
      ((d.setGraph (d.graph.setNode { n with payload })).graph.outgoing n.id) := by
  have hold : d.graph.payload? n.id = some n.payload := Graph.payload?_of_node? hnode
  have hcases := fun e he => fits_setNode (n := { n with payload }) hd hold hkind (e := e) he
  have hindexed := hd.toIndexed.setNode { n with payload }
  have hown : ∀ e ∈ (d.graph.setNode { n with payload }).outgoing n.id,
      e ∈ d.graph.edges ∧ e.source.node = n.id := by
    intro e he
    obtain ⟨he, hown⟩ := List.mem_filter.mp he
    exact ⟨he, by simpa using hown⟩
  refine ⟨hindexed, ?_, fun e he => ?_, fun e he => ?_, fun e he => ?_, fun e he => ?_⟩
  · change (d.graph.setNode { n with payload }).payload? n.id = some payload
    rw [Graph.payload?_setNode, if_pos ⟨rfl, Graph.hasNode_of_payload? hold⟩]
  · by_cases hsource : e.source.node = n.id
    · exact .inr (List.mem_filter.mpr ⟨he, by simpa using hsource⟩)
    · exact .inl ((hcases e he).1 hsource)
  · exact hindexed.eq_of_mem_of_id (hown e he).1
  · obtain ⟨he, hsource⟩ := hown e he
    rw [← hsource, ← ((hcases e he).2 hsource).1]
  · obtain ⟨he, hsource⟩ := hown e he
    obtain ⟨_, q, _, targetType, hq, _, htarget, _⟩ := (hcases e he).2 hsource
    exact ⟨q, targetType, hq, htarget⟩

theorem linked_writePayload (hd : d.graph.Linked d.catalog) {n : Node α} {payload : Payload}
    (hnode : d.graph.node? n.id = some n) (hkind : payload.kind = n.kind) :
    (d.writePayload n payload).graph.Linked d.catalog := by
  have hold : d.graph.payload? n.id = some n.payload := Graph.payload?_of_node? hnode
  have hcases := fun e he => fits_setNode (n := { n with payload }) hd hold hkind (e := e) he
  have hindexed := hd.toIndexed.setNode { n with payload }
  have hnew : (d.graph.setNode { n with payload }).payload? n.id = some payload := by
    rw [Graph.payload?_setNode, if_pos ⟨rfl, Graph.hasNode_of_payload? hold⟩]
  rw [writePayload]
  -- The kind stays, so there is a type before and after, or at neither time.
  cases hafter : payload.outputType? d.catalog 0 with
  | none =>
      have hbefore : n.payload.outputType? d.catalog 0 = none := by
        rw [← Option.not_isSome_iff_eq_none, Payload.outputType?_isSome_iff] at hafter ⊢
        rwa [hkind] at hafter
      rw [hbefore]
      refine ⟨hindexed, fun e he => (hcases e he).1 fun hown => ?_⟩
      obtain ⟨_, _, _, _, _, htype, _⟩ := (hcases e he).2 hown
      rw [hbefore] at htype
      cases htype
  | some new =>
      cases hbefore : n.payload.outputType? d.catalog 0 with
      | none =>
          rw [← Option.not_isSome_iff_eq_none, Payload.outputType?_isSome_iff] at hbefore
          have hsome := (payload.outputType?_isSome_iff d.catalog).mp (by rw [hafter]; rfl)
          rw [hkind] at hsome
          exact absurd hsome hbefore
      | some old =>
          dsimp only
          split
          next hsame =>
            refine ⟨hindexed, fun e he => ?_⟩
            by_cases hown : e.source.node = n.id
            · obtain ⟨hport, q, sourceType, targetType, hq, hsource, htarget, hcompatible⟩ :=
                (hcases e he).2 hown
              rw [hbefore, ← hsame, ← hafter] at hsource
              refine ⟨payload, q, ?_, hq, ?_, sourceType, targetType, ?_, htarget, hcompatible⟩
              · rw [hown]
                exact hnew
              · rw [hport, ← payload.outputType?_isSome_iff d.catalog, hafter]
                rfl
              · rw [hport, hsource]
            · exact (hcases e he).1 hown
          next => exact linked_cutMisfits hafter (cuttable_setNode hd hnode hkind)

/-! ## Steps -/

/-- A step leaves edges that fit, whether cycles are looked for or not. -/
theorem Step.linked {silent : Prop} (hstep : Step silent d d') (hd : d.graph.Linked d.catalog) :
    d'.graph.Linked d'.catalog := by
  rw [hstep.settings.catalog]
  cases hstep with
  | log => exact hd
  | count => exact hd
  | draw => exact hd
  | addNode n hnew => exact hd.addNode hnew
  | removeNode id => exact hd.removeNode id
  | moveNode n p hnode =>
      have hsame : d.graph.payload? n.id = some n.payload := Graph.payload?_of_node? hnode
      exact hd.moveNode hsame
  | writePayload n payload hnode hkind => exact linked_writePayload hd hnode hkind
  | wire e _ types hcheck hnew => exact linked_connect hd hcheck hnew
  | dropEdge e hedge => exact hd.dropEdge (hd.eq_of_mem_of_id hedge)
  | vacate target => exact hd.vacate target
  | clear => exact .empty _

/-- A step of a guarded store closes no cycle: it takes edges away, or adds one
that passed the check. -/
theorem Step.acyclic {silent : Prop} (hstep : Step silent d d') (hguarded : d.store.guarded = true)
    (hd : d.graph.Acyclic) : d'.graph.Acyclic := by
  cases hstep with
  | log | count | draw => exact hd
  | addNode | moveNode => exact hd.mono fun _ he => he
  | removeNode id => exact hd.mono fun e he => ((Graph.mem_edges_foldl_dropEdge _ _ e).mp he).1
  | writePayload n payload => exact hd.mono fun _ => mem_edges_of_writePayload
  | wire e _ types hcheck => exact acyclic_connect hd hguarded hcheck
  | dropEdge e => exact hd.mono fun f hf => ((d.graph.mem_edges_dropEdge e f).mp hf).1
  | vacate target => exact hd.mono fun _ => Graph.mem_edges_of_vacate
  | clear => exact .empty

/-- A guarded store with a well wired graph. -/
def Sound (d : Desk α) : Prop := d.store.guarded = true ∧ d.graph.Wired d.catalog

theorem Sound.fresh (catalog : Catalog) (journal : Journal α) :
    (Desk.fresh catalog journal).Sound :=
  ⟨rfl, .empty catalog⟩

theorem Step.sound {silent : Prop} (hstep : Step silent d d') (hd : d.Sound) : d'.Sound := by
  obtain ⟨hguarded, hwired⟩ := hd
  exact ⟨hstep.settings.guarded.trans hguarded,
    (hstep.linked hwired.toLinked).wired (hstep.acyclic hguarded hwired.acyclic)⟩

theorem Steps.sound {silent : Prop} (hsteps : Steps silent d d') (hd : d.Sound) : d'.Sound :=
  hsteps.keep (fun _ _ hstep => hstep.sound) hd

end Desk

end RuleCanvas
