import Mathlib.Logic.Relation
import RuleCanvas.Proofs.Graph.Lookup
import RuleCanvas.Store.Document

/-! # Steps at a desk

Everything that an operation on a store does is a chain of steps: notes in the journal, ids drawn,
and committed changes. A committed change writes the graph and then tells the listeners of it. One
step is silent: a connection under an id that is no text gives up the edge at its input, and is
refused without a word. What all steps keep, every operation keeps.
-/

namespace RuleCanvas

open Relation

variable {α β γ : Type}

/-! ## Operations in sequence -/

section

variable {ε : Type} {x : Except ε β} {f : β → Except ε γ}

theorem bind_eq_ok_iff {c : γ} : x >>= f = .ok c ↔ ∃ b, x = .ok b ∧ f b = .ok c := by
  cases x with
  | ok b => exact ⟨fun hf => ⟨b, rfl, hf⟩, fun ⟨_, hb, hf⟩ => Except.ok.inj hb ▸ hf⟩
  | error e => exact ⟨nofun, nofun⟩

theorem bind_eq_error_iff {e : ε} :
    x >>= f = .error e ↔ x = .error e ∨ ∃ b, x = .ok b ∧ f b = .error e := by
  cases x with
  | ok b =>
      refine ⟨fun hf => .inr ⟨b, rfl, hf⟩, ?_⟩
      rintro (hb | ⟨_, hb, hf⟩)
      · cases hb
      · exact Except.ok.inj hb ▸ hf
  | error e' =>
      refine ⟨fun he => .inl (Except.error.inj he ▸ rfl), ?_⟩
      rintro (he | ⟨_, hb, _⟩)
      · exact Except.error.inj he ▸ rfl
      · cases hb

end

namespace Edit

theorem bind_ok {x : Edit α β} {f : β → Edit α γ} {d d' : Desk α} {b : β}
    (hx : x d = (.ok b, d')) : (x >>= f) d = f b d' := by
  change (x d >>= fun r => ExceptT.bindCont f r.1 r.2) = _
  rw [hx]
  rfl

theorem bind_error {x : Edit α β} {f : β → Edit α γ} {d d' : Desk α} {fault : Fault}
    (hx : x d = (.error fault, d')) : (x >>= f) d = (.error fault, d') := by
  change (x d >>= fun r => ExceptT.bindCont f r.1 r.2) = _
  rw [hx]
  rfl

/-- An operation that leaves a property as it was, whether it succeeds or fails. -/
def Keeps (P : Desk α → Prop) (operation : Edit α β) : Prop := ∀ d, P d → P (operation d).2

variable {P : Desk α → Prop}

theorem Keeps.pure (b : β) : Keeps P (pure b) := fun _ hd => hd

theorem Keeps.bind {x : Edit α β} {f : β → Edit α γ} (hx : x.Keeps P) (hf : ∀ b, (f b).Keeps P) :
    (x >>= f).Keeps P := by
  intro d hd
  have hfirst := hx d hd
  rcases hresult : x d with ⟨result, middle⟩
  rw [hresult] at hfirst
  cases result with
  | error fault =>
      rw [bind_error hresult]
      exact hfirst
  | ok b =>
      rw [bind_ok hresult]
      exact hf b middle hfirst

end Edit

/-- An id that is left out or is a text. -/
def Json.IsTextId (id : Json) : Prop := id = .null ∨ ∃ s, id = .str s

namespace Desk

/-- A name that a node or an edge can get: any but the empty one, or one that
the supply of ids has. -/
def CanName (d : Desk α) (id : String) : Prop := id ≠ "" ∨ ∃ k, d.journal.ids.name k = id

/-- One thing that happens at a desk. `silent` says whether an edge may go without a word. -/
inductive Step (silent : Prop) : Desk α → Desk α → Prop
  | log (d : Desk α) (line : LogLine) : Step silent d (d.log line)
  | count (d : Desk α) (measure : Measure) : Step silent d (d.count measure)
  | draw (d : Desk α) : Step silent d { d with journal := d.journal.draw.2 }
  | addNode (d : Desk α) (n : Node α) (hnew : d.graph.hasNode n.id = false)
      (hname : d.CanName n.id) :
      Step silent d ((d.setGraph (d.graph.addNode n)).announce (.nodeAdded n.id))
  | removeNode (d : Desk α) (id : String) :
      Step silent d ((d.setGraph (d.graph.removeNode id)).announce (.nodeRemoved id))
  | moveNode (d : Desk α) (n : Node α) (p : Point α) (hnode : d.graph.node? n.id = some n) :
      Step silent d
        ((d.setGraph (d.graph.setNode { n with x := p.x, y := p.y })).announce (.nodeMoved n.id))
  | writePayload (d : Desk α) (n : Node α) (payload : Payload)
      (hnode : d.graph.node? n.id = some n) (hkind : payload.kind = n.kind) :
      Step silent d (d.writePayload n payload)
  | wire (d : Desk α) (e : Edge) (measure : Measure) (types : ValueType × ValueType)
      (hcheck : d.store.check e.source e.target = .ok types)
      (hnew : d.graph.hasEdge e.id = false) (hname : d.CanName e.id) :
      Step silent d
        (((d.setGraph ((d.graph.vacate e.target).insertEdge e)).count measure).announce
          (.edgeAdded e.id))
  | dropEdge (d : Desk α) (e : Edge) (hedge : e ∈ d.graph.edges) :
      Step silent d ((d.setGraph (d.graph.dropEdge e)).announce (.edgeRemoved e.id))
  | vacate (d : Desk α) (target : PortRef) (hsilent : silent) :
      Step silent d (d.setGraph (d.graph.vacate target))
  | clear (d : Desk α) : Step silent d d.clear

/-- A chain of steps. -/
abbrev Steps (silent : Prop) : Desk α → Desk α → Prop := ReflTransGen (Step silent)

variable {silent : Prop}

/-- A property that every step keeps is kept by chains of steps. -/
theorem Steps.keep {P : Desk α → Prop} {d d' : Desk α} (hsteps : Steps silent d d')
    (hstep : ∀ d d', Step silent d d' → P d → P d') (hd : P d) : P d' := by
  induction hsteps with
  | refl => exact hd
  | tail _ hlast ih => exact hstep _ _ hlast ih

/-! ## What no step touches -/

/-- Two desks that differ at most in the graph, the journal and the number of ids drawn. -/
structure SameSettings (d d' : Desk α) : Prop where
  catalog : d'.catalog = d.catalog
  listeners : d'.store.listeners = d.store.listeners
  guarded : d'.store.guarded = d.store.guarded
  names : d'.journal.ids.name = d.journal.ids.name

theorem SameSettings.refl (d : Desk α) : SameSettings d d := ⟨rfl, rfl, rfl, rfl⟩

theorem SameSettings.trans {d₁ d₂ d₃ : Desk α} (hfirst : SameSettings d₁ d₂)
    (hsecond : SameSettings d₂ d₃) : SameSettings d₁ d₃ :=
  ⟨hsecond.catalog.trans hfirst.catalog, hsecond.listeners.trans hfirst.listeners,
    hsecond.guarded.trans hfirst.guarded, hsecond.names.trans hfirst.names⟩

theorem cutMisfits_settings (n : Node α) (type : ValueType) (l : List Edge) (d : Desk α) :
    SameSettings d (cutMisfits n type l d) := by
  induction l generalizing d with
  | nil => exact .refl d
  | cons e rest ih =>
      rw [cutMisfits]
      split
      · split
        · exact ih d
        · refine SameSettings.trans ?_ (ih _)
          exact ⟨rfl, rfl, rfl, rfl⟩
      · exact ih d

/-- A payload is written, and then the edges are cut that do not fit the type that it gives. -/
theorem writePayload_cases (d : Desk α) (n : Node α) (payload : Payload) :
    let written := d.setGraph (d.graph.setNode { n with payload })
    d.writePayload n payload = written.announce (.payloadUpdated n.id) ∨
      ∃ type, payload.outputType? d.catalog 0 = some type ∧ d.writePayload n payload =
        (cutMisfits n type (written.graph.outgoing n.id) written).announce
          (.payloadUpdated n.id) := by
  intro written
  rw [writePayload]
  split
  next type _ hafter =>
    split
    · exact .inl rfl
    · exact .inr ⟨type, hafter, rfl⟩
  · exact .inl rfl

/-- The catalog, the listeners, the guard and the names that ids are drawn from stay. -/
theorem Step.settings {d d' : Desk α} (hstep : Step silent d d') : SameSettings d d' := by
  cases hstep with
  | writePayload n payload =>
      rcases d.writePayload_cases n payload with hwrite | ⟨type, _, hwrite⟩
      · rw [hwrite]
        exact ⟨rfl, rfl, rfl, rfl⟩
      · obtain ⟨hcatalog, hlisteners, hguarded, hnames⟩ := cutMisfits_settings n type _ _
        rw [hwrite]
        exact ⟨hcatalog, hlisteners, hguarded, hnames⟩
  | _ => exact ⟨rfl, rfl, rfl, rfl⟩

theorem Steps.settings {d d' : Desk α} (hsteps : Steps silent d d') : SameSettings d d' := by
  induction hsteps with
  | refl => exact .refl d
  | tail _ hlast ih => exact ih.trans hlast.settings

/-! ## Nodes -/

theorem chooseId_given (d : Desk α) {given : Json} (hgiven : given.isTruthy = true) :
    d.chooseId given = (given, d) := by simp [chooseId, Journal.choose, hgiven]

theorem chooseId_missing (d : Desk α) {given : Json} (hmissing : given.isTruthy = false) :
    d.chooseId given = (.str d.journal.draw.1, { d with journal := d.journal.draw.2 }) := by
  simp [chooseId, Journal.choose, hmissing]

/-- Choosing an id draws one or does nothing. -/
theorem chooseId_cases {d chosen : Desk α} {given id : Json}
    (hchoose : d.chooseId given = (id, chosen)) :
    (id = given ∧ chosen = d) ∨
      (id = .str d.journal.draw.1 ∧ chosen = { d with journal := d.journal.draw.2 }) := by
  cases hgiven : given.isTruthy with
  | true =>
      rw [d.chooseId_given hgiven] at hchoose
      cases hchoose
      exact .inl ⟨rfl, rfl⟩
  | false =>
      rw [d.chooseId_missing hgiven] at hchoose
      cases hchoose
      exact .inr ⟨rfl, rfl⟩

/-- A text that is chosen for an id can be a name, as an empty one counts as missing. -/
theorem chooseId_canName {d chosen : Desk α} {given : Json} {id : String}
    (hchoose : d.chooseId given = (.str id, chosen)) : chosen.CanName id := by
  cases hgiven : given.isTruthy with
  | true =>
      rw [d.chooseId_given hgiven] at hchoose
      cases hchoose
      refine .inl ?_
      rintro rfl
      cases hgiven
  | false =>
      rw [d.chooseId_missing hgiven] at hchoose
      cases hchoose
      exact .inr ⟨d.journal.ids.drawn, rfl⟩

theorem chooseId_steps {d chosen : Desk α} {given id : Json}
    (hchoose : d.chooseId given = (id, chosen)) : Steps silent d chosen := by
  rcases chooseId_cases hchoose with ⟨_, rfl⟩ | ⟨_, rfl⟩
  · exact .refl
  · exact .single (.draw d)

theorem chooseId_store {d chosen : Desk α} {given id : Json}
    (hchoose : d.chooseId given = (id, chosen)) : chosen.store = d.store := by
  rcases chooseId_cases hchoose with ⟨_, rfl⟩ | ⟨_, rfl⟩ <;> rfl

theorem logOptional_store (d : Desk α) (line : Option LogLine) :
    (d.logOptional line).store = d.store := by cases line <;> rfl

theorem logOptional_steps (d : Desk α) (line : Option LogLine) :
    Steps silent d (d.logOptional line) := by
  cases line with
  | none => exact .refl
  | some line => exact .single (.log d line)

theorem placeNode_steps (d : Desk α) (payload : Payload) (position : Except Fault (Point α))
    (given : Json) : Steps silent d (d.placeNode payload position given).2 := by
  rw [placeNode]
  rcases hchoose : d.chooseId given with ⟨id, chosen⟩
  have hchosen : Steps silent d chosen := chooseId_steps hchoose
  dsimp only
  split
  · exact hchosen
  · exact hchosen
  next hcontains =>
    split
    · exact hchosen
    next p =>
      split
      next id =>
        have hnew : chosen.graph.hasNode id = false := Except.ok.inj hcontains
        exact hchosen.tail
          (.addNode chosen ⟨id, p.x, p.y, payload⟩ hnew (chooseId_canName hchoose))
      · exact hchosen

theorem addPayload_steps (d : Desk α) (payload : Payload) (position : Except Fault (Point α))
    (id : Json) (lenient : Bool) : Steps silent d (d.addPayload payload position id lenient).2 := by
  rw [addPayload]
  split
  · exact .refl
  · exact (d.logOptional_steps _).trans (placeNode_steps _ _ _ _)

theorem addNodeOfKind_steps (d : Desk α) (kind : NodeKind) (position : Except Fault (Point α))
    (fields : Json.Members) (id : Json) (lenient : Bool) :
    Steps silent d (d.addNodeOfKind kind position fields id lenient).2 := by
  rw [addNodeOfKind]
  split
  · exact .refl
  · exact (d.logOptional_steps _).trans (placeNode_steps _ _ _ _)

theorem addNode_steps (d : Desk α) (kind : Json) (position : Except Fault (Point α))
    (payload id : Json) (lenient : Bool) :
    Steps silent d (d.addNode kind position payload id lenient).2 := by
  rw [addNode]
  split
  · exact .refl
  · split
    · exact .refl
    · exact d.addNodeOfKind_steps _ _ _ _ _

theorem removeNode_steps (d : Desk α) (id : Json) : Steps silent d (d.removeNode id).2 := by
  rw [removeNode]
  split
  · exact .refl
  next n _ => exact .single (.removeNode d n.id)

/-- A node that is found under a given id is the one that its own id names. -/
theorem node?_of_findNode {g : Graph α} {id : Json} {n : Node α} (hfound : g.findNode id = .ok n) :
    g.node? n.id = some n := by
  unfold Graph.findNode at hfound
  split at hfound
  · split at hfound
    next hnode =>
      cases hfound
      rw [show n.id = _ by simpa using List.find?_some hnode]
      exact hnode
    · cases hfound
  · split at hfound <;> cases hfound

/-- A node that is there is found under its id. -/
theorem findNode_of_hasNode {g : Graph α} {id : String} (hnode : g.hasNode id = true) :
    ∃ n, g.findNode (.str id) = .ok n ∧ n.id = id ∧ g.node? id = some n := by
  obtain ⟨n, hn⟩ := Option.isSome_iff_exists.mp hnode
  exact ⟨n, by simp [Graph.findNode, hn], by simpa using List.find?_some hn, hn⟩

theorem moveNode_steps (d : Desk α) (id : Json) (position : Except Fault (Point α)) :
    Steps silent d (d.moveNode id position).2 := by
  rw [moveNode]
  split
  · exact .refl
  next n hfound =>
    split
    · exact .refl
    next p => exact .single (.moveNode d n p (node?_of_findNode hfound))

/-! ## Payloads -/

theorem exists_of_map_eq_ok {ε : Type} {f : β → γ} {x : Except ε β} {c : γ}
    (hmap : x.map f = .ok c) : ∃ b, x = .ok b ∧ f b = c := by
  cases x with
  | error _ => cases hmap
  | ok b => exact ⟨b, rfl, Except.ok.inj hmap⟩

theorem eq_error_of_map {ε : Type} {f : β → γ} {x : Except ε β} {e : ε}
    (hmap : x.map f = .error e) : x = .error e := by
  cases x with
  | error _ => exact congrArg Except.error (Except.error.inj hmap)
  | ok _ => cases hmap

theorem eq_ok_of_within {step : Form.Step} {x : Form.Checked β} {b : β}
    (hwithin : Form.within step x = .ok b) : x = .ok b := by
  cases x with
  | error _ => cases hwithin
  | ok _ => exact hwithin

theorem kind_of_readConstant {fields : Json.Members} {payload : Payload}
    (hread : Payload.readConstant fields = .ok payload) : payload.kind = .constant := by
  unfold Payload.readConstant at hread
  dsimp only at hread
  split at hread
  · cases hread
  · split at hread
    · cases hread
      rfl
    · cases hread

/-- A payload is of the kind that it is read for. -/
theorem kind_of_read {kind : NodeKind} {fields : Json.Members} {payload : Payload}
    (hread : Payload.read kind fields = .ok payload) : payload.kind = kind := by
  replace hread := eq_ok_of_within hread
  cases kind with
  | constant => exact kind_of_readConstant hread
  | _ =>
      obtain ⟨_, _, rfl⟩ := exists_of_map_eq_ok hread
      rfl

theorem payload_of_accept {catalog : Catalog} {payload : Payload} {lenient : Bool}
    {vetted : Store.Vetted} (haccept : Store.accept catalog payload lenient = .ok vetted) :
    vetted.payload = payload := by
  unfold Store.accept at haccept
  split at haccept
  · split at haccept
    · cases haccept
      rfl
    · split at haccept <;> cases haccept
      rfl
  · cases haccept
    rfl

/-- A payload is accepted unless it is a variable that is unknown and not let in. -/
theorem accept_of_known {catalog : Catalog} {payload : Payload} {lenient : Bool}
    (hknown : ∀ key, payload = .var key → catalog.contains key = true ∨ lenient = true) :
    ∃ warning, Store.accept catalog payload lenient = .ok ⟨payload, warning⟩ := by
  unfold Store.accept
  split
  next key =>
    split
    · exact ⟨none, rfl⟩
    next hunknown =>
      rw [if_pos ((hknown key rfl).resolve_left hunknown)]
      exact ⟨_, rfl⟩
  · exact ⟨none, rfl⟩

theorem kind_of_vet {catalog : Catalog} {kind : NodeKind} {fields : Json.Members} {lenient : Bool}
    {vetted : Store.Vetted} (hvet : Store.vet catalog kind fields lenient = .ok vetted) :
    vetted.payload.kind = kind := by
  unfold Store.vet at hvet
  split at hvet
  · cases hvet
  next hread => rw [payload_of_accept hvet, kind_of_read hread]

/-- Fields are right only if all of their names are texts. -/
theorem vet_of_vetNamed {catalog : Catalog} {kind : NodeKind} {fields : Json.Members}
    {misnamed : List Json} {lenient : Bool} {vetted : Store.Vetted}
    (hvet : Store.vetNamed catalog kind fields misnamed lenient = .ok vetted) :
    misnamed = [] ∧ Store.vet catalog kind fields lenient = .ok vetted := by
  cases misnamed with
  | nil => exact ⟨rfl, hvet⟩
  | cons name rest => cases hvet

theorem updatePayload_steps (d : Desk α) (id given : Json) :
    Steps silent d (d.updatePayload id given).2 := by
  rw [updatePayload]
  split
  · exact .refl
  next node hfound =>
    split
    · exact .refl
    · dsimp only
      split
      · exact .refl
      · split
        · exact .refl
        · split
          · exact .refl
          next vetted hvet =>
            obtain ⟨_, hvet⟩ := vet_of_vetNamed hvet
            have hnode := node?_of_findNode hfound
            have hlogged : (d.logOptional vetted.warning).graph.node? node.id = some node := by
              cases vetted.warning <;> exact hnode
            exact (d.logOptional_steps vetted.warning).tail
              (.writePayload _ node vetted.payload hlogged (kind_of_vet hvet))

/-! ## Edges -/

/-- The edge that the check lets through may be wired, under a chosen id. A given id that is no text
costs the edge at the input. -/
theorem wire_steps (d : Desk α) {source target : PortRef} {types : ValueType × ValueType}
    (hcheck : d.store.check source target = .ok types) {given : Json}
    (hgiven : silent ∨ ∀ id chosen, d.chooseId given = (id, chosen) → ∃ s, id = .str s) :
    Steps silent d (d.wire source target given).2 := by
  rw [wire]
  rcases hchoose : d.chooseId given with ⟨id, chosen⟩
  have hchosen : Steps silent d chosen := chooseId_steps hchoose
  dsimp only
  split
  next id =>
    split
    · exact hchosen
    next hnew =>
      rw [← chooseId_store hchoose] at hcheck
      exact hchosen.tail
        (.wire chosen ⟨id, source, target⟩ _ types hcheck (by simpa using hnew)
          (chooseId_canName hchoose))
  next hother =>
    -- The edge at the input is gone by now, and nobody will be told.
    rcases hgiven with hsilent | htext
    · split
      · exact hchosen.tail (.vacate chosen target hsilent)
      · exact hchosen
    · obtain ⟨s, rfl⟩ := htext _ _ hchoose
      exact absurd rfl (hother s)

theorem refuseWire_steps (d : Desk α) (refusal : Refusal) :
    Steps silent d (d.refuseWire refusal : Except Fault β × Desk α).2 := .single (.count d _)

theorem chooseId_isText {d chosen : Desk α} {given id : Json} (htext : given.IsTextId)
    (hchoose : d.chooseId given = (id, chosen)) : ∃ s, id = .str s := by
  rcases htext with rfl | htext
  · rw [d.chooseId_missing rfl] at hchoose
    cases hchoose
    exact ⟨_, rfl⟩
  · rcases chooseId_cases hchoose with ⟨rfl, _⟩ | ⟨rfl, _⟩
    · exact htext
    · exact ⟨_, rfl⟩

theorem connectRefs_steps (d : Desk α) (source target : PortRef) {id : Json}
    (hid : silent ∨ id.IsTextId) : Steps silent d (d.connectRefs source target id).2 := by
  rw [connectRefs]
  split
  · exact d.refuseWire_steps _
  next hcheck =>
    exact d.wire_steps hcheck (hid.imp_right fun htext _ _ => chooseId_isText htext)

theorem nodes_wire (d : Desk α) (source target : PortRef) (id : Json) :
    (d.wire source target id).2.graph.nodes = d.graph.nodes := by
  rw [wire]
  rcases hchoose : d.chooseId id with ⟨chosenId, chosen⟩
  have hchosen : chosen.graph.nodes = d.graph.nodes :=
    congrArg (fun s => s.graph.nodes) (chooseId_store hchoose)
  dsimp only
  repeat' split
  all_goals first
    | exact hchosen
    | exact (chosen.graph.nodes_vacate target).trans hchosen

/-- A connection leaves the nodes as they are, whether it is made or not. -/
theorem nodes_connectRefs (d : Desk α) (source target : PortRef) (id : Json) :
    (d.connectRefs source target id).2.graph.nodes = d.graph.nodes := by
  rw [connectRefs]
  split
  · rfl
  · exact d.nodes_wire source target id

/-- Both ends that are given as documents are read, and then checked. -/
theorem checkGiven_eq_ok_iff {s : Store α} {source target : Json} {ends : PortRef × PortRef} :
    s.checkGiven source target = .ok ends ↔ Store.readRef "from" source = .ok ends.1 ∧
      Store.readRef "to" target = .ok ends.2 ∧ ∃ types, s.check ends.1 ends.2 = .ok types := by
  constructor
  · intro hcheck
    obtain ⟨first, hfirst, hrest⟩ := bind_eq_ok_iff.mp hcheck
    obtain ⟨second, hsecond, hrest⟩ := bind_eq_ok_iff.mp hrest
    obtain ⟨types, htypes, hends⟩ := bind_eq_ok_iff.mp hrest
    cases hends
    exact ⟨hfirst, hsecond, types, htypes⟩
  · rintro ⟨hfirst, hsecond, types, htypes⟩
    exact bind_eq_ok_iff.mpr ⟨_, hfirst, bind_eq_ok_iff.mpr ⟨_, hsecond,
      bind_eq_ok_iff.mpr ⟨types, htypes, rfl⟩⟩⟩

theorem connect_steps (d : Desk α) (source target : Json) {id : Json}
    (hid : silent ∨ id.IsTextId) : Steps silent d (d.connect source target id).2 := by
  rw [connect]
  split
  · exact d.refuseWire_steps _
  next source target hcheck =>
    obtain ⟨_, _, types, hcheck⟩ := checkGiven_eq_ok_iff.mp hcheck
    exact d.wire_steps hcheck (hid.imp_right fun htext _ _ => chooseId_isText htext)

theorem disconnect_steps (d : Desk α) (id : Json) : Steps silent d (d.disconnect id).2 := by
  rw [disconnect]
  split
  · exact .refl
  next e hfound =>
    have hedge : e ∈ d.graph.edges := by
      unfold Graph.findEdge at hfound
      split at hfound
      · split at hfound
        next hedge =>
          cases hfound
          exact List.mem_of_find?_eq_some hedge
        · cases hfound
      · split at hfound <;> cases hfound
    exact .single (.dropEdge d e hedge)

/-! ## Documents -/

/-- An operation that is a chain of steps at every desk. -/
def Stepwise (silent : Prop) (operation : Edit α β) : Prop :=
  ∀ d, Steps silent d (operation d).2

/-- A chain of steps goes on from wherever a chain of steps has led. -/
theorem stepwise_iff_keeps {operation : Edit α β} :
    Stepwise silent operation ↔ ∀ start, operation.Keeps (Steps silent start) :=
  ⟨fun hsteps _ d hd => hd.trans (hsteps d), fun hkeeps d => hkeeps d d .refl⟩

section

variable {P : Desk Double → Prop}

theorem loadAll_keeps {load : Json → Edit Double Unit} (hload : ∀ document, (load document).Keeps P)
    (documents : List Json) : (loadAll load documents).Keeps P := by
  induction documents with
  | nil => exact .pure ()
  | cons document rest ih => exact (hload document).bind fun _ => ih

/-- What the loading of a node and of an edge keep, the loading of a document keeps. -/
theorem load_keeps {lenient : Bool} (hnode : ∀ document, (loadNode lenient document).Keeps P)
    (hedge : ∀ document, (loadEdge document).Keeps P) (document : Json) :
    (load document lenient).Keeps P := by
  intro d hd
  unfold load
  split
  · exact hd
  next nodes _ =>
    have hnodes : P (loadAll (loadNode lenient) nodes d).2 := loadAll_keeps hnode nodes d hd
    rcases hresult : loadAll (loadNode lenient) nodes d with ⟨result, middle⟩
    rw [hresult] at hnodes
    cases result with
    | error fault => exact hnodes
    | ok _ =>
        dsimp only
        split
        · exact hnodes
        next edges _ => exact loadAll_keeps hedge edges middle hnodes

end

theorem loadNode_stepwise (lenient : Bool) (document : Json) :
    Stepwise silent (loadNode lenient document) := by
  intro d
  unfold loadNode
  dsimp only
  split
  · exact .refl
  · exact d.addNode_steps _ _ _ _ _

/-- An edge of a document may come under an id that is no text. -/
theorem loadEdge_stepwise (document : Json) : Stepwise True (loadEdge document) := by
  intro d
  unfold loadEdge
  dsimp only
  split
  · exact .refl
  · exact d.connect_steps _ _ (.inl trivial)

theorem loadAll_stepwise {load : Json → Edit Double Unit}
    (hload : ∀ document, Stepwise silent (load document)) (documents : List Json) :
    Stepwise silent (loadAll load documents) :=
  stepwise_iff_keeps.mpr fun start =>
    loadAll_keeps (fun document => stepwise_iff_keeps.mp (hload document) start) documents

theorem load_stepwise (document : Json) (lenient : Bool) : Stepwise True (load document lenient) :=
  stepwise_iff_keeps.mpr fun start =>
    load_keeps (fun node => stepwise_iff_keeps.mp (loadNode_stepwise lenient node) start)
      (fun edge => stepwise_iff_keeps.mp (loadEdge_stepwise edge) start) document

end Desk

end RuleCanvas
