import RuleCanvas.Proofs.Store.Known

/-! # Changing a payload

A change of a payload merges the given fields into those that are there. The outcome is read as a
whole, so a given field is taken as it is or the change is refused; the one field that is made up is
the value of a constant whose type is changed without one. Of the edges, just those at the node's
output are dropped whose inputs do not take the new type. Whether the type is compared with the old
one first makes no difference, as all edges fit the old one.
-/

namespace RuleCanvas

/-! ## Merging fields -/

/-- The given value of a field. The type of a constant has two names; the first counts
where both are given. -/
def NodeKind.given? (kind : NodeKind) (given : Json.Members) (name : String) : Option Json :=
  if kind = .constant then
    if name = "valueType" then (Json.find? "value_type" given).or (Json.find? "valueType" given)
    else if name = "value_type" then none
    else Json.find? name given
  else Json.find? name given

namespace Payload

/-- A constant is given another type and no value. -/
def Resets (old : Payload) (given : Json.Members) (type : Json) : Prop :=
  ∃ l, old = .constant l ∧ NodeKind.constant.given? given "valueType" = some type ∧
    type.text? ≠ some l.type.name ∧ NodeKind.constant.given? given "value" = none

/-- The payload that comes of another by given fields. Its fields are those that are given, which
name fields of its kind, and else those that were there; but a constant of another type without a
value has the value that stands for the type. A key that is given has to be known. -/
structure Merges (c : Catalog) (old : Payload) (given : Json.Members) (new : Payload) : Prop where
  kind : new.kind = old.kind
  taken : ∀ name v, old.kind.given? given name = some v →
    (name = "kind" ∧ v.text? = some old.kind.name) ∨ Json.find? name new.fields = some v
  kept : ∀ name, old.kind.given? given name = none →
    (name = "value" → ∀ type, ¬ old.Resets given type) →
    Json.find? name new.fields = Json.find? name old.fields
  reset : ∀ type, old.Resets given type →
    ∃ t l, type = .str t.name ∧ Literal.default? t = some l ∧ new = .constant l
  known : ∀ key v, old.kind = .var → old.kind.given? given "key" = some v → new = .var key →
    c.contains key = true

/-- A constant is its value. -/
theorem eq_constant_of_value {p : Payload} {l : Literal} (hkind : p.kind = .constant)
    (hvalue : Json.find? "value" p.fields = some l.toJson) : p = .constant l := by
  cases p with
  | constant l' => rw [Literal.toJson_injective (Option.some_inj.mp hvalue : l'.toJson = l.toJson)]
  | logic | compare | var | choice | result => cases hkind

end Payload

namespace Desk

variable {α : Type} {c : Catalog} {given : Json.Members} {name : String}

/-- Both names of the type of a constant end up as one. -/
theorem find?_useFieldNames (kind : NodeKind) (given : Json.Members) (name : String) :
    Json.find? name (useFieldNames kind given) = kind.given? given name := by
  cases kind with
  | constant =>
      rw [NodeKind.given?, if_pos rfl]
      unfold useFieldNames
      cases hfirst : Json.find? "value_type" given with
      | none =>
          dsimp only
          by_cases htype : name = "valueType"
          · rw [if_pos htype, htype, Option.none_or]
          · rw [if_neg htype]
            split
            next halias => rw [halias, hfirst]
            next => rfl
      | some v =>
          dsimp only
          rw [Json.find?_put, Json.find?_remove]
          by_cases htype : name = "valueType"
          · rw [if_pos htype.symm, if_pos htype, Option.some_or]
          · rw [if_neg (Ne.symm htype), if_neg htype]
            simp only [eq_comm]
  | logic | compare | var | choice | result => rfl

theorem nodup_useFieldNames (hnames : (given.map (·.1)).Nodup) (kind : NodeKind) :
    ((useFieldNames kind given).map (·.1)).Nodup := by
  unfold useFieldNames
  split
  next => exact Json.nodup_put (Json.nodup_remove hnames _) _ _
  next => exact hnames

/-- The fields to merge are those that are given, and the default value of a new type. -/
theorem completeFields_cases {p : Payload} {fields : Json.Members}
    (hcomplete : completeFields p (useFieldNames p.kind given) = .ok fields) :
    ((∀ type, ¬ p.Resets given type) ∧ fields = useFieldNames p.kind given) ∨
      ∃ t l, p.Resets given (.str t.name) ∧ Literal.default? t = some l ∧
        fields = Json.put "value" l.toJson (useFieldNames p.kind given) := by
  have htype := find?_useFieldNames p.kind given "valueType"
  have hvalue := find?_useFieldNames p.kind given "value"
  unfold completeFields at hcomplete
  split at hcomplete
  next l type hgiven hmissing =>
    split at hcomplete
    next hsame =>
      cases hcomplete
      refine .inl ⟨fun type' hresets => ?_, rfl⟩
      obtain ⟨l', hl, hgiven', hother, _⟩ := hresets
      cases hl
      rw [hgiven] at htype
      cases htype.trans hgiven'
      exact hother hsame
    next hother =>
      obtain ⟨v, hdefault, rfl⟩ := exists_of_map_eq_ok hcomplete
      refine .inr ?_
      unfold defaultValue at hdefault
      split at hdefault
      next => cases hdefault
      next t ht =>
        split at hdefault
        next l' hl' =>
          cases hdefault
          obtain ⟨s, hs, hname⟩ := Option.bind_eq_some_iff.mp ht
          have hstr : type = .str t.name := by
            rw [ValueType.name_of_ofName? hname]
            cases type <;> cases hs
            rfl
          subst hstr
          exact ⟨t, l', ⟨l, rfl, htype.symm.trans hgiven, hother, hvalue.symm.trans hmissing⟩, hl',
            rfl⟩
        next => cases hdefault
  next hnot =>
    cases hcomplete
    refine .inl ⟨fun type hresets => ?_, rfl⟩
    obtain ⟨l, rfl, hgiven, _, hmissing⟩ := hresets
    exact hnot l type rfl (htype.trans hgiven) (hvalue.trans hmissing)

/-- The fields to merge hold what is given, and beside it only the value of a
constant that is reset. -/
theorem find?_completeFields {p : Payload} {fields : Json.Members}
    (hcomplete : completeFields p (useFieldNames p.kind given) = .ok fields)
    (hreset : name = "value" → ∀ type, ¬ p.Resets given type) :
    Json.find? name fields = p.kind.given? given name := by
  rw [← find?_useFieldNames]
  rcases completeFields_cases hcomplete with ⟨_, rfl⟩ | ⟨t, l, hresets, _, rfl⟩
  · rfl
  · exact Json.find?_put_of_ne (fun hname => hreset hname.symm _ hresets) _ _

/-- A payload that is read of merged fields is the merge. -/
theorem merges_of_vet (hnames : (given.map (·.1)).Nodup) {p : Payload} {fields : Json.Members}
    (hkind : ∀ k, p.kind.given? given "kind" = some k → k.text? = some p.kind.name)
    (hcomplete : completeFields p (useFieldNames p.kind given) = .ok fields) {vetted : Store.Vetted}
    (hvet : Store.vet c p.kind (Json.putAll p.fields fields)
      (p.kind == .var && (Json.find? "key" fields).isNone) = .ok vetted) :
    p.Merges c given vetted.payload := by
  have hnodup : (fields.map (·.1)).Nodup := by
    have hgiven := nodup_useFieldNames hnames p.kind
    rcases completeFields_cases hcomplete with ⟨_, rfl⟩ | ⟨_, _, _, _, rfl⟩
    · exact hgiven
    · exact Json.nodup_put hgiven _ _
  obtain ⟨htaken, hkept⟩ := Payload.fields_of_merge hnodup (read_of_vet hvet)
  have hgiven : ∀ name v, p.kind.given? given name = some v → Json.find? name fields = some v := by
    intro name v hv
    rw [find?_completeFields hcomplete, hv]
    rintro rfl type ⟨l, rfl, _, _, hmissing⟩
    rw [show (Payload.constant l).kind.given? given "value" = none from hmissing] at hv
    cases hv
  refine ⟨kind_of_vet hvet, fun name v hv => ?_, fun name hnone hreset => ?_,
    fun type hresets => ?_, fun key v hvar hv hkey => ?_⟩
  · rcases htaken name v (hgiven name v hv) with rfl | hfound
    · exact .inl ⟨rfl, hkind v hv⟩
    · exact .inr hfound
  · exact hkept name ((find?_completeFields hcomplete hreset).trans hnone)
  · rcases completeFields_cases hcomplete with ⟨hnever, _⟩ | ⟨t, l, hresets', hdefault, rfl⟩
    · exact absurd hresets (hnever type)
    · obtain ⟨_, _, htype, _⟩ := hresets
      obtain ⟨l₁, rfl, htype', _⟩ := hresets'
      refine ⟨t, l, Option.some_inj.mp (htype.symm.trans htype'), hdefault, ?_⟩
      have hvalue := htaken "value" l.toJson (by rw [Json.find?_put, if_pos rfl])
      exact Payload.eq_constant_of_value (kind_of_vet hvet) (hvalue.resolve_left (by decide))
  · have hstrict : (p.kind == .var && (Json.find? "key" fields).isNone) = false := by
      rw [hgiven "key" v hv, Option.isNone_some, Bool.and_false]
    rw [hstrict] at hvet
    exact contains_of_vet hvet hkey

end Desk

/-! ## The edges at an output -/

namespace Graph

variable {α : Type} {g h : Graph α}

/-- The type of the input that a reference names. -/
def inputTypeAt? (g : Graph α) (port : PortRef) : Option ValueType :=
  (g.payload? port.node).bind fun p => p.kind.inputType? port.port

/-- The input at the end of an edge takes values of a type. -/
def takes (g : Graph α) (e : Edge) (type : ValueType) : Bool :=
  (g.inputTypeAt? e.target).any (ValueType.compatible type)

theorem takes_congr (hnodes : h.nodes = g.nodes) (e : Edge) (type : ValueType) :
    h.takes e type = g.takes e type := by
  rw [takes, takes, inputTypeAt?, inputTypeAt?, payload?_congr hnodes]

/-- The inputs of a node follow from its kind, which a new payload keeps. -/
theorem takes_setNode {n : Node α} {payload : Payload} (hnode : g.node? n.id = some n)
    (hkind : payload.kind = n.kind) (e : Edge) (type : ValueType) :
    (g.setNode { n with payload }).takes e type = g.takes e type := by
  rw [takes, takes, inputTypeAt?, inputTypeAt?, payload?_setNode]
  split
  next hown =>
    rw [hown.1, payload?_of_node? hnode, Option.bind_some, Option.bind_some, hkind]
    rfl
  next => rfl

/-- A node that is put in its own place changes nothing. -/
theorem setNode_self (hnodup : (g.nodes.map (·.id)).Nodup) {n : Node α}
    (hnode : g.node? n.id = some n) : g.setNode n = g := by
  have hnodes : (g.setNode n).nodes = g.nodes := by
    rw [setNode]
    conv_rhs => rw [← List.map_id g.nodes]
    apply List.map_congr_left
    intro m hm
    split
    next hid =>
      exact List.inj_on_of_nodup_map hnodup (mem_of_node?_eq_some hnode) hm
        (by simpa using hid : m.id = n.id).symm
    next => rfl
  exact congrArg (fun nodes => ({ g with nodes } : Graph α)) hnodes

end Graph

namespace Desk

variable {α : Type} {c : Catalog} {d : Desk α} {n : Node α} {payload : Payload} {type : ValueType}

/-- Of the listed edges, those are cut whose inputs do not take the type. -/
theorem Cuttable.edges_cutMisfits (htype : payload.outputType? c 0 = some type) {l : List Edge}
    (h : Cuttable c d n payload l) :
    (cutMisfits n type l d).graph.edges =
      d.graph.edges.filter fun e => e ∉ l ∨ d.graph.takes e type := by
  induction l generalizing d with
  | nil => simp [cutMisfits]
  | cons e rest ih =>
      obtain ⟨expected, hexpected⟩ := h.exists_expected List.mem_cons_self
      have htakes : d.graph.takes e type = ValueType.compatible type expected := by
        have hinput : d.graph.inputTypeAt? e.target = some expected := by
          rw [← hexpected, Graph.inputTypeAt?, Graph.payload?, Option.bind_map]
          rfl
        rw [Graph.takes, hinput, Option.any_some]
      rw [cutMisfits, hexpected]
      dsimp only
      split
      next hcompatible =>
        have hfits := (h.fits_iff htype List.mem_cons_self hexpected).mpr hcompatible
        rw [ih (h.skip hfits)]
        refine List.filter_congr fun f _ => ?_
        by_cases hf : f = e
        · simp [hf, htakes, hcompatible]
        · simp [hf]
      next hmisfit =>
        generalize hcut : (d.setGraph (d.graph.dropEdge e)).log _ = cut
        have hgraph : (cut.announce (.edgeRemoved e.id)).graph = d.graph.dropEdge e := by
          rw [← hcut]
          rfl
        rw [ih (h.drop hgraph), hgraph]
        change (d.graph.edges.filter fun f => f.id != e.id).filter _ = _
        rw [List.filter_filter]
        refine List.filter_congr fun f hf => ?_
        rw [Graph.takes_congr (Graph.nodes_dropEdge _ _)]
        by_cases hfe : f = e
        · simp [hfe, htakes, hmisfit]
        · have hid : f.id ≠ e.id := fun hid => hfe (h.sole e List.mem_cons_self f hf hid)
          simp [hfe, hid]

/-- The edges that leave a node after its payload was written have inputs that take its type. -/
theorem takes_of_writePayload (hd : d.graph.Wired d.catalog) (hnode : d.graph.node? n.id = some n)
    (hkind : payload.kind = n.kind) {e : Edge} (he : e ∈ (d.writePayload n payload).graph.edges)
    (hown : e.source.node = n.id) :
    (payload.outputType? d.catalog e.source.port).any (d.graph.takes e) = true := by
  have hnodes := nodes_writePayload d n payload
  obtain ⟨p, q, hp, hq, _, sourceType, targetType, hsource, htarget, hcompatible⟩ :=
    (linked_writePayload hd.toLinked hnode hkind).fits e he
  rw [Graph.payload?_congr hnodes, hown, Graph.payload?_setNode,
    if_pos ⟨rfl, Graph.hasNode_of_payload? (Graph.payload?_of_node? hnode)⟩] at hp
  obtain rfl := Option.some_inj.mp hp
  rw [hsource, Option.any_some, ← Graph.takes_setNode hnode hkind, ← Graph.takes_congr hnodes,
    Graph.takes, Graph.inputTypeAt?, hq, Option.bind_some, htarget, Option.any_some]
  exact hcompatible

/-- A change of a payload leaves the edges that do not leave the node, and those whose inputs take
the type that its output has then. -/
theorem edges_writePayload (hd : d.graph.Wired d.catalog) (hnode : d.graph.node? n.id = some n)
    (hkind : payload.kind = n.kind) :
    (d.writePayload n payload).graph.edges = d.graph.edges.filter fun e =>
      e.source.node != n.id ||
        (payload.outputType? d.catalog e.source.port).any (d.graph.takes e) := by
  have htakes := fun e => takes_of_writePayload (e := e) hd hnode hkind
  rcases d.writePayload_cases n payload with hwrite | ⟨type, hafter, hwrite⟩
  · -- Nothing was cut, so all edges fit as they are.
    rw [hwrite] at htakes ⊢
    refine (List.filter_eq_self.mpr fun e he => ?_).symm
    by_cases hown : e.source.node = n.id
    · rw [htakes e he hown, Bool.or_true]
    · simp [hown]
  · rw [hwrite]
    have hcut := cuttable_setNode hd.toLinked hnode hkind
    refine (hcut.edges_cutMisfits hafter).trans (List.filter_congr fun e he => ?_)
    by_cases hown : e.source.node = n.id
    · have hlisted : e ∈ (d.setGraph (d.graph.setNode { n with payload })).graph.outgoing n.id :=
        List.mem_filter.mpr ⟨he, by simpa using hown⟩
      have hport : e.source.port = 0 := congrArg PortRef.port (hcut.source e hlisted)
      have hsame := Graph.takes_setNode hnode hkind e type
      rw [hport, hafter, Option.any_some, ← hsame]
      simp [hlisted, hown]
      rfl
    · have hunlisted :
          e ∉ (d.setGraph (d.graph.setNode { n with payload })).graph.outgoing n.id := by
        intro hmem
        exact hown (by simpa using (List.mem_filter.mp hmem).2)
      simp [hunlisted, hown]

/-! ## Updates -/

/-- What a change of a payload comes to: the node has the merge for its payload, the other nodes
stay, and of the edges those that do not leave the node or whose inputs take its new type. -/
structure Updates (d d' : Desk α) (n : Node α) (given : Json.Members) (updated : Node α) :
    Prop where
  merges : n.payload.Merges d.catalog given updated.payload
  node : updated = { n with payload := updated.payload }
  nodes : d'.graph.nodes = d.graph.nodes.map fun m => if m.id = n.id then updated else m
  edges : d'.graph.edges = d.graph.edges.filter fun e => e.source.node != n.id ||
    (updated.payload.outputType? d.catalog e.source.port).any (d.graph.takes e)
  entering : ∀ e ∈ d.graph.edges, e.target.node = n.id → e ∈ d'.graph.edges
  settings : d.SameSettings d'

/-- A change that succeeds has read the merged fields and written what they are. -/
theorem updatePayload_eq_done {id : Json} {given : Json.Members}
    (hfound : d.graph.findNode id = .ok n)
    {updated : Node α} (hok : (d.updatePayload id (.obj given)).1 = .ok updated) :
    ∃ fields vetted,
      (∀ k, n.kind.given? given "kind" = some k → k.text? = some n.kind.name) ∧
      completeFields n.payload (useFieldNames n.kind given) = .ok fields ∧
      Store.vet d.catalog n.kind (Json.putAll n.payload.fields fields)
        (n.kind == .var && (Json.find? "key" fields).isNone) = .ok vetted ∧
      d.updatePayload id (.obj given) =
        ((d.logOptional vetted.warning).writePayload n vetted.payload).done
          { n with payload := vetted.payload } := by
  rw [updatePayload, hfound] at hok ⊢
  dsimp only [partialFields, Store.vetNamed] at hok ⊢
  rw [find?_useFieldNames] at hok ⊢
  split at hok
  next => cases hok
  next hkind =>
    split at hok
    next => cases hok
    next fields hcomplete =>
      split at hok
      next => cases hok
      next vetted hvet =>
        refine ⟨fields, vetted, fun k hk => ?_, hcomplete, hvet, ?_⟩
        · rw [hk] at hkind
          simpa using hkind
        · rw [if_neg hkind]

theorem updatePayload_updates (hd : d.graph.Wired d.catalog) {id : Json} {given : Json.Members}
    (hfound : d.graph.findNode id = .ok n) (hnames : (given.map (·.1)).Nodup) {updated : Node α}
    (hok : (d.updatePayload id (.obj given)).1 = .ok updated) :
    d.Updates (d.updatePayload id (.obj given)).2 n given updated := by
  have hsettings : d.SameSettings (d.updatePayload id (.obj given)).2 :=
    Steps.settings (d.updatePayload_steps id (.obj given) : Steps False d _)
  obtain ⟨fields, vetted, hkind, hcomplete, hvet, hdone⟩ := updatePayload_eq_done hfound hok
  rw [hdone] at hok hsettings ⊢
  cases hok
  have hsame : vetted.payload.kind = n.kind := kind_of_vet hvet
  have hstore := d.logOptional_store vetted.warning
  generalize d.logOptional vetted.warning = logged at hsettings hstore ⊢
  have hgraph : logged.graph = d.graph := congrArg Store.graph hstore
  have hcatalog : logged.catalog = d.catalog := congrArg Store.catalog hstore
  have hwired : logged.graph.Wired logged.catalog := by rwa [hgraph, hcatalog]
  have hnode : logged.graph.node? n.id = some n := by rw [hgraph, node?_of_findNode hfound]
  have hedges := edges_writePayload hwired hnode hsame
  rw [hgraph, hcatalog] at hedges
  refine ⟨merges_of_vet hnames hkind hcomplete hvet, rfl, ?_, hedges, fun e he hentering => ?_,
    hsettings⟩
  · change (logged.writePayload n vetted.payload).graph.nodes = _
    rw [nodes_writePayload, hgraph, Graph.setNode]
    simp only [beq_iff_eq]
  · change e ∈ (logged.writePayload n vetted.payload).graph.edges
    rw [hedges, List.mem_filter]
    refine ⟨he, ?_⟩
    have hother : e.source.node ≠ n.id := by
      intro hleaving
      exact hd.acyclic.not_feeds_self n.id ⟨e, he, hleaving, hentering⟩
    simp [hother]

theorem writePayload_self (hnodup : (d.graph.nodes.map (·.id)).Nodup)
    (hnode : d.graph.node? n.id = some n) :
    d.writePayload n n.payload = d.announce (.payloadUpdated n.id) := by
  have hself : d.setGraph (d.graph.setNode { n with payload := n.payload }) = d := by
    rw [show ({ n with payload := n.payload } : Node α) = n from rfl,
      Graph.setNode_self hnodup hnode]
    rfl
  rw [writePayload, hself]
  cases n.payload.outputType? d.catalog 0 with
  | none => rfl
  | some type =>
      dsimp only
      rw [if_pos rfl]

/-- Without given fields a payload stays as it is, a variable even under a key that is unknown. -/
theorem updatePayload_nothing (hnodup : (d.graph.nodes.map (·.id)).Nodup) {id : Json}
    (hfound : d.graph.findNode id = .ok n) :
    (d.updatePayload id (.obj [])).1 = .ok n ∧
      (d.updatePayload id (.obj [])).2.store = d.store := by
  have huse : useFieldNames n.kind [] = [] := by
    unfold useFieldNames
    split
    next hfirst => cases hfirst
    next => rfl
  have hcomplete : completeFields n.payload [] = .ok [] := by
    unfold completeFields
    split
    next hgiven _ => cases hgiven
    next => rfl
  obtain ⟨warning, haccept⟩ : ∃ warning, Store.accept d.catalog n.payload
      (n.kind == .var && (Json.find? "key" []).isNone) = .ok ⟨n.payload, warning⟩ := by
    refine accept_of_known fun key hkey => .inr ?_
    rw [Node.kind, hkey]
    rfl
  have hvet : Store.vet d.catalog n.kind (Json.putAll n.payload.fields [])
      (n.kind == .var && (Json.find? "key" []).isNone) = .ok ⟨n.payload, warning⟩ := by
    have hread : Payload.read n.kind (Json.putAll n.payload.fields []) = .ok n.payload :=
      n.payload.read_fields
    rw [Store.vet, hread]
    exact haccept
  rw [updatePayload, hfound]
  dsimp only [partialFields, Store.vetNamed]
  rw [huse, if_neg (by simp [Json.find?]), hcomplete]
  dsimp only
  rw [hvet]
  refine ⟨rfl, ?_⟩
  change ((d.logOptional warning).writePayload n n.payload).store = d.store
  have hstore := d.logOptional_store warning
  generalize d.logOptional warning = logged at hstore ⊢
  have hgraph : logged.graph = d.graph := congrArg Store.graph hstore
  rw [writePayload_self (hgraph ▸ hnodup) (hgraph ▸ node?_of_findNode hfound)]
  exact hstore

/-- At every store that is reached from an empty one: a change of a payload by nothing answers with
the node and leaves the store as it was. A change by any fields that succeeds, at whatever node,
gives it the merge for its payload, and of the edges takes away just those that leave the node and
end at an input that does not take its new type. -/
theorem payload_edit_exact (catalog : Catalog) (journal : Journal Double) (turns : List Turn)
    (id : Json) :
    let d := turns.foldl Desk.play (fresh catalog journal)
    (∀ n, d.graph.findNode id = .ok n →
      (d.updatePayload id (.obj [])).1 = .ok n ∧ (d.updatePayload id (.obj [])).2.store = d.store) ∧
    ∀ (given : Json.Members) (updated : Node Double), (given.map (·.1)).Nodup →
      (d.updatePayload id (.obj given)).1 = .ok updated →
      ∃ n, d.graph.findNode id = .ok n ∧
        d.Updates (d.updatePayload id (.obj given)).2 n given updated := by
  intro d
  have hwired : d.graph.Wired d.catalog := ((Sound.fresh catalog journal).foldl_play turns).2
  refine ⟨fun n hfound => updatePayload_nothing hwired.nodes_nodup hfound,
    fun given updated hnames hok => ?_⟩
  cases hfound : d.graph.findNode id with
  | error fault =>
      rw [updatePayload, hfound] at hok
      cases hok
  | ok n => exact ⟨n, rfl, updatePayload_updates hwired hfound hnames hok⟩

/-- A boolean constant that feeds a conjunction and a comparison becomes a number without a value.
It is zero then, the conjunction has lost its operand and the comparison has not. -/
theorem payload_edit_exact_retyped :
    let turns : List Turn := [
      .edit (.addNode (.str "Constant") (.pair (.int 0) (.int 0))
        (.obj [("valueType", .str "boolean"), ("value", .bool true)]) .null false),
      .edit (.addNode (.str "Logic") (.pair (.int 0) (.int 0)) .null .null false),
      .edit (.addNode (.str "Compare") (.pair (.int 0) (.int 0)) .null .null false),
      .edit (.connectRefs ⟨"n1", 0⟩ ⟨"n2", 0⟩ .null),
      .edit (.connectRefs ⟨"n1", 0⟩ ⟨"n3", 0⟩ .null)]
    let d := turns.foldl Desk.play (fresh .attendance ⟨.counting, []⟩)
    let given : Json.Members := [("valueType", .str "number")]
    let edited := d.updatePayload (.str "n1") (.obj given)
    ∃ n updated, edited.1 = .ok updated ∧ updated.payload = .constant (.int 0) ∧
      d.Updates edited.2 n given updated ∧ d.graph.edges.map (·.id) = ["n4", "n5"] ∧
      edited.2.graph.edges.map (·.id) = ["n5"] := by
  intro turns d given edited
  have hpayload : edited.1.toOption.map (·.payload) = some (.constant (.int 0)) := by decide +kernel
  cases hresult : edited.1 with
  | error fault =>
      rw [hresult] at hpayload
      cases hpayload
  | ok updated =>
      rw [hresult] at hpayload
      obtain ⟨n, _, hupdates⟩ := (payload_edit_exact .attendance ⟨.counting, []⟩ turns
        (.str "n1")).2 given updated (by decide) hresult
      exact ⟨n, updated, rfl, Option.some_inj.mp hpayload, hupdates, by decide +kernel,
        by decide +kernel⟩

end Desk

end RuleCanvas
