import RuleCanvas.Proofs.Store.Fields
import RuleCanvas.Proofs.Store.Rebuilt

/-! # Known variables

A key gets into a store as the default of a new node, with the fields of a payload, with a rule or
with a graph document, and each time the catalog is asked for it unless the caller is lenient. An
update that gives no key is lenient by itself, but then the node has the key that it had. So a store
that is only used strictly never holds a variable that its catalog has not.
-/

namespace RuleCanvas

namespace Desk

variable {d d' : Desk Double}

/-- The catalog has every variable of the graph. -/
def Known (d : Desk Double) : Prop := Knows d.catalog d.graph

theorem Known.fresh (catalog : Catalog) (journal : Journal Double) :
    (Desk.fresh catalog journal).Known := nofun

/-- Payloads that were there are known as long as the catalog stays. -/
theorem Known.of_payloads (hd : d.Known) (hcatalog : d'.catalog = d.catalog)
    (hnodes : ∀ n ∈ d'.graph.nodes, ∃ m ∈ d.graph.nodes, m.payload = n.payload) : d'.Known := by
  intro n hn key hkey
  obtain ⟨m, hm, hpayload⟩ := hnodes n hn
  rw [hcatalog]
  exact hd m hm key (hpayload.trans hkey)

theorem Known.of_nodes (hd : d.Known) (hcatalog : d'.catalog = d.catalog)
    (hnodes : d'.graph.nodes = d.graph.nodes) : d'.Known :=
  hd.of_payloads hcatalog fun n hn => ⟨n, hnodes ▸ hn, rfl⟩

theorem Known.of_store (hd : d.Known) (hstore : d'.store = d.store) : d'.Known :=
  hd.of_nodes (congrArg Store.catalog hstore) (congrArg (fun s => s.graph.nodes) hstore)

theorem Known.logOptional (hd : d.Known) (line : Option LogLine) : (d.logOptional line).Known := by
  cases line <;> exact hd

/-! ## Nodes -/

/-- A payload that is accepted without leave is known. -/
theorem contains_of_accept {catalog : Catalog} {payload : Payload} {vetted : Store.Vetted}
    (haccept : Store.accept catalog payload false = .ok vetted) {key : String}
    (hkey : vetted.payload = .var key) : catalog.contains key = true := by
  rw [payload_of_accept haccept] at hkey
  subst hkey
  unfold Store.accept at haccept
  dsimp only at haccept
  split at haccept
  next hknown => exact hknown
  · cases haccept

theorem contains_of_vet {catalog : Catalog} {kind : NodeKind} {fields : Json.Members}
    {vetted : Store.Vetted} (hvet : Store.vet catalog kind fields false = .ok vetted) {key : String}
    (hkey : vetted.payload = .var key) : catalog.contains key = true := by
  unfold Store.vet at hvet
  split at hvet
  · cases hvet
  · exact contains_of_accept hvet hkey

theorem Known.placeNode (hd : d.Known) {payload : Payload}
    (hpayload : ∀ key, payload = .var key → d.catalog.contains key = true)
    (position : Except Fault (Point Double)) (given : Json) :
    (d.placeNode payload position given).2.Known := by
  unfold Desk.placeNode
  rcases hchoose : d.chooseId given with ⟨id, chosen⟩
  have hstore := chooseId_store hchoose
  have hchosen : chosen.Known := hd.of_store hstore
  dsimp only
  repeat' split
  -- Only the last way through puts the node into the graph.
  all_goals try exact hchosen
  intro n hn key hkey
  rcases List.mem_append.mp hn with hn | hn
  · exact hchosen n hn key hkey
  · rw [List.mem_singleton.mp hn] at hkey
    change chosen.store.catalog.contains key = true
    rw [hstore]
    exact hpayload key hkey

theorem Known.addPayload (hd : d.Known) (payload : Payload)
    (position : Except Fault (Point Double)) (id : Json) :
    (d.addPayload payload position id false).2.Known := by
  unfold Desk.addPayload
  split
  · exact hd
  next vetted haccept =>
    refine (hd.logOptional _).placeNode (fun key hkey => ?_) position id
    have hknown := contains_of_accept haccept hkey
    cases vetted.warning <;> exact hknown

theorem Known.addNode (hd : d.Known) (kind : Json) (position : Except Fault (Point Double))
    (payload id : Json) : (d.addNode kind position payload id false).2.Known := by
  unfold Desk.addNode
  split
  · exact hd
  · split
    · exact hd
    · unfold addNodeOfKind
      split
      · exact hd
      next vetted hvet =>
        refine (hd.logOptional _).placeNode (fun key hkey => ?_) position id
        have hknown := contains_of_vet hvet hkey
        cases vetted.warning <;> exact hknown

theorem Known.removeNode (hd : d.Known) (id : Json) : (d.removeNode id).2.Known := by
  unfold Desk.removeNode
  split
  · exact hd
  next n _ =>
    refine hd.of_payloads rfl fun m hm => ⟨m, ?_, rfl⟩
    have hkept : m ∈ ((d.graph.touching n.id).foldl Graph.dropEdge d.graph).nodes :=
      (List.mem_filter.mp hm).1
    rwa [Graph.nodes_foldl_dropEdge] at hkept

theorem Known.setNode (hd : d.Known) {n : Node Double}
    (hpayload : ∀ key, n.payload = .var key → d.catalog.contains key = true) :
    (d.setGraph (d.graph.setNode n)).Known := by
  intro m hm key hkey
  obtain ⟨old, hold, rfl⟩ := List.mem_map.mp hm
  split at hkey
  · exact hpayload key hkey
  · exact hd old hold key hkey

theorem Known.moveNode (hd : d.Known) (id : Json) (position : Except Fault (Point Double)) :
    (d.moveNode id position).2.Known := by
  unfold Desk.moveNode
  split
  · exact hd
  next n hfound =>
    split
    · exact hd
    · have hmem : n ∈ d.graph.nodes := Graph.mem_of_node?_eq_some (node?_of_findNode hfound)
      exact hd.setNode fun key hkey => hd n hmem key hkey

theorem Known.writePayload (hd : d.Known) (n : Node Double) {payload : Payload}
    (hpayload : ∀ key, payload = .var key → d.catalog.contains key = true) :
    (d.writePayload n payload).Known := by
  have hwritten : (d.setGraph (d.graph.setNode { n with payload })).Known := hd.setNode hpayload
  rcases d.writePayload_cases n payload with hwrite | ⟨type, _, hwrite⟩
  · rw [hwrite]
    exact hwritten
  · rw [hwrite]
    exact hwritten.of_nodes (cutMisfits_settings n type _ _).catalog (nodes_cutMisfits n type _ _)

/-! ## Updates -/

/-- Fields that are read as a variable name its key. -/
theorem find?_key_of_read {fields : Json.Members} {key : String}
    (hread : Payload.read .var fields = .ok (.var key)) :
    Json.find? "key" fields = some (.str key) := by
  obtain ⟨⟨k, _⟩, hboth, hk⟩ := exists_of_map_eq_ok (eq_ok_of_within hread)
  cases hk
  exact Form.find?_of_required_string (Form.both_eq_ok_iff.mp hboth).1

theorem read_of_vet {catalog : Catalog} {kind : NodeKind} {fields : Json.Members} {lenient : Bool}
    {vetted : Store.Vetted} (hvet : Store.vet catalog kind fields lenient = .ok vetted) :
    Payload.read kind fields = .ok vetted.payload := by
  unfold Store.vet at hvet
  split at hvet
  · cases hvet
  next hread => rw [payload_of_accept hvet, hread]

/-- A merge of fields without a key leaves the key of a variable. -/
theorem key_of_merge {catalog : Catalog} {payload : Payload} {fields : Json.Members}
    {lenient : Bool} {vetted : Store.Vetted} (hpayload : payload.kind = .var)
    (hvet : Store.vet catalog .var (Json.putAll payload.fields fields) lenient = .ok vetted)
    (hfields : Json.find? "key" fields = none) {key : String}
    (hkey : vetted.payload = .var key) : payload = .var key := by
  cases payload with
  | var old =>
      have hread := read_of_vet hvet
      rw [hkey] at hread
      have hmerged := find?_key_of_read hread
      rw [Json.find?_putAll_of_none hfields] at hmerged
      cases hmerged
      rfl
  | _ => cases hpayload

theorem Known.updatePayload (hd : d.Known) (id given : Json) :
    (d.updatePayload id given).2.Known := by
  unfold Desk.updatePayload
  split
  · exact hd
  next node hfound =>
    have hnode : node ∈ d.graph.nodes := Graph.mem_of_node?_eq_some (node?_of_findNode hfound)
    split
    · exact hd
    · dsimp only
      split
      · exact hd
      · split
        · exact hd
        next fields _ =>
          split
          · exact hd
          next vetted hvet =>
            obtain ⟨_, hvet⟩ := vet_of_vetNamed hvet
            refine (hd.logOptional _).writePayload node fun key hkey => ?_
            have hknown : d.catalog.contains key = true := by
              cases hlenient : node.kind == .var && (Json.find? "key" fields).isNone with
              | false =>
                  rw [hlenient] at hvet
                  exact contains_of_vet hvet hkey
              | true =>
                  rw [Bool.and_eq_true, beq_iff_eq, Option.isNone_iff_eq_none] at hlenient
                  rw [hlenient.1] at hvet
                  exact hd node hnode key (key_of_merge hlenient.1 hvet hlenient.2 hkey)
            cases vetted.warning <;> exact hknown

/-! ## Edges -/

theorem Known.wire (hd : d.Known) (source target : PortRef) (given : Json) :
    (d.wire source target given).2.Known := by
  unfold Desk.wire
  rcases hchoose : d.chooseId given with ⟨id, chosen⟩
  have hchosen : chosen.Known := hd.of_store (chooseId_store hchoose)
  dsimp only
  repeat' split
  all_goals first
    | exact hchosen
    | exact hchosen.of_nodes rfl (chosen.graph.nodes_vacate target)

theorem Known.connectRefs (hd : d.Known) (source target : PortRef) (id : Json) :
    (d.connectRefs source target id).2.Known := by
  unfold Desk.connectRefs
  split
  · exact hd
  · exact hd.wire _ _ _

theorem Known.connect (hd : d.Known) (source target id : Json) :
    (d.connect source target id).2.Known := by
  unfold Desk.connect
  split
  · exact hd
  · exact hd.wire _ _ _

theorem Known.disconnect (hd : d.Known) (id : Json) : (d.disconnect id).2.Known := by
  unfold Desk.disconnect
  split
  · exact hd
  · exact hd.of_nodes rfl rfl

/-! ## Documents -/

theorem Known.loadNode (hd : d.Known) (document : Json) :
    (Desk.loadNode false document d).2.Known := by
  unfold Desk.loadNode
  dsimp only
  split
  · exact hd
  · exact hd.addNode _ _ _ _

theorem Known.loadEdge (hd : d.Known) (document : Json) : (Desk.loadEdge document d).2.Known := by
  unfold Desk.loadEdge
  dsimp only
  split
  · exact hd
  · exact hd.connect _ _ _

/-- A graph document is loaded strictly with known variables only. -/
theorem load_known (document : Json) : (load document false).Keeps Known :=
  load_keeps (fun node _ hd => hd.loadNode node) (fun edge _ hd => hd.loadEdge edge) document

end Desk

/-- An importer that is not lenient places known variables only. -/
theorem Rule.Importer.kept_known {i : Importer Double} (hstrict : i.context.lenient = false) :
    i.Kept Desk.Known where
  count _ _ hd := hd
  log _ _ hd := hd
  clear _ _ := nofun
  make depth y payload d hd := by
    unfold make
    rw [hstrict]
    exact hd.addPayload payload _ _
  wire target feed d hd := by
    rw [wire_desk]
    exact hd.connectRefs _ _ _

end RuleCanvas
