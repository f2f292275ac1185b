import RuleCanvas.Proofs.Store.Step
import RuleCanvas.Store.Document

/-! # What can go wrong in a store

An operation that is given texts for ids, numbers for positions and an object for a payload fails by
a refusal, with one exception: a constant that is to take the default value of a type that has none.
A graph document can hold anything, and each further fault is traced here to the part of the
document that it comes from.
-/

namespace RuleCanvas

variable {α : Type}

/-- An id that counts as given and can be a key, but is no text. -/
def Json.IsOddId (id : Json) : Prop := id.isTruthy = true ∧ id.isKey = true ∧ id.text? = none

/-- An integer beyond the range of coordinates. -/
def Json.IsBeyondRange (v : Json) : Prop := ∃ n, v = .int n ∧ Double.ofInt? n = none

namespace Desk

/-! ## Adding a node -/

/-- Why a node with such arguments cannot be added. -/
inductive NodeFault (position : Except Fault (Point α)) (payload id : Json) : Fault → Prop
  | refused (refusal : Refusal) : NodeFault position payload id (.refused refusal)
  | position {fault : Fault} : position = .error fault → NodeFault position payload id fault
  | payload {fault : Fault} :
      Payload.givenFields payload = .error fault → NodeFault position payload id fault
  | noKey : id.isKey = false → NodeFault position payload id .wrongKind
  | oddId : id.IsOddId → NodeFault position payload id (.invalid Form.idIssue)

theorem containsNode_error {g : Graph α} {id : Json} {fault : Fault}
    (hfault : g.containsNode id = .error fault) : id.isKey = false ∧ fault = .wrongKind := by
  cases id with
  | str _ | null | bool _ | int _ | float _ => cases hfault
  | arr _ | obj _ =>
      cases hfault
      exact ⟨rfl, rfl⟩

theorem containsNode_ok {g : Graph α} {id : Json} {present : Bool}
    (hcontains : g.containsNode id = .ok present) : id.isKey = true := by
  cases id with
  | str _ | null | bool _ | int _ | float _ => rfl
  | arr _ | obj _ => cases hcontains

theorem placeNode_fault {payload : Payload} {position : Except Fault (Point α)} {id : Json}
    {d : Desk α} {fault : Fault} (given : Json)
    (hfault : (d.placeNode payload position id).1 = .error fault) :
    NodeFault position given id fault := by
  rw [placeNode] at hfault
  cases htruthy : id.isTruthy with
  | false =>
      -- The id is drawn, so it is a text.
      rw [d.chooseId_missing htruthy] at hfault
      dsimp only at hfault
      split at hfault
      next hcontains => cases hcontains
      next =>
        cases hfault
        exact .refused _
      next =>
        split at hfault
        · cases hfault
          exact .position rfl
        · cases hfault
  | true =>
      rw [d.chooseId_given htruthy] at hfault
      dsimp only at hfault
      split at hfault
      next hcontains =>
        cases hfault
        obtain ⟨hkey, rfl⟩ := containsNode_error hcontains
        exact .noKey hkey
      next =>
        cases hfault
        exact .refused _
      next hcontains =>
        split at hfault
        · cases hfault
          exact .position rfl
        · split at hfault
          · cases hfault
          next hnotext =>
            cases hfault
            refine .oddId ⟨htruthy, containsNode_ok hcontains, ?_⟩
            cases id with
            | str text => exact (hnotext text rfl).elim
            | _ => rfl

theorem addNode_fault {kind payload id : Json} {position : Except Fault (Point α)} {lenient : Bool}
    {d : Desk α} {fault : Fault}
    (hfault : (d.addNode kind position payload id lenient).1 = .error fault) :
    NodeFault position payload id fault := by
  rw [addNode] at hfault
  split at hfault
  · cases hfault
    exact .refused _
  · split at hfault
    next hgiven =>
      cases hfault
      exact .payload hgiven
    next =>
      rw [addNodeOfKind] at hfault
      split at hfault
      · cases hfault
        exact .refused _
      · exact placeNode_fault payload hfault

/-- A node at a point, with an object for its payload and an id to be drawn. -/
theorem addNode_refused {kind : Json} {point : Point α} {fields : Json.Members} {lenient : Bool}
    {d : Desk α} {fault : Fault}
    (hfault : (d.addNode kind (.ok point) (.obj fields) .null lenient).1 = .error fault) :
    ∃ refusal, fault = .refused refusal := by
  cases addNode_fault hfault with
  | refused refusal => exact ⟨refusal, rfl⟩
  | position hposition => cases hposition
  | payload hpayload => cases hpayload
  | noKey hkey => cases hkey
  | oddId hid => cases hid.1

/-! ## Looking up by a text -/

theorem removeNode_refused {id : String} {d : Desk α} {fault : Fault}
    (hfault : (d.removeNode (.str id)).1 = .error fault) :
    ∃ refusal, fault = .refused refusal := by
  rw [removeNode, Graph.findNode] at hfault
  cases hnode : d.graph.node? id with
  | none =>
      rw [hnode] at hfault
      cases hfault
      exact ⟨_, rfl⟩
  | some node =>
      rw [hnode] at hfault
      cases hfault

theorem disconnect_refused {id : String} {d : Desk α} {fault : Fault}
    (hfault : (d.disconnect (.str id)).1 = .error fault) :
    ∃ refusal, fault = .refused refusal := by
  rw [disconnect, Graph.findEdge] at hfault
  cases hedge : d.graph.edge? id with
  | none =>
      rw [hedge] at hfault
      cases hfault
      exact ⟨_, rfl⟩
  | some edge =>
      rw [hedge] at hfault
      cases hfault

/-! ## Changing a payload -/

/-- Whether a value names one of the types that a constant can have. -/
def NamesConcrete (type : Json) : Prop :=
  ∃ concrete : ValueType, concrete ≠ .any ∧ type = .str concrete.name

/-- A change of a constant that names no type that it could have, and gives no value. -/
structure LacksDefault (payload : Payload) (fields : Json.Members) : Prop where
  constant : payload.kind = .constant
  sameKind : ∀ kind, Json.find? "kind" (useFieldNames .constant fields) = some kind →
    kind = .str NodeKind.constant.name
  type : ∃ type, Json.find? "valueType" (useFieldNames .constant fields) = some type ∧
    ¬ NamesConcrete type
  value : Json.find? "value" (useFieldNames .constant fields) = none

theorem default?_isSome {type : ValueType} (hconcrete : type ≠ .any) :
    (Literal.default? type).isSome = true := by
  cases type with
  | any => exact (hconcrete rfl).elim
  | number | boolean | string => rfl

theorem defaultValue_of_namesConcrete {type : Json} (htype : NamesConcrete type) :
    ∃ value, defaultValue type = .ok value := by
  obtain ⟨concrete, hconcrete, rfl⟩ := htype
  obtain ⟨literal, hliteral⟩ := Option.isSome_iff_exists.mp (default?_isSome hconcrete)
  refine ⟨literal.toJson, ?_⟩
  simp only [defaultValue, Json.text?, Option.bind_some, ValueType.ofName?_name, hliteral]

/-- Asked for the default of anything else, the store ends in a fault that is no refusal. -/
theorem defaultValue_of_not_namesConcrete {type : Json} (htype : ¬ NamesConcrete type) :
    ∃ fault, defaultValue type = .error fault ∧ ∀ refusal, fault ≠ .refused refusal := by
  unfold defaultValue
  split
  · exact ⟨_, rfl, nofun⟩
  next concrete hname =>
    split
    next literal hdefault =>
      obtain ⟨text, htext, hconcrete⟩ := Option.bind_eq_some_iff.mp hname
      refine (htype ⟨concrete, ?_, ?_⟩).elim
      · rintro rfl
        cases hdefault
      · cases type with
        | str s =>
            cases htext
            rw [ValueType.name_of_ofName? hconcrete]
        | null | bool _ | int _ | float _ | arr _ | obj _ => cases htext
    · exact ⟨_, rfl, nofun⟩

/-- The fields of a change can be completed unless it lacks a default. -/
theorem completeFields_error {payload : Payload} {given : Json.Members} {fault : Fault}
    (hfault : completeFields payload given = .error fault) :
    ∃ type, payload.kind = .constant ∧ Json.find? "valueType" given = some type ∧
      Json.find? "value" given = none ∧ ¬ NamesConcrete type := by
  unfold completeFields at hfault
  split at hfault
  next literal type htype hvalue =>
    split at hfault
    · cases hfault
    · refine ⟨type, rfl, htype, hvalue, fun hconcrete => ?_⟩
      obtain ⟨value, hdefault⟩ := defaultValue_of_namesConcrete hconcrete
      rw [hdefault] at hfault
      cases hfault
  · cases hfault

theorem updatePayload_fault {id : String} {fields : Json.Members} {d : Desk α} {fault : Fault}
    (hfault : (d.updatePayload (.str id) (.obj fields)).1 = .error fault) :
    (∃ refusal, fault = .refused refusal) ∨
      ∃ node, d.graph.node? id = some node ∧ LacksDefault node.payload fields := by
  rw [updatePayload, Graph.findNode] at hfault
  cases hnode : d.graph.node? id with
  | none =>
      rw [hnode] at hfault
      cases hfault
      exact .inl ⟨_, rfl⟩
  | some node =>
      rw [hnode] at hfault
      dsimp only [partialFields, Store.vetNamed] at hfault
      split at hfault
      next =>
        cases hfault
        exact .inl ⟨_, rfl⟩
      next hsame =>
        split at hfault
        next hcomplete =>
          obtain ⟨type, hkind, htype, hvalue, hconcrete⟩ := completeFields_error hcomplete
          have hnodeKind : node.kind = .constant := hkind
          rw [hnodeKind] at hsame htype hvalue
          refine .inr ⟨node, rfl, hkind, fun kind hgiven => ?_, ⟨type, htype, hconcrete⟩, hvalue⟩
          rw [hgiven] at hsame
          cases kind with
          | str name => simpa [Json.text?] using hsame
          | null | bool _ | int _ | float _ | arr _ | obj _ => exact (hsame rfl).elim
        next =>
          split at hfault
          · cases hfault
            exact .inl ⟨_, rfl⟩
          · cases hfault

/-- A change that lacks a default always fails, and by no refusal. -/
theorem LacksDefault.updatePayload {d : Desk α} {id : String} {node : Node α}
    {fields : Json.Members} (hnode : d.graph.node? id = some node)
    (hlacks : LacksDefault node.payload fields) :
    ∃ fault, (d.updatePayload (.str id) (.obj fields)).1 = .error fault ∧
      ∀ refusal, fault ≠ .refused refusal := by
  obtain ⟨hkind, hsame, ⟨type, htype, hconcrete⟩, hvalue⟩ := hlacks
  have hnodeKind : node.kind = .constant := hkind
  have hrenamed : ((Json.find? "kind" (useFieldNames .constant fields)).any fun kind =>
      kind.text? != some NodeKind.constant.name) = false := by
    cases hgiven : Json.find? "kind" (useFieldNames .constant fields) with
    | none => rfl
    | some kind =>
        rw [hsame kind hgiven]
        rfl
  obtain ⟨fault, hfault, hother⟩ := defaultValue_of_not_namesConcrete hconcrete
  have hcomplete : completeFields node.payload (useFieldNames .constant fields) = .error fault := by
    cases hpayload : node.payload with
    | constant literal =>
        have hdiffers : type.text? ≠ some literal.type.name := by
          intro hname
          refine hconcrete ⟨literal.type, literal.type_ne_any, ?_⟩
          cases type with
          | str text => exact congrArg Json.str (Option.some.inj hname)
          | null | bool _ | int _ | float _ | arr _ | obj _ => cases hname
        unfold completeFields
        rw [htype, hvalue]
        dsimp only
        rw [if_neg hdiffers, hfault]
        rfl
    | logic _ | compare _ | var _ | choice | result =>
        rw [hpayload] at hkind
        cases hkind
  refine ⟨fault, ?_, hother⟩
  rw [Desk.updatePayload, Graph.findNode, hnode]
  dsimp only [partialFields, Store.vetNamed]
  rw [hnodeKind, hrenamed, hcomplete]
  rfl

/-! ## Connecting -/

/-- Why a connection under such an id cannot be made. -/
inductive WireFault (id : Json) : Fault → Prop
  | refused (refusal : Refusal) : WireFault id (.refused refusal)
  | noKey : id.isKey = false → WireFault id .wrongKind
  | oddId : id.IsOddId → WireFault id (.invalid Form.idIssue)

theorem wire_fault {source target : PortRef} {id : Json} {d : Desk α} {fault : Fault}
    (hfault : (d.wire source target id).1 = .error fault) : WireFault id fault := by
  rw [wire] at hfault
  cases htruthy : id.isTruthy with
  | false =>
      rw [d.chooseId_missing htruthy] at hfault
      dsimp only at hfault
      split at hfault <;> cases hfault
      exact .refused _
  | true =>
      rw [d.chooseId_given htruthy] at hfault
      dsimp only at hfault
      split at hfault
      · split at hfault <;> cases hfault
        exact .refused _
      next hnotext =>
        split at hfault
        next hkey =>
          cases hfault
          refine .oddId ⟨htruthy, hkey, ?_⟩
          cases id with
          | str text => exact (hnotext text rfl).elim
          | null | bool _ | int _ | float _ | arr _ | obj _ => rfl
        next hkey =>
          cases hfault
          exact .noKey (Bool.eq_false_iff.mpr hkey)

theorem connect_fault {source target id : Json} {d : Desk α} {fault : Fault}
    (hfault : (d.connect source target id).1 = .error fault) : WireFault id fault := by
  rw [connect] at hfault
  split at hfault
  · cases hfault
    exact .refused _
  · exact wire_fault hfault

/-! ## Documents -/

/-- A fault that tells of a missing part of a document, or of a part of the wrong kind. -/
inductive IsMalformed : Fault → Prop
  | missingMember (name : String) : IsMalformed (.missingMember name)
  | wrongKind : IsMalformed .wrongKind
  | notDocument : IsMalformed .notDocument

/-- A refusal, or a fault that tells of a malformed document. -/
def Foreseen (fault : Fault) : Prop := (∃ refusal, fault = .refused refusal) ∨ IsMalformed fault

/-- An id in a document of a node or an edge is odd. -/
def HasOddId (document : Json) : Prop := ∃ id, document.member? "id" = some id ∧ id.IsOddId

/-- A coordinate in a document of a node is beyond the range. -/
def HasFarPosition (document : Json) : Prop :=
  ∃ name ∈ ["x", "y"], ∃ v, document.member? name = some v ∧ v.IsBeyondRange

theorem demand_error {name : String} {document : Json} {fault : Fault}
    (hfault : document.demand name = .error fault) : IsMalformed fault := by
  unfold Json.demand at hfault
  split at hfault
  · split at hfault <;> cases hfault
    exact .missingMember name
  · cases hfault
    exact .wrongKind

theorem demand_ok {name : String} {document v : Json} (hv : document.demand name = .ok v) :
    document.member? name = some v := by
  unfold Json.demand at hv
  split at hv
  · split at hv
    next hfind =>
      cases hv
      exact hfind
    next => cases hv
  · cases hv

theorem ask_error {name : String} {document : Json} {fault : Fault}
    (hfault : document.ask name = .error fault) : IsMalformed fault := by
  unfold Json.ask at hfault
  split at hfault <;> cases hfault
  exact .notDocument

theorem ask_ok {name : String} {document : Json} {v : Option Json}
    (hv : document.ask name = .ok v) : document.member? name = v := by
  unfold Json.ask at hv
  split at hv <;> cases hv
  rfl

theorem givenFields_error {payload : Json} {fault : Fault}
    (hfault : Payload.givenFields payload = .error fault) : IsMalformed fault := by
  unfold Payload.givenFields at hfault
  split at hfault
  · cases hfault
  · split at hfault <;> cases hfault
    exact .wrongKind

/-- Of the values of a coordinate only an integer beyond the range is too large. -/
theorem isBeyondRange_of_tooLarge {v : Json} {n : Int} (hv : v.coordinate = .error (.tooLarge n)) :
    v.IsBeyondRange := by
  cases v with
  | int m =>
      refine ⟨m, rfl, ?_⟩
      cases hm : Double.ofInt? m with
      | none => rfl
      | some x =>
          have hcoordinate : (Json.int m).coordinate = .ok x := by
            simp only [Json.coordinate, Json.operand, hm]
          rw [hcoordinate] at hv
          cases hv
  | str s =>
      unfold Json.coordinate at hv
      split at hv
      next => split at hv <;> cases hv
      next hnostr => exact (hnostr s rfl).elim
  | null | bool _ | float _ | arr _ | obj _ => cases hv

/-- A coordinate beyond the range was given, for the one in place of a missing
coordinate is zero. -/
theorem given_of_isBeyondRange {name : String} {document : Json} {given : Option Json}
    (hgiven : document.ask name = .ok given)
    (hfar : (given.getD (.float (Double.zero false))).IsBeyondRange) :
    ∃ v, document.member? name = some v ∧ v.IsBeyondRange := by
  cases given with
  | none =>
      obtain ⟨n, hn, _⟩ := hfar
      cases hn
  | some v => exact ⟨v, ask_ok hgiven, hfar⟩

/-- The position of a node can be read, is refused, or lies beyond the range in one coordinate. -/
theorem readPair_error {x y : Json} {fault : Fault}
    (hfault : (GivenPosition.pair x y).read = .error fault) :
    (∃ refusal, fault = .refused refusal) ∨ x.IsBeyondRange ∨ y.IsBeyondRange := by
  unfold GivenPosition.read at hfault
  dsimp only [GivenPosition.parts?] at hfault
  split at hfault
  next hx => exact .inr (.inl (isBeyondRange_of_tooLarge hx))
  next =>
    cases hfault
    exact .inl ⟨_, rfl⟩
  next =>
    split at hfault
    next hy => exact .inr (.inr (isBeyondRange_of_tooLarge hy))
    next =>
      cases hfault
      exact .inl ⟨_, rfl⟩
    next => cases hfault

/-- Why a node of a document cannot be loaded. -/
theorem loadNode_fault {lenient : Bool} {document : Json} {d : Desk Double} {fault : Fault}
    (hfault : (loadNode lenient document d).1 = .error fault) :
    Foreseen fault ∨ HasFarPosition document ∨ HasOddId document := by
  unfold loadNode at hfault
  dsimp only at hfault
  split at hfault
  next hgiven =>
    cases hfault
    refine .inl (.inr ?_)
    rcases bind_eq_error_iff.mp hgiven with hkind | ⟨kind, _, hgiven⟩
    · exact demand_error hkind
    rcases bind_eq_error_iff.mp hgiven with hx | ⟨x, _, hgiven⟩
    · exact ask_error hx
    rcases bind_eq_error_iff.mp hgiven with hy | ⟨y, _, hgiven⟩
    · exact ask_error hy
    rcases bind_eq_error_iff.mp hgiven with hpayload | ⟨payload, _, hgiven⟩
    · exact ask_error hpayload
    rcases bind_eq_error_iff.mp hgiven with hid | ⟨id, _, hgiven⟩
    · exact demand_error hid
    cases hgiven
  next hgiven =>
    obtain ⟨kind, _, hgiven⟩ := bind_eq_ok_iff.mp hgiven
    obtain ⟨x, hx, hgiven⟩ := bind_eq_ok_iff.mp hgiven
    obtain ⟨y, hy, hgiven⟩ := bind_eq_ok_iff.mp hgiven
    obtain ⟨payload, _, hgiven⟩ := bind_eq_ok_iff.mp hgiven
    obtain ⟨id, hid, hgiven⟩ := bind_eq_ok_iff.mp hgiven
    cases hgiven
    have hadd := eq_error_of_map hfault
    cases addNode_fault hadd with
    | refused refusal => exact .inl (.inl ⟨refusal, rfl⟩)
    | position hposition =>
        rcases readPair_error hposition with hrefused | hfar | hfar
        · exact .inl (.inl hrefused)
        · exact .inr (.inl ⟨"x", by simp, given_of_isBeyondRange hx hfar⟩)
        · exact .inr (.inl ⟨"y", by simp, given_of_isBeyondRange hy hfar⟩)
    | payload hpayload => exact .inl (.inr (givenFields_error hpayload))
    | noKey _ => exact .inl (.inr .wrongKind)
    | oddId hodd => exact .inr (.inr ⟨_, demand_ok hid, hodd⟩)

theorem loadEdge_fault {document : Json} {d : Desk Double} {fault : Fault}
    (hfault : (loadEdge document d).1 = .error fault) : Foreseen fault ∨ HasOddId document := by
  unfold loadEdge at hfault
  dsimp only at hfault
  split at hfault
  next hends =>
    cases hfault
    refine .inl (.inr ?_)
    rcases bind_eq_error_iff.mp hends with hsource | ⟨source, _, hends⟩
    · exact demand_error hsource
    rcases bind_eq_error_iff.mp hends with htarget | ⟨target, _, hends⟩
    · exact demand_error htarget
    rcases bind_eq_error_iff.mp hends with hid | ⟨id, _, hends⟩
    · exact ask_error hid
    cases hends
  next hends =>
    obtain ⟨source, _, hends⟩ := bind_eq_ok_iff.mp hends
    obtain ⟨target, _, hends⟩ := bind_eq_ok_iff.mp hends
    obtain ⟨id, hid, hends⟩ := bind_eq_ok_iff.mp hends
    cases hends
    have hconnect := eq_error_of_map hfault
    cases connect_fault hconnect with
    | refused refusal => exact .inl (.inl ⟨refusal, rfl⟩)
    | noKey _ => exact .inl (.inr .wrongKind)
    | oddId hodd =>
        cases id with
        | none => cases hodd.1
        | some v => exact .inr ⟨v, ask_ok hid, hodd⟩

/-- Documents are loaded until one fails. -/
theorem loadAll_fault (load : Json → Edit Double Unit) {cause : Json → Fault → Prop}
    (hload : ∀ document d fault, (load document d).1 = .error fault → cause document fault)
    (documents : List Json) {d : Desk Double} {fault : Fault}
    (hfault : (loadAll load documents d).1 = .error fault) :
    ∃ document ∈ documents, cause document fault := by
  induction documents generalizing d with
  | nil => cases hfault
  | cons document rest ih =>
      rcases hfirst : load document d with ⟨result, middle⟩
      cases result with
      | error cause =>
          rw [loadAll, Edit.bind_error hfirst] at hfault
          cases hfault
          exact ⟨document, List.mem_cons_self, hload document d fault (by rw [hfirst])⟩
      | ok _ =>
          rw [loadAll, Edit.bind_ok hfirst] at hfault
          obtain ⟨later, hlater, hcause⟩ := ih hfault
          exact ⟨later, List.mem_cons_of_mem document hlater, hcause⟩

theorem parts_error {v : Json} {fault : Fault} (hfault : v.parts = .error fault) :
    IsMalformed fault := by
  unfold Json.parts at hfault
  split at hfault <;> cases hfault
  exact .wrongKind

theorem memberParts_error {name : String} {document : Json} {fault : Fault}
    (hfault : memberParts name document = .error fault) : IsMalformed fault := by
  rcases bind_eq_error_iff.mp hfault with hask | ⟨given, _, hparts⟩
  · exact ask_error hask
  · cases given with
    | none => cases hparts
    | some v => exact parts_error hparts

/-- What a graph document can hold that is neither refused nor malformed: a node with a coordinate
beyond the range, or a node or an edge with an odd id. -/
inductive Unforeseen (document : Json) : Prop
  | farPosition {nodes : List Json} {node : Json}
      (hnodes : memberParts "nodes" document = .ok nodes)
      (hnode : node ∈ nodes) (hfar : HasFarPosition node)
  | nodeId {nodes : List Json} {node : Json} (hnodes : memberParts "nodes" document = .ok nodes)
      (hnode : node ∈ nodes) (hodd : HasOddId node)
  | edgeId {edges : List Json} {edge : Json} (hedges : memberParts "edges" document = .ok edges)
      (hedge : edge ∈ edges) (hodd : HasOddId edge)

theorem load_fault {document : Json} {lenient : Bool} {d : Desk Double} {fault : Fault}
    (hfault : (load document lenient d).1 = .error fault) :
    Foreseen fault ∨ Unforeseen document := by
  unfold load at hfault
  split at hfault
  next hnodes =>
    cases hfault
    exact .inl (.inr (memberParts_error hnodes))
  next nodes hnodes =>
    split at hfault
    next hloaded =>
      cases hfault
      obtain ⟨node, hnode, hcause⟩ :=
        loadAll_fault (loadNode lenient) (fun _ _ _ => loadNode_fault) nodes
          (congrArg Prod.fst hloaded)
      rcases hcause with hforeseen | hfar | hodd
      · exact .inl hforeseen
      · exact .inr (.farPosition hnodes hnode hfar)
      · exact .inr (.nodeId hnodes hnode hodd)
    next =>
      split at hfault
      next hedges =>
        cases hfault
        exact .inl (.inr (memberParts_error hedges))
      next edges hedges =>
        obtain ⟨edge, hedge, hcause⟩ :=
          loadAll_fault loadEdge (fun _ _ _ => loadEdge_fault) edges hfault
        rcases hcause with hforeseen | hodd
        · exact .inl hforeseen
        · exact .inr (.edgeId hedges hedge hodd)

end Desk

end RuleCanvas
