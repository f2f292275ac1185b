import RuleCanvas.Proofs.Canvas.Zoom
import RuleCanvas.Proofs.Session.Current
import RuleCanvas.Proofs.Store.Atomic
import RuleCanvas.Proofs.Store.Faults

/-! # Rejected edits

Edits by the palette, by the inspector and by loading a document answer whether they were accepted.
One that was not leaves the graph and its rule tree as they were, with one notice for the user. Some
edits are neither accepted nor rejected: a constant that is to take the default value of a type that
has none, and a graph document with a coordinate beyond the range of numbers or an odd id, end in a
fault. Even these leave everything as it was.
-/

namespace RuleCanvas

open Scalar (ofInt)

/-! ## What the session hears -/

/-- Without a change told, the rule tree stays. -/
theorem Entry.latestTree_of_untold {α : Type} (reads : Graph α → Option (Graph α)) (tree : Json)
    {entries : List (Entry α)} (huntold : entries.filterMap Entry.told? = []) :
    latestTree reads tree entries = tree := by
  induction entries with
  | nil => rfl
  | cons entry rest ih =>
      cases entry with
      | heard listener change graph => cases huntold
      | line _ => exact ih huntold
      | measure _ => exact ih huntold

namespace Session

open Desk (Atomic LacksDefault Unforeseen Foreseen)

/-- Two sessions with one store, one rule tree and the same notices but for some
added at the end. -/
structure Rejects (s s' : Session) (added : List Notice) : Prop where
  store : s'.desk.store = s.desk.store
  ruleTree : s'.ruleTree = s.ruleTree
  notices : s'.notices = s.notices ++ added

theorem Rejects.refl (s : Session) : s.Rejects s [] := ⟨rfl, rfl, (List.append_nil _).symm⟩

theorem Rejects.notify {s s' : Session} (h : s.Rejects s' []) (n : Notice) :
    s.Rejects (s'.notify n) [n] := by
  refine ⟨h.store, h.ruleTree, ?_⟩
  change s'.notices ++ [n] = s.notices ++ [n]
  rw [h.notices, List.append_nil]

/-! ## Guarded operations -/

theorem edit_rejects {β : Type} {s : Session} (hmade : s.store < s.stores.length)
    {operation : Edit Double β} (hatomic : Atomic operation) {fault : Fault} {s' : Session}
    (hedit : s.edit operation = (.error fault, s')) :
    s.Rejects s' [] ∧ (operation s.editDesk).1 = .error fault := by
  have hresult : (operation s.editDesk).1 = .error fault := congrArg Prod.fst hedit
  have huntouched : s.editDesk.Untouched (operation s.editDesk).2 := hatomic (Prod.ext hresult rfl)
  have htree : Entry.latestTree (s.reads s.store) s.ruleTree
      (operation s.editDesk).2.journal.entries = s.ruleTree := by
    refine Entry.latestTree_of_untold _ _ ?_
    rw [Journal.entries, List.filterMap_reverse]
    exact congrArg List.reverse huntouched.told
  have hstore : (s.edit operation).2.desk.store = s.desk.store := by
    rw [desk_edit hmade]
    exact huntouched.store
  obtain rfl : (s.edit operation).2 = s' := congrArg Prod.snd hedit
  exact ⟨⟨hstore, htree, (List.append_nil _).symm⟩, hresult⟩

section

variable {β : Type} {s : Session} (hmade : s.store < s.stores.length) (action : String)
  {operation : Edit Double β} (hatomic : Atomic operation)

include hmade hatomic

/-- An operation that fails by a refusal is rejected with one notice. -/
theorem guarded_rejected
    (hanswer : (s.guarded action operation).1.map Option.isSome = .ok false) :
    ∃ notice, s.Rejects (s.guarded action operation).2 [notice] := by
  rcases hguarded : s.guarded action operation with ⟨result, s'⟩
  rw [hguarded] at hanswer
  unfold guarded at hguarded
  split at hguarded
  next =>
    cases hguarded
    cases hanswer
  next hedit =>
    cases hguarded
    exact ⟨_, (edit_rejects hmade hatomic hedit).1.notify _⟩
  next =>
    cases hguarded
    cases hanswer

/-- What is raised past the guard is no refusal, and leaves everything as it was. -/
theorem guarded_raised {fault : Fault}
    (hanswer : (s.guarded action operation).1.map Option.isSome = .error fault) :
    s.Rejects (s.guarded action operation).2 [] ∧ (operation s.editDesk).1 = .error fault ∧
      ∀ refusal, fault ≠ .refused refusal := by
  rcases hguarded : s.guarded action operation with ⟨result, s'⟩
  rw [hguarded] at hanswer
  unfold guarded at hguarded
  split at hguarded
  next =>
    cases hguarded
    cases hanswer
  next =>
    cases hguarded
    cases hanswer
  next hother hedit =>
    cases hguarded
    cases hanswer
    obtain ⟨hrejects, hfault⟩ := edit_rejects hmade hatomic hedit
    exact ⟨hrejects, hfault, hother⟩

/-- Where an operation fails by refusals only, nothing is raised. -/
theorem guarded_answers
    (hrefused : ∀ fault, (operation s.editDesk).1 = .error fault →
      ∃ refusal, fault = .refused refusal) (fault : Fault) :
    (s.guarded action operation).1.map Option.isSome ≠ .error fault := by
  intro hanswer
  obtain ⟨_, hfault, hother⟩ := guarded_raised hmade action hatomic hanswer
  obtain ⟨refusal, hrefusal⟩ := hrefused fault hfault
  exact hother refusal hrefusal

end

/-! ## Edits -/

/-- An edit by the palette, by the inspector or by loading a document. -/
inductive EditingAction where
  | addNode (kind : Json) (fields : Json.Members)
  | deleteNode (id : String)
  | updatePayload (id : String) (fields : Json.Members)
  | disconnect (id : String)
  | loadRules (document : Json)
  | loadGraph (document : Json)

/-- The edit as one of the actions on a session. -/
def EditingAction.toAction : EditingAction → Action
  | addNode kind fields => .addNode kind (.obj fields)
  | deleteNode id => .deleteNode (.str id)
  | updatePayload id fields => .updatePayload (.str id) (.obj fields)
  | disconnect id => .disconnect (.str id)
  | loadRules document => .loadRules document
  | loadGraph document => .loadGraph document

/-- What an edit comes to: whether it was accepted, or the fault that it raised. Rules are accepted
if they can be imported. -/
def outcome (s : Session) : EditingAction → Except Fault Bool
  | .addNode kind fields => (s.addNode kind (.obj fields)).1.map Option.isSome
  | .deleteNode id => (s.deleteNode (.str id)).1
  | .updatePayload id fields => (s.updatePayload (.str id) (.obj fields)).1
  | .disconnect id => (s.disconnect (.str id)).1
  | .loadRules document =>
    (s.loadRules document).1.map fun _ => (s.importer.run document s.desk).1.isOk
  | .loadGraph document => (s.loadGraph document).1

/-- The edits that can get past the guards of a session. -/
inductive Unguarded (s : Session) : EditingAction → Prop
  | update {id : String} {fields : Json.Members} {node : Node Double}
      (hnode : s.graph.node? id = some node) (hlacks : LacksDefault node.payload fields) :
      Unguarded s (.updatePayload id fields)
  | document {document : Json} (hdocument : Unforeseen document) : Unguarded s (.loadGraph document)

/-- In a view that can be mapped back, a node is added by a guarded operation. -/
theorem addNode_eq {s : Session} (hview : s.canvas.viewport.Invertible) (kind payload : Json) :
    ∃ point, s.addNode kind payload =
      s.draws.2.guarded "add_node" fun d => d.addNode kind (.ok point) payload .null false := by
  obtain ⟨center, hcenter⟩ := hview.center
  unfold addNode
  rw [hcenter]
  exact ⟨_, rfl⟩

/-- A document is rejected if it has no list of rules; all others are imported. -/
theorem Current.loadRules_cases {s : Session} (hs : s.Current) (document : Json) :
    (s.outcome (.loadRules document) = .ok false ∧
      ∃ notice, s.Rejects (s.loadRules document).2 [notice]) ∨
    s.outcome (.loadRules document) = .ok true := by
  unfold outcome
  cases hrules : Rule.rulesOf document with
  | error cause =>
      obtain ⟨hload, hstore⟩ := loadRules_malformed hs.made hrules
      have hrun : s.importer.run document s.desk =
          (s.desk.count .importRejected).refuse (.malformed cause) := by
        rw [Rule.Importer.run, hrules]
      have himported : s.Rejects (s.imported document) [] :=
        ⟨hstore, s.imported_ruleTree document, (List.append_nil _).symm⟩
      refine .inl ?_
      dsimp only
      rw [hload, hrun]
      exact ⟨rfl, _, himported.notify _⟩
  | ok rules =>
      obtain ⟨issues, added, hload⟩ := hs.toAttached.loadRules_eq hrules
      obtain ⟨imported, desk, hrun, _⟩ :=
        Rule.run_normal s.importer hs.catalog_eq hs.guarded hs.names hrules
      refine .inr ?_
      dsimp only
      rw [hload, hrun]
      rfl

theorem malformedNotice?_isSome {fault : Fault} (hfault : Desk.IsMalformed fault) :
    (malformedNotice? fault).isSome = true := by
  cases hfault <;> rfl

/-- A graph document that cannot be loaded leaves the session its store. -/
theorem loadGraph_cases (s : Session) (document : Json) :
    s.outcome (.loadGraph document) = .ok true ∨
    (s.outcome (.loadGraph document) = .ok false ∧
      ∃ notice, s.Rejects (s.loadGraph document).2 [notice]) ∨
    (∃ fault, s.outcome (.loadGraph document) = .error fault ∧ Unforeseen document ∧
      s.Rejects (s.loadGraph document).2 []) := by
  have hkept : ∀ journal : Journal Double, s.Rejects { s with journal } [] :=
    fun _ => ⟨rfl, rfl, (List.append_nil _).symm⟩
  unfold outcome
  dsimp only
  unfold loadGraph
  split
  next => exact .inl rfl
  next fault desk hload =>
    dsimp only
    split
    next => exact .inr (.inl ⟨rfl, _, (hkept desk.journal).notify _⟩)
    next hother =>
      split
      next => exact .inr (.inl ⟨rfl, _, (hkept desk.journal).notify _⟩)
      next hnone =>
        refine .inr (.inr ⟨_, rfl, ?_, hkept desk.journal⟩)
        rcases Desk.load_fault (congrArg Prod.fst hload) with (⟨refusal, hrefused⟩ | hmalformed) |
          hdocument
        · exact (hother refusal hrefused).elim
        · have hsome := malformedNotice?_isSome hmalformed
          rw [hnone] at hsome
          cases hsome
        · exact hdocument

/-- An edit that is rejected leaves the graph and its rule tree, with one notice. -/
theorem Current.rejected {s : Session} (hs : s.Current) (hview : s.canvas.viewport.Invertible)
    {action : EditingAction} (hfalse : s.outcome action = .ok false) :
    ∃ notice, s.Rejects (s.act action.toAction) [notice] := by
  cases action with
  | addNode kind fields =>
      obtain ⟨point, hadd⟩ := addNode_eq hview kind (.obj fields)
      change (s.addNode kind (.obj fields)).1.map Option.isSome = .ok false at hfalse
      change ∃ notice, s.Rejects (s.addNode kind (.obj fields)).2 [notice]
      rw [hadd] at hfalse ⊢
      obtain ⟨notice, hrejects⟩ :=
        guarded_rejected (s := s.draws.2) hs.made _ (Desk.addNode_atomic kind _ _ _ _) hfalse
      exact ⟨notice, hrejects.store, hrejects.ruleTree, hrejects.notices⟩
  | deleteNode id => exact guarded_rejected hs.made _ (Desk.removeNode_atomic _) hfalse
  | updatePayload id fields =>
      exact guarded_rejected hs.made _ (Desk.updatePayload_atomic _ _) hfalse
  | disconnect id => exact guarded_rejected hs.made _ (Desk.disconnect_atomic _) hfalse
  | loadRules document =>
      rcases hs.loadRules_cases document with ⟨_, hrejects⟩ | htrue
      · exact hrejects
      · rw [htrue] at hfalse
        cases hfalse
  | loadGraph document =>
      rcases s.loadGraph_cases document with htrue | ⟨_, hrejects⟩ | ⟨_, hfault, _⟩
      · rw [htrue] at hfalse
        cases hfalse
      · exact hrejects
      · rw [hfault] at hfalse
        cases hfalse

/-- Only an unguarded edit raises a fault, and even then everything is as it was. -/
theorem Current.raised {s : Session} (hs : s.Current) (hview : s.canvas.viewport.Invertible)
    {action : EditingAction} {fault : Fault} (hfault : s.outcome action = .error fault) :
    s.Unguarded action ∧ s.Rejects (s.act action.toAction) [] := by
  cases action with
  | addNode kind fields =>
      obtain ⟨point, hadd⟩ := addNode_eq hview kind (.obj fields)
      change (s.addNode kind (.obj fields)).1.map Option.isSome = .error fault at hfault
      rw [hadd] at hfault
      exact (guarded_answers (s := s.draws.2) hs.made _ (Desk.addNode_atomic kind _ _ _ _)
        (fun _ => Desk.addNode_refused) fault hfault).elim
  | deleteNode id =>
      exact (guarded_answers hs.made _ (Desk.removeNode_atomic _)
        (fun _ => Desk.removeNode_refused) fault hfault).elim
  | updatePayload id fields =>
      obtain ⟨hrejects, hraised, hother⟩ :=
        guarded_raised hs.made _ (Desk.updatePayload_atomic _ _) hfault
      rcases Desk.updatePayload_fault hraised with ⟨refusal, hrefused⟩ | ⟨node, hnode, hlacks⟩
      · exact (hother refusal hrefused).elim
      · exact ⟨.update hnode hlacks, hrejects⟩
  | disconnect id =>
      exact (guarded_answers hs.made _ (Desk.disconnect_atomic _)
        (fun _ => Desk.disconnect_refused) fault hfault).elim
  | loadRules document =>
      rcases hs.loadRules_cases document with ⟨hfalse, _⟩ | htrue
      · rw [hfalse] at hfault
        cases hfault
      · rw [htrue] at hfault
        cases hfault
  | loadGraph document =>
      rcases s.loadGraph_cases document with htrue | ⟨hfalse, _⟩ | ⟨_, _, hdocument, hrejects⟩
      · rw [htrue] at hfault
        cases hfault
      · rw [hfalse] at hfault
        cases hfault
      · exact ⟨.document hdocument, hrejects⟩

/-- A change that lacks a default is never turned into a notice. -/
theorem update_raises (s : Session) {id : String} {fields : Json.Members} {node : Node Double}
    (hnode : s.graph.node? id = some node) (hlacks : LacksDefault node.payload fields) :
    ∃ fault, s.outcome (.updatePayload id fields) = .error fault := by
  have hpage : s.editDesk.graph.node? id = some node := hnode
  obtain ⟨fault, hfault, hother⟩ := hlacks.updatePayload hpage
  refine ⟨fault, ?_⟩
  have hedit : s.edit (fun d => d.updatePayload (.str id) (.obj fields)) =
      (.error fault, (s.edit fun d => d.updatePayload (.str id) (.obj fields)).2) :=
    Prod.ext hfault rfl
  change (s.guarded "update_payload" fun d => d.updatePayload (.str id) (.obj fields)).1.map
    Option.isSome = .error fault
  unfold guarded
  rw [hedit]
  cases fault with
  | refused refusal => exact (hother refusal rfl).elim
  | _ => rfl

/-- Whatever was done with a session before, an edit that is rejected leaves the store and the rule
tree as they were and adds one notice. An edit that raises a fault is unguarded, and leaves the
notices as well. -/
theorem edit_contained (catalog : Catalog) (bounds : ZoomBounds Double) (sensitivity : Double)
    (importer : Rule.Importer Double) (jitter : Jitter) (journal : Journal Double)
    (hcatalog : importer.context.catalog = catalog.orAttendance)
    (hnames : Function.Injective journal.ids.name)
    (hmin : ofInt 0 < bounds.min) (hmax : ofInt 0 < bounds.max) (actions : List Action)
    (hids : ∀ action ∈ actions, action.TextIds) (action : EditingAction) :
    let s := actions.foldl Session.act
      (Session.start catalog bounds sensitivity importer jitter journal)
    (s.outcome action = .ok false → ∃ notice, s.Rejects (s.act action.toAction) [notice]) ∧
      ∀ fault, s.outcome action = .error fault →
        s.Unguarded action ∧ s.Rejects (s.act action.toAction) [] := by
  intro s
  have hstart : (Session.start catalog bounds sensitivity importer jitter journal).Current :=
    .start catalog bounds sensitivity importer jitter journal hcatalog hnames
  have hs : s.Current := hstart.foldl_act actions hids
  have hview : s.canvas.viewport.Invertible :=
    foldl_act_invertible (start_invertible _ hmin hmax _ _ _ _) actions
  exact ⟨hs.rejected hview, fun _ => hs.raised hview⟩

theorem usualBounds_min_pos : ¬ (Scalar.ratio 1 10 : Double) ≤ ofInt 0 := by decide +kernel

theorem usualBounds_min_below_max : ¬ (Scalar.ratio 3 1 : Double) ≤ Scalar.ratio 1 10 := by
  decide +kernel

/-- The bounds of the zoom where nothing else is set. -/
def usualBounds : ZoomBounds Double :=
  ⟨Scalar.ratio 1 10, Scalar.ratio 3 1, Scalar.ratio 1 10, usualBounds_min_pos,
    usualBounds_min_below_max⟩

/-- A constant that is to become a date: with a value the change is rejected. -/
theorem edit_contained_date :
    let start := Session.start .attendance usualBounds (Scalar.ratio 1 1000)
      (usualImporter .attendance) ⟨fun _ => Double.zero false, 0⟩ ⟨.counting, []⟩
    let s := [Action.addNode (.str "Constant") (.obj [])].foldl Session.act start
    let update := EditingAction.updatePayload "n1" [("valueType", .str "date"), ("value", .int 1)]
    (s.outcome update).toOption = some false ∧
      (s.outcome update = .ok false → ∃ notice, s.Rejects (s.act update.toAction) [notice]) ∧
      ∀ fault, s.outcome update = .error fault →
        s.Unguarded update ∧ s.Rejects (s.act update.toAction) [] :=
  ⟨by decide +kernel, edit_contained _ _ _ _ _ _ rfl Rule.Importer.counting_injective
    (by decide +kernel) (by decide +kernel) _ (by simp [Action.TextIds]) _⟩

/-- Without a value the same change raises a fault: it asks for the default value of a date. -/
theorem update_raises_date :
    let start := Session.start .attendance usualBounds (Scalar.ratio 1 1000)
      (usualImporter .attendance) ⟨fun _ => Double.zero false, 0⟩ ⟨.counting, []⟩
    let s := [Action.addNode (.str "Constant") (.obj [])].foldl Session.act start
    ∃ fault, s.outcome (.updatePayload "n1" [("valueType", .str "date")]) = .error fault := by
  intro start s
  have hpayload : s.graph.payload? "n1" = some (.constant (.int 0)) := by decide +kernel
  obtain ⟨node, hnode, hconstant⟩ := Option.map_eq_some_iff.mp hpayload
  refine s.update_raises hnode ⟨congrArg Payload.kind hconstant, nofun, ⟨.str "date", rfl, ?_⟩, rfl⟩
  rintro ⟨concrete, _, hdate⟩
  cases concrete <;> simp [ValueType.name] at hdate

end Session

end RuleCanvas
