import RuleCanvas.Proofs.Rule.Normal
import RuleCanvas.Proofs.Session.Action

/-! # Rule trees are current

A change is told after it is written, to every listener of the store, and the session compiles when
it is told. A session that listens to its store therefore never shows the rule tree of an earlier
graph, as long as no change goes untold. While an import is under way the session is suspended and
lets the changes pass: it compiles when the import is over, which needs that an import that has
cleared the graph is never given up. A store that takes the place of another is subscribed to before
anything can change it, and both the session and its canvas refer to it from then on.
-/

namespace RuleCanvas

variable {α : Type}

/-! ## The last change told -/

namespace Entry

theorem latestTree_append (reads : Graph α → Option (Graph α)) (tree : Json)
    (first second : List (Entry α)) :
    latestTree reads tree (first ++ second) =
      latestTree reads (latestTree reads tree first) second := by
  induction first generalizing tree with
  | nil => rfl
  | cons e rest ih =>
      cases e with
      | heard listener change g => cases listener <;> exact ih _
      | line | measure => exact ih _

/-- What is not read leaves the tree. -/
theorem latestTree_unread (tree : Json) (entries : List (Entry α)) :
    latestTree (fun _ => none) tree entries = tree := by
  induction entries with
  | nil => rfl
  | cons e rest ih =>
      cases e with
      | heard listener change g => cases listener <;> exact ih
      | line | measure => exact ih

theorem latestTree_heard_same (g : Graph α) (change : Change) (listeners : List Listener) :
    latestTree some g.ruleTree (listeners.map fun l => heard l change g) = g.ruleTree := by
  induction listeners with
  | nil => rfl
  | cons listener rest ih => cases listener <;> exact ih

/-- A change that the owner hears of sets the tree to that of the graph. -/
theorem latestTree_heard {listeners : List Listener} (howner : .owner ∈ listeners) (tree : Json)
    (g : Graph α) (change : Change) :
    latestTree some tree (listeners.map fun l => heard l change g) = g.ruleTree := by
  induction listeners with
  | nil => cases howner
  | cons listener rest ih =>
      cases listener with
      | owner => exact latestTree_heard_same g change rest
      | named _ _ => exact ih (by simpa using howner)

end Entry

theorem Journal.entries_add (j : Journal α) (e : Entry α) :
    (j.add e).entries = j.entries ++ [e] := List.reverse_cons

theorem Journal.entries_addAll (j : Journal α) (es : List (Entry α)) :
    (j.addAll es).entries = j.entries ++ es := by simp [Journal.entries, Journal.addAll]

namespace Desk

/-- The owner listens, and the changes that it was told of bring `tree` to that of the graph. -/
structure Told (tree : Json) (d : Desk α) : Prop where
  listening : .owner ∈ d.store.listeners
  fresh : Entry.latestTree some tree d.journal.entries = d.graph.ruleTree

/-- Whatever was written before, the owner knows after an announcement. -/
theorem Told.announce {tree : Json} {d : Desk α} (howner : .owner ∈ d.store.listeners)
    (change : Change) : Told tree (d.announce change) := by
  refine ⟨howner, ?_⟩
  change Entry.latestTree some tree (d.journal.addAll _).entries = d.graph.ruleTree
  rw [Journal.entries_addAll, Entry.latestTree_append, Entry.latestTree_heard howner]

/-- What is not told of a change changes nothing. -/
theorem Told.add {tree : Json} {d : Desk α} (hd : d.Told tree) {e : Entry α}
    (hkeep : ∀ tree, Entry.latestTree some tree [e] = tree) :
    Told tree { d with journal := d.journal.add e } := by
  refine ⟨hd.listening, ?_⟩
  change Entry.latestTree some tree (d.journal.add e).entries = d.graph.ruleTree
  rw [Journal.entries_add, Entry.latestTree_append, hkeep, hd.fresh]

theorem Step.told {tree : Json} {d d' : Desk α} (hstep : Step False d d') (hd : d.Told tree) :
    d'.Told tree := by
  have howner : .owner ∈ d'.store.listeners := hstep.settings.listeners ▸ hd.listening
  cases hstep with
  | log line => exact hd.add fun _ => rfl
  | count measure => exact hd.add fun _ => rfl
  | draw => exact ⟨hd.listening, hd.fresh⟩
  | vacate target hsilent => exact hsilent.elim
  -- Every other step ends in an announcement, which is all that counts.
  | _ =>
      refine .announce ?_ _
      exact howner

theorem Steps.told {tree : Json} {d d' : Desk α} (hsteps : Steps False d d') (hd : d.Told tree) :
    d'.Told tree := hsteps.keep (fun _ _ hstep => hstep.told) hd

end Desk

/-! ## What every action keeps -/

namespace Session

open Desk (SameSettings Steps Stepwise)

/-- A session whose references are joined, that listens once to the store under edit and to no
other, and that can import: importer and store have the catalog of the session, cycles are refused,
and the ids to draw differ. -/
structure Attached (s : Session) : Prop extends Joined s where
  listening : s.desk.store.listeners.count .owner = 1
  released : ∀ place store, place ≠ s.store → s.stores[place]? = some store →
    store.listeners.count .owner = 0
  store : s.desk.catalog = s.catalog
  importer : s.importer.context.catalog = s.catalog
  guarded : s.desk.store.guarded = true
  names : Function.Injective s.journal.ids.name

/-- What holds of a session between actions: it is attached, and its tree is that of its graph. -/
structure Current (s : Session) : Prop extends Attached s where
  fresh : s.ruleTree = s.graph.ruleTree

theorem store_congr {s s' : Session} (hreferences : s'.references = s.references) :
    s'.store = s.store := congrArg (fun references => references.2.1) hreferences

namespace Attached

variable {β : Type} {s s' : Session}

theorem owner_mem (hs : s.Attached) : .owner ∈ s.desk.store.listeners :=
  List.count_pos_iff.mp (by rw [hs.listening]; exact Nat.one_pos)

/-- The catalog that an import has is that of the store it imports into. -/
theorem catalog_eq (hs : s.Attached) : s.desk.catalog = s.importer.context.catalog :=
  hs.store.trans hs.importer.symm

/-- An action may put at the place of the store under edit what is left of it by something that
leaves its settings. -/
theorem keep (hs : s.Attached) {d : Desk Double} (hsettings : SameSettings s.editDesk d)
    (hjoined : s'.Joined) (hstore : s'.store = s.store)
    (hstores : s'.stores = s.stores.set s.store d.store) (hsetup : s'.setup = s.setup)
    (hnames : s'.journal.ids.name = d.journal.ids.name) : s'.Attached := by
  have hdesk : s'.desk.store = d.store := by
    change (s'.stores[s'.store]?).getD _ = _
    rw [hstores, hstore, List.getElem?_set_self hs.made, Option.getD_some]
  have hcatalog : s'.catalog = s.catalog := congrArg Prod.fst hsetup
  have himporter : s'.importer = s.importer := congrArg Prod.snd hsetup
  exact
    { toJoined := hjoined
      listening := by rw [hdesk, hsettings.listeners]; exact hs.listening
      released := fun place store hother hplace => by
        rw [hstore] at hother
        rw [hstores, List.getElem?_set_ne (Ne.symm hother)] at hplace
        exact hs.released place store hother hplace
      store := by
        rw [hcatalog, ← hs.store]
        exact (congrArg Store.catalog hdesk).trans hsettings.catalog
      importer := by rw [himporter, hcatalog, hs.importer]
      guarded := by rw [hdesk, hsettings.guarded]; exact hs.guarded
      names := hnames.trans hsettings.names ▸ hs.names }

/-- A session with the same stores and the same references to them. -/
theorem congr (hs : s.Attached) (hstores : s'.stores = s.stores)
    (hreferences : s'.references = s.references) (hsetup : s'.setup = s.setup)
    (hnames : s'.journal.ids.name = s.journal.ids.name) : s'.Attached :=
  hs.keep (d := s.desk) ⟨rfl, rfl, rfl, rfl⟩ (hs.toJoined.congr hreferences)
    (store_congr hreferences) (hstores.trans hs.set_desk.symm) hsetup hnames

theorem edit (hs : s.Attached) {operation : Edit Double β}
    (hsettings : SameSettings s.editDesk (operation s.editDesk).2) :
    (s.edit operation).2.Attached :=
  hs.keep hsettings (hs.toJoined.edit operation) rfl rfl rfl rfl

theorem perform (hs : s.Attached) {operation : Canvas Double → β × Canvas Double}
    (hsettings : SameSettings s.editCanvas.desk (operation s.editCanvas).2.desk) :
    (s.perform operation).2.Attached :=
  hs.keep (hs.editCanvas_desk ▸ hsettings) (hs.toJoined.perform operation) rfl
    (congrArg (s.stores.set · _) hs.canvas) rfl rfl

theorem imported (hs : s.Attached) (document : Json) : (s.imported document).Attached :=
  have hsteps : Steps True s.editDesk (s.importer.run document s.editDesk).2 :=
    s.importer.run_stepwise document s.editDesk
  hs.keep hsteps.settings (hs.toJoined.imported document) rfl rfl rfl rfl

/-- A session that takes up a new store, to which nobody listens yet, has left the one before. -/
theorem adopt (hs : s.Attached) {d : Desk Double}
    (hsettings : SameSettings (Desk.fresh s.catalog s.journal) d) : (s.adopt d).Attached where
  toJoined := .adopt hs.heeding d
  listening := by
    rw [desk_adopt]
    change (d.store.listeners ++ [Listener.owner]).count .owner = 1
    rw [hsettings.listeners]
    rfl
  released := by
    intro place store hother hplace
    rw [stores_adopt hother] at hplace
    change (s.stores.modify s.subscription _)[place]? = _ at hplace
    rw [hs.subscription] at hplace
    by_cases hleft : place = s.store
    · subst hleft
      rw [List.getElem?_modify_eq, hs.getElem?_store] at hplace
      cases hplace
      change (s.desk.store.listeners.erase .owner).count .owner = 0
      rw [List.count_erase_self, hs.listening]
    · rw [List.getElem?_modify_ne _ _ (Ne.symm hleft)] at hplace
      exact hs.released place store hleft hplace
  store := by
    rw [desk_adopt]
    exact hsettings.catalog
  importer := hs.importer
  guarded := by
    rw [desk_adopt]
    exact hsettings.guarded
  names := hsettings.names.symm ▸ hs.names

/-- Compiling freshens the tree of whatever graph the session has come to. -/
theorem recompile (hs : s.Attached) : s.recompile.Current where
  toAttached := hs.congr rfl rfl rfl rfl
  fresh := rfl

end Attached

namespace Current

variable {β : Type} {s s' : Session}

/-- A session with the stores and the tree of a current one. -/
theorem congr (hs : s.Current) (hstores : s'.stores = s.stores)
    (hreferences : s'.references = s.references) (hsetup : s'.setup = s.setup)
    (hnames : s'.journal.ids.name = s.journal.ids.name) (htree : s'.ruleTree = s.ruleTree) :
    s'.Current where
  toAttached := hs.toAttached.congr hstores hreferences hsetup hnames
  fresh := by
    have hcatalog : s'.catalog = s.catalog := congrArg Prod.fst hsetup
    have hgraph : s'.graph = s.graph := by
      change ((s'.stores[s'.store]?).getD _).graph = ((s.stores[s.store]?).getD _).graph
      rw [hstores, store_congr hreferences, hcatalog]
    rw [htree, hgraph, hs.fresh]

theorem notify (hs : s.Current) (n : Notice) : (s.notify n).Current :=
  hs.congr rfl rfl rfl rfl rfl

/-- The owner of the desk on which an edit starts knows its graph. -/
theorem told_editDesk (hs : s.Current) : s.editDesk.Told s.ruleTree := ⟨hs.owner_mem, hs.fresh⟩

theorem edit (hs : s.Current) {operation : Edit Double β} (hsteps : Stepwise False operation) :
    (s.edit operation).2.Current where
  toAttached := hs.toAttached.edit (hsteps s.editDesk).settings
  fresh := by
    have htree : (s.edit operation).2.ruleTree = Entry.latestTree (s.reads s.store) s.ruleTree
        (operation s.editDesk).2.journal.entries := rfl
    rw [htree, hs.reads_store, ((hsteps s.editDesk).told hs.told_editDesk).fresh, Session.graph,
      desk_edit hs.made]
    rfl

/-- An operation on the canvas that does chains of told steps to its desk. -/
theorem perform (hs : s.Current) {operation : Canvas Double → β × Canvas Double}
    (hsteps : ∀ c, Steps False c.desk (operation c).2.desk) : (s.perform operation).2.Current where
  toAttached := hs.toAttached.perform (hsteps s.editCanvas).settings
  fresh := by
    have hstart : s.editCanvas.desk.Told s.ruleTree := hs.editCanvas_desk ▸ hs.told_editDesk
    have htree : (s.perform operation).2.ruleTree =
        Entry.latestTree (s.reads s.interaction.store) s.ruleTree
          (operation s.editCanvas).2.desk.journal.entries := rfl
    rw [htree, hs.canvas, hs.reads_store, ((hsteps s.editCanvas).told hstart).fresh, Session.graph,
      hs.desk_perform]
    rfl

theorem guarded_edit (hs : s.Current) (action : String) {operation : Edit Double β}
    (hsteps : Stepwise False operation) : (s.guarded action operation).2.Current := by
  have hedit : (s.edit operation).2.Current := hs.edit hsteps
  obtain hsession | ⟨n, hsession⟩ := s.guarded_session action operation
  · rw [hsession]
    exact hedit
  · rw [hsession]
    exact hedit.notify n

theorem addNode (hs : s.Current) (kind payload : Json) : (s.addNode kind payload).2.Current := by
  unfold Session.addNode
  split
  · exact hs
  · have hdraws : s.draws.2.Current := hs.congr rfl rfl rfl rfl rfl
    exact hdraws.guarded_edit _ fun d => d.addNode_steps _ _ _ _ _

theorem release (hs : s.Current) (x y : Reading Double) : (s.release x y).2.Current := by
  have hperform : (s.perform fun c => c.release x y).2.Current :=
    hs.perform fun c => c.release_steps x y
  obtain ⟨added, hsession⟩ := s.release_session x y
  rw [hsession]
  exact hperform.congr rfl rfl rfl rfl rfl

end Current

/-! ### Loading -/

/-- A suspended session reads nothing of an import. -/
theorem imported_ruleTree (s : Session) (document : Json) :
    (s.imported document).ruleTree = s.ruleTree := Entry.latestTree_unread s.ruleTree _

/-- A document without rules is rejected, and the store is left as it was. -/
theorem loadRules_malformed {s : Session} (hmade : s.store < s.stores.length) {document : Json}
    {cause : Malformation} (hrules : Rule.rulesOf document = .error cause) :
    s.loadRules document =
      (.ok [], (s.imported document).notify (.rejected "load_rule_tree" (.malformed cause))) ∧
    (s.imported document).desk.store = s.desk.store := by
  have hrun : s.importer.run document s.editDesk =
      (s.editDesk.count .importRejected).refuse (.malformed cause) := by
    rw [Rule.Importer.run, hrules]
  constructor
  · have hanswer : (s.resetGesture.suspend.edit (s.importer.run document)).1 =
        .error (.refused (.malformed cause)) := congrArg Prod.fst hrun
    unfold loadRules imported
    generalize s.resetGesture.suspend.edit (s.importer.run document) = edited at hanswer ⊢
    obtain ⟨result, s'⟩ := edited
    obtain rfl : result = .error (.refused (.malformed cause)) := hanswer
    rfl
  · rw [desk_imported hmade, hrun]
    rfl

/-- Rules are always imported to the end, and then the session compiles. -/
theorem Attached.loadRules_eq {s : Session} (hs : s.Attached) {document : Json} {rules : List Json}
    (hrules : Rule.rulesOf document = .ok rules) :
    ∃ issues added, s.loadRules document =
      (.ok issues, Session.recompile { s.imported document with
        notices := (s.imported document).notices ++ added }) := by
  obtain ⟨imported, desk, hrun, _⟩ := Rule.run_normal s.importer (d := s.editDesk) hs.catalog_eq
    hs.guarded hs.names hrules
  have hanswer : (s.resetGesture.suspend.edit (s.importer.run document)).1 = .ok imported :=
    congrArg Prod.fst hrun
  unfold loadRules Session.imported
  generalize s.resetGesture.suspend.edit (s.importer.run document) = edited at hanswer ⊢
  obtain ⟨result, s'⟩ := edited
  obtain rfl : result = .ok imported := hanswer
  exact ⟨_, _, rfl⟩

theorem Current.loadRules {s : Session} (hs : s.Current) (document : Json) :
    (s.loadRules document).2.Current := by
  have himported : (s.imported document).Attached := hs.toAttached.imported document
  cases hrules : Rule.rulesOf document with
  | error cause =>
      obtain ⟨hload, hstore⟩ := loadRules_malformed hs.made hrules
      have hgraph : (s.imported document).graph = s.graph := congrArg Store.graph hstore
      have hcurrent : (s.imported document).Current :=
        ⟨himported, by rw [imported_ruleTree, hgraph, hs.fresh]⟩
      rw [hload]
      exact hcurrent.notify _
  | ok rules =>
      -- The graph was cleared unread, so the session is current only if the import ends well.
      obtain ⟨issues, added, hload⟩ := hs.toAttached.loadRules_eq hrules
      rw [hload]
      refine Attached.recompile ?_
      exact himported.congr rfl rfl rfl rfl

theorem Current.loadGraph {s : Session} (hs : s.Current) (document : Json) :
    (s.loadGraph document).2.Current := by
  have hsettings : SameSettings (Desk.fresh s.catalog s.journal) (s.loaded document).2 :=
    (Desk.load_stepwise document s.lenient (Desk.fresh s.catalog s.journal)).settings
  have hunloaded : Current { s with journal := (s.loaded document).2.journal } :=
    hs.congr rfl rfl rfl hsettings.names rfl
  obtain hsession | ⟨n, hsession⟩ | hsession := s.loadGraph_session document
  · rw [hsession]
    exact (hs.toAttached.adopt hsettings).recompile
  · rw [hsession]
    exact hunloaded.notify n
  · rw [hsession]
    exact hunloaded

/-! ## Runs -/

/-- Every action, whether it succeeds or fails, leaves the session current. -/
theorem Current.act {s : Session} (hs : s.Current) (action : Action) (hids : action.TextIds) :
    (s.act action).Current := by
  cases action with
  | addNode kind payload => exact hs.addNode kind payload
  | deleteNode id => exact hs.guarded_edit _ fun d => d.removeNode_steps id
  | updatePayload id given => exact hs.guarded_edit _ fun d => d.updatePayload_steps id given
  | disconnect id => exact hs.guarded_edit _ fun d => d.disconnect_steps id
  | press x y => exact hs.perform fun c => c.press_desk x y ▸ .refl
  | move x y => exact hs.perform fun c => c.move_steps x y
  | release x y => exact hs.release x y
  | wheel dx dy modifier => exact hs.perform fun c => c.wheel_desk dx dy modifier ▸ .refl
  | zoomIn | zoomOut | resetView | setRect | resetGesture | drain =>
      exact hs.congr rfl rfl rfl rfl rfl
  | loadRules document => exact hs.loadRules document
  | loadGraph document => exact hs.loadGraph document
  | store operation => exact hs.edit (operation.run_stepwise (.inr hids))

theorem Current.foldl_act {s : Session} (hs : s.Current) (actions : List Action)
    (hids : ∀ action ∈ actions, action.TextIds) : (actions.foldl Session.act s).Current := by
  induction actions generalizing s with
  | nil => exact hs
  | cons action rest ih =>
      have hfirst : (s.act action).Current := hs.act action (hids action List.mem_cons_self)
      exact ih hfirst fun later hlater => hids later (List.mem_cons_of_mem action hlater)

theorem Current.start (catalog : Catalog) (bounds : ZoomBounds Double) (sensitivity : Double)
    (importer : Rule.Importer Double) (jitter : Jitter) (journal : Journal Double)
    (hcatalog : importer.context.catalog = catalog.orAttendance)
    (hnames : Function.Injective journal.ids.name) :
    (Session.start catalog bounds sensitivity importer jitter journal).Current := by
  refine Attached.recompile
    ⟨⟨Nat.one_pos, rfl, rfl, rfl⟩, rfl, fun place store hother hplace => ?_,
      rfl, hcatalog, rfl, hnames⟩
  cases place with
  | zero => exact (hother rfl).elim
  | succ place => cases hplace

/-- Whatever is done with a session whose importer has its catalog, and however it ends: afterwards
the rule tree is the compiled graph of the store under edit, which is one of those that were made,
and to which the canvas refers as well; no import has left the session suspended; and the session
has one subscription on that store and none on the others, which it replaced. -/
theorem ruleTree_current (catalog : Catalog) (bounds : ZoomBounds Double) (sensitivity : Double)
    (importer : Rule.Importer Double) (jitter : Jitter) (journal : Journal Double)
    (hcatalog : importer.context.catalog = catalog.orAttendance)
    (hnames : Function.Injective journal.ids.name) (actions : List Action)
    (hids : ∀ action ∈ actions, action.TextIds) :
    let s := actions.foldl Session.act
      (Session.start catalog bounds sensitivity importer jitter journal)
    s.ruleTree = s.desk.store.graph.ruleTree ∧ s.stores[s.store]? = some s.desk.store ∧
      s.interaction.store = s.store ∧ s.suspended = false ∧
      s.desk.store.listeners.count .owner = 1 ∧
      ∀ place store, place ≠ s.store → s.stores[place]? = some store →
        store.listeners.count .owner = 0 := by
  intro s
  have hstart : (Session.start catalog bounds sensitivity importer jitter journal).Current :=
    .start catalog bounds sensitivity importer jitter journal hcatalog hnames
  have hs : s.Current := hstart.foldl_act actions hids
  exact ⟨hs.fresh, hs.getElem?_store, hs.canvas, hs.heeding, hs.listening, hs.released⟩

/-- A store that was replaced, an import, and a connection to itself that is refused. -/
theorem ruleTree_current_sample :
    let bounds : ZoomBounds Double :=
      ⟨Scalar.ratio 1 10, Scalar.ratio 3 1, Scalar.ratio 1 10, by decide +kernel, by decide +kernel⟩
    let s := Session.start .attendance bounds (Scalar.ratio 1 1000) (usualImporter .attendance)
      ⟨fun _ => Double.zero false, 0⟩ ⟨.counting, []⟩
    let actions : List Action := [
      .store (.addNode (.str "Result") (.pair (.int 0) (.int 0)) .null .null false),
      .loadGraph (.obj []),
      .loadRules (.obj [("status_rules", .arr [.obj [("not", .bool true)]])]),
      .store (.connectRefs ⟨"n3", 0⟩ ⟨"n3", 0⟩ .null)]
    let s' := actions.foldl Session.act s
    (s'.ruleTree = s'.desk.store.graph.ruleTree ∧ s'.stores[s'.store]? = some s'.desk.store ∧
      s'.interaction.store = s'.store ∧ s'.suspended = false ∧
      s'.desk.store.listeners.count .owner = 1 ∧
      ∀ place store, place ≠ s'.store → s'.stores[place]? = some store →
        store.listeners.count .owner = 0) ∧
    s'.store = 1 ∧
    s'.stores.map (fun store => store.graph.nodes.map (·.id)) = [["n1"], ["n2", "n3", "n5"]] :=
  ⟨ruleTree_current _ _ _ _ _ _ rfl Rule.Importer.counting_injective _
      (by simp [Action.TextIds, Desk.Operation.TextIds, Json.IsTextId]),
    by decide +kernel, by decide +kernel⟩

end Session

end RuleCanvas
