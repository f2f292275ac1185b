import RuleCanvas.Proofs.Store.Reachable
import RuleCanvas.Session

/-! # Actions on a session

What may be done with a session, in any order and with any arguments: by its palette, inspector and
controls, with the pointer, by loading documents, and at its store past the session. The pointer
moves nodes and wires under fresh ids, so what it does to the store is a chain of steps without a
silent one. No action takes the soundness of the store away, also where the store is replaced.
-/

namespace RuleCanvas

/-! ## The pointer -/

namespace Canvas

open Desk

variable {α : Type} [Scalar α] {silent : Prop} {P : Desk α → Prop}

theorem press_desk (c : Canvas α) (x y : Reading α) : (c.press x y).2.desk = c.desk := by
  unfold press
  dsimp only
  split <;> rfl

theorem drag_keeps (hmove : ∀ id position, Edit.Keeps P fun d => d.moveNode id position)
    {c : Canvas α} (hc : P c.desk) (node : String) (grab world : Point α) :
    P (c.drag node grab world).2.desk := by
  have hdesk : P (c.desk.moveNode (.str node) (.ok (offset world grab))).2 :=
    hmove _ _ c.desk hc
  unfold drag
  split
  next hresult =>
    rw [hresult] at hdesk
    exact hdesk
  next hresult =>
    rw [hresult] at hdesk
    exact hdesk

/-- A pointer that moves does nothing to a store but move a node. -/
theorem move_keeps (hmove : ∀ id position, Edit.Keeps P fun d => d.moveNode id position)
    {c : Canvas α} (hc : P c.desk) (x y : Reading α) : P (c.move x y).2.desk := by
  unfold move
  split
  · exact hc
  · split <;> exact hc
  · split
    · exact hc
    · exact drag_keeps hmove hc _ _ _
  · split <;> exact hc

/-- A connection is drawn under a fresh id. -/
theorem finish_keeps (hlog : ∀ d line, P d → P (d.log line))
    (hconnect : ∀ source target, Edit.Keeps P fun d => d.connectRefs source target .null)
    {c : Canvas α} (hc : P c.desk) (source : PortRef) (world : Point α) :
    P (c.finish source world).2.desk := by
  unfold finish
  split
  next node index _ =>
    have hdesk : P (c.desk.connectRefs source ⟨node, index⟩ .null).2 :=
      hconnect _ _ c.desk hc
    split
    next hresult =>
      rw [hresult] at hdesk
      exact hdesk
    next hresult =>
      rw [hresult] at hdesk
      split
      · exact hlog _ _ hdesk
      · exact hdesk
    next hresult =>
      rw [hresult] at hdesk
      exact hdesk
  · exact hc

theorem release_keeps (hlog : ∀ d line, P d → P (d.log line))
    (hconnect : ∀ source target, Edit.Keeps P fun d => d.connectRefs source target .null)
    {c : Canvas α} (hc : P c.desk) (x y : Reading α) : P (c.release x y).2.desk := by
  have hidle : P { c with gesture := .idle }.desk := hc
  unfold release
  dsimp only
  split
  · split
    · exact hidle
    · exact finish_keeps hlog hconnect hidle _ _
  · exact hidle

theorem move_steps (c : Canvas α) (x y : Reading α) :
    Steps silent c.desk (c.move x y).2.desk :=
  move_keeps (fun id position d hd => hd.trans (d.moveNode_steps id position)) .refl x y

theorem release_steps (c : Canvas α) (x y : Reading α) :
    Steps silent c.desk (c.release x y).2.desk :=
  release_keeps (fun d line hd => hd.tail (.log d line))
    (fun source target d hd => hd.trans (d.connectRefs_steps source target (.inr (.inl rfl)))) .refl
    x y

theorem wheel_desk (c : Canvas α) (dx dy : Reading α) (modifier : Bool) :
    (c.wheel dx dy modifier).2.desk = c.desk := by
  unfold wheel
  split <;> split <;> rfl

end Canvas

/-! ## Actions -/

namespace Session

/-- Something done with a session, with all that it is given. -/
inductive Action where
  | addNode (kind payload : Json)
  | deleteNode (id : Json)
  | updatePayload (id given : Json)
  | disconnect (id : Json)
  | press (x y : Reading Double)
  | move (x y : Reading Double)
  | release (x y : Reading Double)
  | wheel (dx dy : Reading Double) (modifier : Bool)
  | zoomIn
  | zoomOut
  | resetView
  /-- The canvas is laid out anew on the screen. -/
  | setRect (x y : Reading Double) (width height : Option (Reading Double))
  | resetGesture
  | drain
  | loadRules (document : Json)
  | loadGraph (document : Json)
  /-- An operation on the store of the session, past the session. -/
  | store (operation : Desk.Operation)

/-- Whether the ids that are given to the store past the session are texts or left out. -/
def Action.TextIds : Action → Prop
  | .store operation => operation.TextIds
  | _ => True

/-- The session after an action, whether it succeeded or failed. -/
def act (s : Session) : Action → Session
  | .addNode kind payload => (s.addNode kind payload).2
  | .deleteNode id => (s.deleteNode id).2
  | .updatePayload id given => (s.updatePayload id given).2
  | .disconnect id => (s.disconnect id).2
  | .press x y => (s.press x y).2
  | .move x y => (s.move x y).2
  | .release x y => (s.release x y).2
  | .wheel dx dy modifier => (s.wheel dx dy modifier).2
  | .zoomIn => (s.view fun v => ((), v.zoomIn)).2
  | .zoomOut => (s.view fun v => ((), v.zoomOut)).2
  | .resetView => (s.view fun v => ((), v.reset)).2
  | .setRect x y width height => (s.view fun v => v.setRect x y width height).2
  | .resetGesture => s.resetGesture
  | .drain => s.drain.2
  | .loadRules document => (s.loadRules document).2
  | .loadGraph document => (s.loadGraph document).2
  | .store operation => (s.edit operation.run).2

/-! ## References to stores -/

/-- The desk on which an operation on the store under edit starts. -/
def editDesk (s : Session) : Desk Double := s.page s.store

/-- The canvas on which an operation on it starts. -/
def editCanvas (s : Session) : Canvas Double := s.interaction.on (s.page s.interaction.store)

/-- The canvas and the way to unsubscribe lead to the store under edit, which is one of those made;
and the session is not suspended. -/
structure Joined (s : Session) : Prop where
  made : s.store < s.stores.length
  canvas : s.interaction.store = s.store
  subscription : s.subscription = s.store
  heeding : s.suspended = false

section

variable {β : Type} {s : Session} {place : Nat}

theorem deskAt_runAt (hplace : place < s.stores.length)
    (operation : Desk Double → β × Desk Double) :
    (s.runAt place operation).2.deskAt place =
      ⟨(operation (s.page place)).2.store, (s.runAt place operation).2.journal⟩ := by
  change (⟨(s.stores.set place _)[place]?.getD _, _⟩ : Desk Double) = _
  rw [List.getElem?_set_self hplace, Option.getD_some]

/-- The store under edit is as an operation on it leaves it. -/
theorem desk_edit (hmade : s.store < s.stores.length) (operation : Edit Double β) :
    (s.edit operation).2.desk =
      ⟨(operation s.editDesk).2.store, (s.edit operation).2.journal⟩ := deskAt_runAt hmade operation

/-- What the pointer does to the canvas it does to the store under edit. -/
theorem Joined.desk_perform (hs : s.Joined) (operation : Canvas Double → β × Canvas Double) :
    (s.perform operation).2.desk =
      ⟨(operation s.editCanvas).2.desk.store, (s.perform operation).2.journal⟩ := by
  have hmade : s.interaction.store < s.stores.length := hs.canvas ▸ hs.made
  change (s.perform operation).2.deskAt s.store = _
  rw [← hs.canvas]
  exact deskAt_runAt hmade fun d =>
    (((operation (s.interaction.on d)).1, s.interaction.after (operation (s.interaction.on d)).2),
      (operation (s.interaction.on d)).2.desk)

theorem Joined.getElem?_store (hs : s.Joined) : s.stores[s.store]? = some s.desk.store := by
  change _ = some ((s.stores[s.store]?).getD _)
  rw [List.getElem?_eq_getElem hs.made, Option.getD_some]

theorem Joined.set_desk (hs : s.Joined) : s.stores.set s.store s.desk.store = s.stores := by
  obtain ⟨_, hstore⟩ := List.getElem?_eq_some_iff.mp hs.getElem?_store
  rw [← hstore, List.set_getElem_self]

theorem Joined.editCanvas_desk (hs : s.Joined) : s.editCanvas.desk = s.editDesk :=
  congrArg s.page hs.canvas

/-- A change of the store under edit is compiled as it is heard of. -/
theorem Joined.reads_store (hs : s.Joined) : s.reads s.store = some := by
  funext g
  simp [reads, hs.heeding]

theorem desk_adopt (s : Session) (d : Desk Double) :
    (s.adopt d).desk = ⟨d.store.subscribe .owner, d.journal⟩ := by
  simp [adopt, desk, deskAt, unsubscribe, resetGesture, subscribe]

/-- Of the stores that were made before, a new one costs only the subscription
at the one under edit. -/
theorem stores_adopt {d : Desk Double} (hother : place ≠ (s.adopt d).store) :
    (s.adopt d).stores[place]? = s.unsubscribe.stores[place]? := by
  change place ≠ s.unsubscribe.stores.length at hother
  change ((s.unsubscribe.stores ++ [d.store]).modify s.unsubscribe.stores.length _)[place]? = _
  rw [List.getElem?_modify_ne _ _ (Ne.symm hother)]
  rcases Nat.lt_or_ge place s.unsubscribe.stores.length with hmade | hmissing
  · exact List.getElem?_append_left hmade
  · have hbeyond : (s.unsubscribe.stores ++ [d.store]).length ≤ place := by
      rw [List.length_append]
      exact Nat.lt_of_le_of_ne hmissing (Ne.symm hother)
    rw [List.getElem?_eq_none hbeyond, List.getElem?_eq_none hmissing]

end

/-! ## Sessions after guarded operations and loading -/

/-- A guarded operation does what it does unguarded, and may add a notice. -/
theorem guarded_session {β : Type} (s : Session) (action : String) (operation : Edit Double β) :
    (s.guarded action operation).2 = (s.edit operation).2 ∨
      ∃ n, (s.guarded action operation).2 = (s.edit operation).2.notify n := by
  unfold guarded
  rcases s.edit operation with ⟨result, s'⟩
  cases result with
  | ok b => exact .inl rfl
  | error fault =>
      cases fault with
      | refused refusal => exact .inr ⟨_, rfl⟩
      | _ => exact .inl rfl

/-- Letting the pointer go does what the canvas does, and may add a notice. -/
theorem release_session (s : Session) (x y : Reading Double) :
    ∃ added, (s.release x y).2 = { (s.perform fun c => c.release x y).2 with
      notices := (s.perform fun c => c.release x y).2.notices ++ added } := by
  unfold release
  rcases s.perform fun c => c.release x y with ⟨result, s'⟩
  have hnone : s' = { s' with notices := s'.notices ++ [] } := by rw [List.append_nil]
  cases result with
  | ok notice =>
      cases notice with
      | some n => exact ⟨[n], rfl⟩
      | none => exact ⟨[], hnone⟩
  | error fault => exact ⟨[], hnone⟩

/-- The session as an import leaves it: suspended while the rules are placed, and resumed. -/
def imported (s : Session) (document : Json) : Session :=
  (s.resetGesture.suspend.edit (s.importer.run document)).2.resume

theorem desk_imported {s : Session} (hmade : s.store < s.stores.length) (document : Json) :
    (s.imported document).desk =
      ⟨(s.importer.run document s.editDesk).2.store, (s.imported document).journal⟩ :=
  desk_edit (s := s.resetGesture.suspend) hmade (s.importer.run document)

/-- Loading rules imports them; then the session compiles, or it is told that there are none. -/
theorem loadRules_session (s : Session) (document : Json) :
    (∃ added, (s.loadRules document).2 = Session.recompile { s.imported document with
      notices := (s.imported document).notices ++ added }) ∨
    (∃ n, (s.loadRules document).2 = (s.imported document).notify n) ∨
    (s.loadRules document).2 = s.imported document := by
  unfold loadRules imported
  rcases s.resetGesture.suspend.edit (s.importer.run document) with ⟨result, s'⟩
  cases result with
  | ok imported => exact .inl ⟨_, rfl⟩
  | error fault =>
      cases fault with
      | refused refusal => exact .inr (.inl ⟨_, rfl⟩)
      | _ => exact .inr (.inr rfl)

/-- The desk at which a graph document was loaded, and how that ended. -/
def loaded (s : Session) (document : Json) : Except Fault Unit × Desk Double :=
  Desk.load document s.lenient (Desk.fresh s.catalog s.journal)

/-- A graph document that can be loaded is taken up. Of one that cannot, the journal tells
and possibly a notice. -/
theorem loadGraph_session (s : Session) (document : Json) :
    let unloaded := { s with journal := (s.loaded document).2.journal }
    (s.loadGraph document).2 = (s.adopt (s.loaded document).2).recompile ∨
    (∃ n, (s.loadGraph document).2 = unloaded.notify n) ∨ (s.loadGraph document).2 = unloaded := by
  unfold loadGraph loaded
  rcases Desk.load document s.lenient (Desk.fresh s.catalog s.journal) with ⟨result, desk⟩
  cases result with
  | ok _ => exact .inl rfl
  | error fault =>
      dsimp only
      split
      · exact .inr (.inl ⟨_, rfl⟩)
      · split
        · exact .inr (.inl ⟨_, rfl⟩)
        · exact .inr (.inr rfl)

/-! ## What no action touches -/

/-- The catalog and the importer of a session. -/
def setup (s : Session) : Catalog × Rule.Importer Double := (s.catalog, s.importer)

theorem guarded_setup {β : Type} (s : Session) (action : String) (operation : Edit Double β) :
    (s.guarded action operation).2.setup = s.setup := by
  obtain hsession | ⟨n, hsession⟩ := s.guarded_session action operation <;>
  · rw [hsession]
    rfl

theorem addNode_setup (s : Session) (kind payload : Json) :
    (s.addNode kind payload).2.setup = s.setup := by
  unfold addNode
  split
  · rfl
  · exact s.draws.2.guarded_setup _ _

theorem release_setup (s : Session) (x y : Reading Double) :
    (s.release x y).2.setup = s.setup := by
  obtain ⟨added, hsession⟩ := s.release_session x y
  rw [hsession]
  rfl

theorem loadRules_setup (s : Session) (document : Json) :
    (s.loadRules document).2.setup = s.setup := by
  obtain ⟨added, hsession⟩ | ⟨n, hsession⟩ | hsession := s.loadRules_session document <;>
  · rw [hsession]
    rfl

theorem loadGraph_setup (s : Session) (document : Json) :
    (s.loadGraph document).2.setup = s.setup := by
  obtain hsession | ⟨n, hsession⟩ | hsession := s.loadGraph_session document <;>
  · rw [hsession]
    rfl

theorem act_setup (s : Session) (action : Action) : (s.act action).setup = s.setup := by
  cases action with
  | addNode kind payload => exact s.addNode_setup kind payload
  | deleteNode | updatePayload | disconnect => exact s.guarded_setup _ _
  | release x y => exact s.release_setup x y
  | loadRules document => exact s.loadRules_setup document
  | loadGraph document => exact s.loadGraph_setup document
  | _ => rfl

/-! ## What holds of the references -/

/-- The references to stores, with the number of stores to which they may lead, and whether the
session is suspended. -/
def references (s : Session) : Nat × Nat × Nat × Nat × Bool :=
  (s.stores.length, s.store, s.interaction.store, s.subscription, s.suspended)

namespace Joined

variable {β : Type} {s s' : Session}

/-- It does not matter what the stores hold, nor what was told. -/
theorem congr (hs : s.Joined) (hsame : s'.references = s.references) : s'.Joined := by
  simp only [references, Prod.mk.injEq] at hsame
  obtain ⟨hlength, hstore, hcanvas, hsubscription, hsuspended⟩ := hsame
  constructor
  · rw [hstore, hlength]
    exact hs.made
  · rw [hcanvas, hstore]
    exact hs.canvas
  · rw [hsubscription, hstore]
    exact hs.subscription
  · rw [hsuspended]
    exact hs.heeding

theorem edit (hs : s.Joined) (operation : Edit Double β) : (s.edit operation).2.Joined :=
  hs.congr (congrArg (·, _) List.length_set)

theorem perform (hs : s.Joined) (operation : Canvas Double → β × Canvas Double) :
    (s.perform operation).2.Joined := hs.congr (congrArg (·, _) List.length_set)

theorem guarded (hs : s.Joined) (action : String) (operation : Edit Double β) :
    (s.guarded action operation).2.Joined := by
  have hedit : (s.edit operation).2.Joined := hs.edit operation
  obtain hsession | ⟨n, hsession⟩ := s.guarded_session action operation
  · rw [hsession]
    exact hedit
  · rw [hsession]
    exact hedit.congr rfl

/-- An import ends the suspension that it began. -/
theorem imported (hs : s.Joined) (document : Json) : (s.imported document).Joined where
  made := Nat.lt_of_lt_of_eq hs.made List.length_set.symm
  canvas := hs.canvas
  subscription := hs.subscription
  heeding := rfl

/-- With a store, both references to it are replaced, and so is the subscription. -/
theorem adopt (hs : s.suspended = false) (d : Desk Double) : (s.adopt d).Joined where
  made := by simp [Session.adopt, unsubscribe, resetGesture, subscribe]
  canvas := rfl
  subscription := rfl
  heeding := hs

theorem act (hs : s.Joined) (action : Action) : (s.act action).Joined := by
  cases action with
  | addNode kind payload =>
      change (s.addNode kind payload).2.Joined
      unfold Session.addNode
      split
      · exact hs
      · have hdraws : s.draws.2.Joined := hs.congr rfl
        exact hdraws.guarded _ _
  | deleteNode | updatePayload | disconnect => exact hs.guarded _ _
  | press | move | wheel => exact hs.perform _
  | release x y =>
      obtain ⟨added, hsession⟩ := s.release_session x y
      change (s.release x y).2.Joined
      rw [hsession]
      exact (hs.perform fun c => c.release x y).congr rfl
  | zoomIn | zoomOut | resetView | setRect | resetGesture | drain =>
      exact hs.congr rfl
  | loadRules document =>
      change (s.loadRules document).2.Joined
      obtain ⟨added, hsession⟩ | ⟨n, hsession⟩ | hsession := s.loadRules_session document <;>
      · rw [hsession]
        exact (hs.imported document).congr rfl
  | loadGraph document =>
      change (s.loadGraph document).2.Joined
      obtain hsession | ⟨n, hsession⟩ | hsession := s.loadGraph_session document
      · rw [hsession]
        exact (adopt hs.heeding _).congr rfl
      · rw [hsession]
        exact hs.congr rfl
      · rw [hsession]
        exact hs.congr rfl
  | store operation => exact hs.edit _

theorem foldl_act (hs : s.Joined) (actions : List Action) :
    (actions.foldl Session.act s).Joined := by
  induction actions generalizing s with
  | nil => exact hs
  | cons action rest ih => exact ih (hs.act action)

theorem start (catalog : Catalog) (bounds : ZoomBounds Double) (sensitivity : Double)
    (importer : Rule.Importer Double) (jitter : Jitter) (journal : Journal Double) :
    (Session.start catalog bounds sensitivity importer jitter journal).Joined :=
  ⟨Nat.one_pos, rfl, rfl, rfl⟩

end Joined

/-! ## What an action keeps -/

open Desk (Sound Steps Stepwise)

/-- A property of desks that does not see who listens, nor what the journal says. -/
def IgnoresNotes (P : Desk Double → Prop) : Prop :=
  ∀ (d : Desk Double) (listeners : List Listener) (journal : Journal Double),
    journal.ids.name = d.journal.ids.name → P d → P ⟨{ d.store with listeners }, journal⟩

section

variable {P : Desk Double → Prop} {s : Session}

/-- An operation on the store, between a journal put aside and the notes on what it did. -/
theorem edit_keeps {β : Type} (hP : IgnoresNotes P) (hmade : s.store < s.stores.length)
    (hs : P s.desk) {operation : Edit Double β} (hoperation : operation.Keeps P) :
    P (s.edit operation).2.desk := by
  have hpage : P s.editDesk := hP s.desk s.desk.store.listeners _ rfl hs
  rw [desk_edit hmade]
  exact hP (operation s.editDesk).2 (operation s.editDesk).2.store.listeners _ rfl
    (hoperation s.editDesk hpage)

theorem perform_keeps {β : Type} (hP : IgnoresNotes P) (hjoined : s.Joined) (hs : P s.desk)
    {operation : Canvas Double → β × Canvas Double}
    (hoperation : ∀ c, P c.desk → P (operation c).2.desk) : P (s.perform operation).2.desk := by
  have hpage : P s.editCanvas.desk :=
    hjoined.editCanvas_desk ▸ hP s.desk s.desk.store.listeners _ rfl hs
  rw [hjoined.desk_perform]
  exact hP (operation s.editCanvas).2.desk (operation s.editCanvas).2.desk.store.listeners _ rfl
    (hoperation s.editCanvas hpage)

theorem notify_keeps (hP : IgnoresNotes P) (hs : P s.desk) (n : Notice) : P (s.notify n).desk :=
  hP s.desk s.desk.store.listeners _ rfl hs

theorem guarded_keeps {β : Type} (hP : IgnoresNotes P) (hmade : s.store < s.stores.length)
    (hs : P s.desk) (action : String) {operation : Edit Double β}
    (hoperation : operation.Keeps P) : P (s.guarded action operation).2.desk := by
  have hedit : P (s.edit operation).2.desk := edit_keeps hP hmade hs hoperation
  obtain hsession | ⟨n, hsession⟩ := s.guarded_session action operation
  · rw [hsession]
    exact hedit
  · rw [hsession]
    exact notify_keeps hP hedit n

theorem addNode_keeps (hP : IgnoresNotes P) (hmade : s.store < s.stores.length) (hs : P s.desk)
    (kind payload : Json)
    (hadd : ∀ position,
      Edit.Keeps P fun d => d.addNode kind (.ok position) payload .null false) :
    P (s.addNode kind payload).2.desk := by
  unfold addNode
  split
  · exact hs
  · have hdraws : P s.draws.2.desk := hs
    exact guarded_keeps (s := s.draws.2) hP hmade hdraws _ (hadd _)

theorem release_keeps (hP : IgnoresNotes P) (hjoined : s.Joined) (hs : P s.desk)
    (x y : Reading Double) (hrelease : ∀ c : Canvas Double, P c.desk → P (c.release x y).2.desk) :
    P (s.release x y).2.desk := by
  have hperform : P (s.perform fun c => c.release x y).2.desk :=
    perform_keeps hP hjoined hs hrelease
  obtain ⟨added, hsession⟩ := s.release_session x y
  rw [hsession]
  exact hperform

theorem loadRules_keeps (hP : IgnoresNotes P) (hmade : s.store < s.stores.length) (hs : P s.desk)
    (document : Json) (hrun : (s.importer.run document).Keeps P) :
    P (s.loadRules document).2.desk := by
  have himported : P (s.imported document).desk :=
    edit_keeps (s := s.resetGesture.suspend) hP hmade hs hrun
  obtain ⟨added, hsession⟩ | ⟨n, hsession⟩ | hsession := s.loadRules_session document
  · rw [hsession]
    exact hP (s.imported document).desk (s.imported document).desk.store.listeners _ rfl himported
  · rw [hsession]
    exact notify_keeps hP himported n
  · rw [hsession]
    exact himported

/-- A graph document is loaded into a store of its own, so the old one stays where that fails. -/
theorem loadGraph_keeps (hP : IgnoresNotes P) (hs : P s.desk) (document : Json)
    (hfresh : P (Desk.fresh s.catalog s.journal))
    (hload : (Desk.load document s.lenient).Keeps P) : P (s.loadGraph document).2.desk := by
  have hloaded : P (s.loaded document).2 := hload _ hfresh
  have hnames : (s.loaded document).2.journal.ids.name = s.journal.ids.name :=
    (Desk.load_stepwise document s.lenient (Desk.fresh s.catalog s.journal)).settings.names
  have hunloaded : P { s with journal := (s.loaded document).2.journal }.desk :=
    hP s.desk s.desk.store.listeners _ hnames hs
  obtain hsession | ⟨n, hsession⟩ | hsession := s.loadGraph_session document
  · have hadopted : P (s.adopt (s.loaded document).2).desk := by
      rw [desk_adopt]
      exact hP (s.loaded document).2 _ _ rfl hloaded
    rw [hsession]
    exact hP (s.adopt (s.loaded document).2).desk _ _ rfl hadopted
  · rw [hsession]
    exact notify_keeps hP hunloaded n
  · rw [hsession]
    exact hunloaded

end

/-- Whether what an action of a session does to a store keeps a property. -/
def Action.Keeps (P : Desk Double → Prop) (s : Session) : Action → Prop
  | .addNode kind payload =>
    ∀ position, Edit.Keeps P fun d => d.addNode kind (.ok position) payload .null false
  | .deleteNode id => Edit.Keeps P fun d => d.removeNode id
  | .updatePayload id given => Edit.Keeps P fun d => d.updatePayload id given
  | .disconnect id => Edit.Keeps P fun d => d.disconnect id
  | .move x y => ∀ c : Canvas Double, P c.desk → P (c.move x y).2.desk
  | .release x y => ∀ c : Canvas Double, P c.desk → P (c.release x y).2.desk
  | .loadRules document => (s.importer.run document).Keeps P
  | .loadGraph document =>
    P (Desk.fresh s.catalog s.journal) ∧ (Desk.load document s.lenient).Keeps P
  | .store operation => operation.run.Keeps P
  | _ => True

/-- An action keeps of the store of a session what it keeps of every store. -/
theorem act_keeps {P : Desk Double → Prop} (hP : IgnoresNotes P) {s : Session}
    (hjoined : s.Joined) (hs : P s.desk) {action : Action} (haction : action.Keeps P s) :
    P (s.act action).desk := by
  have hmade : s.store < s.stores.length := hjoined.made
  cases action with
  | addNode kind payload => exact addNode_keeps hP hmade hs kind payload haction
  | deleteNode | updatePayload | disconnect => exact guarded_keeps hP hmade hs _ haction
  | press x y => exact perform_keeps hP hjoined hs fun c hc => (c.press_desk x y).symm ▸ hc
  | move x y => exact perform_keeps hP hjoined hs haction
  | release x y => exact release_keeps hP hjoined hs x y haction
  | wheel dx dy modifier =>
      exact perform_keeps hP hjoined hs fun c hc => (c.wheel_desk dx dy modifier).symm ▸ hc
  | zoomIn | zoomOut | resetView | setRect | resetGesture | drain => exact hs
  | loadRules document => exact loadRules_keeps hP hmade hs document haction
  | loadGraph document => exact loadGraph_keeps hP hs document haction.1 haction.2
  | store operation => exact edit_keeps hP hmade hs haction

/-- What every step keeps and an empty store has, every action keeps. -/
theorem Action.keeps_of_step {P : Desk Double → Prop} {s : Session}
    (hstep : ∀ d d', Desk.Step True d d' → P d → P d')
    (hfresh : P (Desk.fresh s.catalog s.journal)) (action : Action) : action.Keeps P s := by
  have hsteps : ∀ {d d'}, Steps True d d' → P d → P d' := fun hsteps => hsteps.keep hstep
  cases action with
  | addNode => exact fun _ d => hsteps (d.addNode_steps _ _ _ _ _)
  | deleteNode id => exact fun d => hsteps (d.removeNode_steps id)
  | updatePayload id given => exact fun d => hsteps (d.updatePayload_steps id given)
  | disconnect id => exact fun d => hsteps (d.disconnect_steps id)
  | move x y => exact fun c => hsteps (c.move_steps x y)
  | release x y => exact fun c => hsteps (c.release_steps x y)
  | loadRules document => exact fun d => hsteps (s.importer.run_stepwise document d)
  | loadGraph document => exact ⟨hfresh, fun d => hsteps (Desk.load_stepwise document _ d)⟩
  | store operation => exact fun d => hsteps (operation.run_stepwise (.inl trivial) d)
  | _ => trivial

/-! ## Sound stores -/

theorem act_sound {s : Session} (hjoined : s.Joined) (hs : s.desk.Sound) (action : Action) :
    (s.act action).desk.Sound :=
  act_keeps (fun _ _ _ _ hd => hd) hjoined hs
    (action.keeps_of_step (fun _ _ hstep => hstep.sound) (.fresh _ _))

/-- However a session is used, its store stays sound. -/
theorem foldl_act_sound {s : Session} (hjoined : s.Joined) (hs : s.desk.Sound)
    (actions : List Action) : (actions.foldl Session.act s).desk.Sound := by
  induction actions generalizing s with
  | nil => exact hs
  | cons action rest ih => exact ih (hjoined.act action) (act_sound hjoined hs action)

theorem start_sound (catalog : Catalog) (bounds : ZoomBounds Double) (sensitivity : Double)
    (importer : Rule.Importer Double) (jitter : Jitter) (journal : Journal Double) :
    (start catalog bounds sensitivity importer jitter journal).desk.Sound :=
  Sound.fresh catalog.orAttendance journal

end Session

end RuleCanvas
