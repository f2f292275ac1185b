import RuleCanvas.Proofs.Session.Contained
import RuleCanvas.Proofs.Store.Rebuilt

/-! # The pointer

What the pointer and the wheel can change. Nodes keep their ids, their order and their
payloads; a node moves only while it is dragged, edges change only where a drawn connection is
dropped over an input, and the view changes only by panning and by the wheel. Payloads are kept
because the ids in a store differ: a move puts back the node that was found under the id of the
dragged one, and no other.
-/

namespace RuleCanvas

variable {α : Type}

/-! ## What a graph keeps -/

namespace Graph

/-- What there is to the nodes besides their positions, in order. -/
def cards (g : Graph α) : List (String × Payload) := g.nodes.map fun n => (n.id, n.payload)

def position? (g : Graph α) (id : String) : Option (Point α) := (g.node? id).map (·.position)

theorem cards_congr {g h : Graph α} (hnodes : h.nodes = g.nodes) : h.cards = g.cards :=
  congrArg (List.map fun n : Node α => (n.id, n.payload)) hnodes

theorem position?_congr {g h : Graph α} (hnodes : h.nodes = g.nodes) (id : String) :
    h.position? id = g.position? id := by rw [position?, position?, node?, node?, hnodes]

theorem position?_setNode_of_ne (g : Graph α) {n : Node α} {id : String} (hne : id ≠ n.id) :
    (g.setNode n).position? id = g.position? id := by
  rw [position?, position?, node?_setNode]
  cases hnode : g.node? id with
  | none => rfl
  | some m =>
      have hother : m.id ≠ n.id := (id_of_node?_eq_some hnode).symm ▸ hne
      simp [hother]

/-- Among nodes of different ids, putting a node back elsewhere changes nothing but its position. -/
theorem cards_setNode {g : Graph α} (hnodup : (g.nodes.map (·.id)).Nodup) {n : Node α}
    (hnode : g.node? n.id = some n) (p : Point α) :
    (g.setNode { n with x := p.x, y := p.y }).cards = g.cards := by
  rw [cards, cards, setNode, List.map_map]
  apply List.map_congr_left
  intro m hm
  by_cases heq : m.id = n.id
  · have hsame : m = n := List.inj_on_of_nodup_map hnodup hm (mem_of_node?_eq_some hnode) heq
    subst hsame
    simp
  · simp [heq]

end Graph

/-! ## What the store makes of it -/

namespace Store

theorem canConnect_toDocument (s : Store α) (source target : PortRef) :
    s.canConnect source.toDocument target.toDocument = (s.check source target).isOk := by
  have hgiven : s.checkGiven source.toDocument target.toDocument =
      (s.check source target).bind fun _ => .ok (source, target) := by
    rw [checkGiven, Desk.readRef_toDocument, Desk.readRef_toDocument]
    rfl
  rw [canConnect, hgiven]
  cases s.check source target <;> rfl

/-- What connecting two ports under the next id comes to: the answer, and the store after it. -/
def connected (s : Store α) (id : String) (source target : PortRef) :
    Except Fault String × Store α :=
  match s.check source target with
  | .error refusal => (.error (.refused refusal), s)
  | .ok _ =>
    if s.graph.hasEdge id then (.error (.refused (.edgeTaken (.str id))), s)
    else (.ok id, { s with graph := (s.graph.vacate target).insertEdge ⟨id, source, target⟩ })

theorem connected_of_not_canConnect {s : Store α} {source target : PortRef}
    (hno : ¬ s.canConnect source.toDocument target.toDocument = true) (id : String) :
    (s.connected id source target).2 = s := by
  rw [canConnect_toDocument] at hno
  unfold connected
  cases hcheck : s.check source target with
  | error refusal => rfl
  | ok types =>
      rw [hcheck] at hno
      exact (hno rfl).elim

end Store

namespace Desk

/-- A move either leaves the store, or puts the node that is named back elsewhere. -/
theorem moveNode_store (d : Desk α) (id : String) (position : Except Fault (Point α)) :
    (d.moveNode (.str id) position).2.store = d.store ∨
      ∃ (n : Node α) (p : Point α), n.id = id ∧ d.graph.node? n.id = some n ∧
        (d.moveNode (.str id) position).2.graph =
          d.graph.setNode { n with x := p.x, y := p.y } := by
  unfold moveNode Graph.findNode
  dsimp only
  cases hnode : d.graph.node? id with
  | none => exact .inl rfl
  | some n =>
      obtain rfl : n.id = id := Graph.id_of_node?_eq_some hnode
      cases position with
      | error fault => exact .inl rfl
      | ok p => exact .inr ⟨n, p, rfl, hnode, rfl⟩

/-- A connection under a fresh id depends on the store and the id that is next. -/
theorem connectRefs_fresh (d : Desk α) (source target : PortRef) :
    ((d.connectRefs source target .null).1, (d.connectRefs source target .null).2.store) =
      d.store.connected d.journal.draw.1 source target := by
  unfold connectRefs Store.connected
  cases d.store.check source target with
  | error refusal => rfl
  | ok types =>
      rw [wire, chooseId_missing d rfl]
      dsimp only
      by_cases htaken : d.store.graph.hasEdge d.journal.draw.1 = true
      · have htaken' : ({ d with journal := d.journal.draw.2 } : Desk α).graph.hasEdge
            d.journal.draw.1 = true := htaken
        rw [if_pos htaken, if_pos htaken']
        rfl
      · have htaken' : ¬ ({ d with journal := d.journal.draw.2 } : Desk α).graph.hasEdge
            d.journal.draw.1 = true := htaken
        rw [if_neg htaken, if_neg htaken']
        rfl

end Desk

/-! ## Dropping a connection -/

namespace Canvas

variable [Scalar α]

theorem press_viewport (c : Canvas α) (x y : Reading α) :
    (c.press x y).2.viewport = c.viewport := by
  unfold press
  dsimp only
  split <;> rfl

/-- The view moves with the pointer only while it is panned. -/
theorem move_viewport (c : Canvas α) (x y : Reading α) :
    (c.move x y).2.viewport = c.viewport ∨ ∃ last, c.gesture = .panning last := by
  unfold move
  split
  · exact .inl rfl
  · split <;> exact .inl rfl
  · split
    · exact .inl rfl
    · exact .inl (c.drag_viewport _ _ _)
  next last hgesture => exact .inr ⟨last, hgesture⟩

/-- A node moves with the pointer only while it is dragged. -/
theorem move_store (c : Canvas α) (x y : Reading α) :
    (c.move x y).2.desk.store = c.desk.store ∨
      ∃ id grab position, c.gesture = .dragging id grab ∧
        (c.move x y).2.desk.store = (c.desk.moveNode (.str id) position).2.store := by
  unfold move
  split
  · exact .inl rfl
  · split <;> exact .inl rfl
  next id grab hgesture =>
    split
    · exact .inl rfl
    next world _ =>
      refine .inr ⟨id, grab, .ok (offset world grab), hgesture, ?_⟩
      unfold drag
      split <;> (next hresult => rw [hresult])
  · split <;> exact .inl rfl

theorem finish_gesture (c : Canvas α) (source : PortRef) (world : Point α) :
    (c.finish source world).2.gesture = c.gesture := by
  unfold finish
  split
  · split
    · rfl
    · split <;> rfl
    · rfl
  · rfl

/-- The notices that an answer of the pointer asks for. -/
def asked : Except Fault (Option Notice) → List Notice
  | .ok (some notice) => [notice]
  | _ => []

/-- The notices that the answer to a connection is worth. -/
def worth : Except Fault String → List Notice
  | .ok _ => []
  | .error fault => (connectionNotice? fault).toList

theorem finish_over {c : Canvas α} {world : Point α} {target : PortRef}
    (hhit : c.desk.graph.hit? world = some (.port target.node .input target.port))
    (source : PortRef) :
    asked (c.finish source world).1 = worth (c.desk.connectRefs source target .null).1 ∧
      (c.finish source world).2.desk.store =
        (c.desk.connectRefs source target .null).2.store := by
  obtain ⟨node, index⟩ := target
  unfold finish
  rw [hhit]
  dsimp only
  rcases c.desk.connectRefs source ⟨node, index⟩ .null with ⟨result, desk⟩
  cases result with
  | ok id => exact ⟨rfl, rfl⟩
  | error fault =>
      cases fault with
      | refused refusal =>
          dsimp only [worth]
          cases connectionNotice? (.refused refusal) <;> exact ⟨rfl, rfl⟩
      | _ => exact ⟨rfl, rfl⟩

theorem finish_elsewhere {c : Canvas α} {world : Point α}
    (hmiss : ∀ target : PortRef,
      c.desk.graph.hit? world ≠ some (.port target.node .input target.port)) (source : PortRef) :
    c.finish source world = (.ok none, c) := by
  unfold finish
  split
  next node index hhit => exact (hmiss ⟨node, index⟩ hhit).elim
  · rfl

/-- A connection is drawn from `source`, and the pointer is over the input `target`. -/
def Aims (c : Canvas α) (x y : Reading α) (source target : PortRef) : Prop :=
  ∃ cursor world, c.gesture = .drawing source cursor ∧ c.viewport.toWorld x y = .ok world ∧
    c.desk.graph.hit? world = some (.port target.node .input target.port)

theorem release_gesture (c : Canvas α) (x y : Reading α) : (c.release x y).2.gesture = .idle := by
  unfold release
  dsimp only
  split
  · split
    · rfl
    · exact finish_gesture _ _ _
  · rfl

theorem release_viewport (c : Canvas α) (x y : Reading α) :
    (c.release x y).2.viewport = c.viewport := by
  unfold release
  dsimp only
  split
  · split
    · rfl
    · exact finish_viewport _ _ _
  · rfl

theorem release_over {c : Canvas α} {x y : Reading α} {source target : PortRef}
    (haims : c.Aims x y source target) :
    asked (c.release x y).1 = worth (c.desk.connectRefs source target .null).1 ∧
      (c.release x y).2.desk.store = (c.desk.connectRefs source target .null).2.store := by
  obtain ⟨cursor, world, hgesture, hworld, hhit⟩ := haims
  unfold release
  rw [hgesture]
  dsimp only
  rw [hworld]
  exact finish_over (c := { c with gesture := .idle }) hhit source

theorem release_elsewhere {c : Canvas α} {x y : Reading α}
    (hmiss : ∀ source target, ¬ c.Aims x y source target) :
    asked (c.release x y).1 = [] ∧ (c.release x y).2.desk = c.desk := by
  unfold release
  dsimp only
  split
  next source cursor hgesture =>
    split
    · exact ⟨rfl, rfl⟩
    next world hworld =>
      rw [finish_elsewhere (c := { c with gesture := .idle }) fun target hhit =>
        hmiss source target ⟨cursor, world, hgesture, hworld, hhit⟩]
      exact ⟨rfl, rfl⟩
  · exact ⟨rfl, rfl⟩

end Canvas

/-! ## Events -/

namespace Session

/-- Something that is done with the pointer. -/
inductive PointerEvent where
  | press (x y : Reading Double)
  | move (x y : Reading Double)
  | release (x y : Reading Double)
  | wheel (dx dy : Reading Double) (modifier : Bool)

/-- The event as one of the actions on a session. -/
def PointerEvent.toAction : PointerEvent → Action
  | press x y => .press x y
  | move x y => .move x y
  | release x y => .release x y
  | wheel dx dy modifier => .wheel dx dy modifier

def PointerEvent.IsRelease : PointerEvent → Prop
  | release _ _ => True
  | _ => False

def PointerEvent.IsWheel : PointerEvent → Prop
  | wheel _ _ _ => True
  | _ => False

/-- The session after an event, whether it succeeded or failed. -/
def point (s : Session) (event : PointerEvent) : Session := s.act event.toAction

/-- The pointer moves while the node with the given id is dragged. -/
def Drags (s : Session) (event : PointerEvent) (id : String) : Prop :=
  ∃ x y grab, event = .move x y ∧ s.canvas.gesture = .dragging id grab

/-- The pointer moves while the view is panned. -/
def Pans (s : Session) (event : PointerEvent) : Prop :=
  ∃ x y last, event = .move x y ∧ s.canvas.gesture = .panning last

/-- The pointer is released over the input `target` while a connection is drawn from `source`. -/
def Drops (s : Session) (event : PointerEvent) (source target : PortRef) : Prop :=
  ∃ x y, event = .release x y ∧ s.canvas.Aims x y source target

theorem Drops.isRelease {s : Session} {event : PointerEvent} {source target : PortRef}
    (hdrop : s.Drops event source target) : event.IsRelease := by
  obtain ⟨x, y, rfl, _⟩ := hdrop
  trivial

/-- A refusal that the user is told of when a connection is dropped. -/
def WorthTelling (refusal : Refusal) : Prop :=
  refusal.family = .typeMismatch ∨ refusal.family = .cycleDetected

/-- What dropping a connection comes to: the store is as connecting its ends at the desk leaves it
if they can be connected, else as it was; and a refusal that is worth telling is told. -/
structure Dropped (s : Session) (source target : PortRef) (s' : Session) : Prop where
  store : s'.desk.store =
    if s.desk.store.canConnect source.toDocument target.toDocument then
      (s.desk.connectRefs source target .null).2.store
    else s.desk.store
  told : ∀ refusal, (s.desk.connectRefs source target .null).1 = .error (.refused refusal) →
    WorthTelling refusal → s'.notices = s.notices ++ [.rejected "connection" refusal]
  untold : (∀ refusal, (s.desk.connectRefs source target .null).1 = .error (.refused refusal) →
    ¬ WorthTelling refusal) → s'.notices = s.notices

/-- What an event of the pointer may change. -/
structure Pointed (s : Session) (event : PointerEvent) (s' : Session) : Prop where
  cards : s'.graph.cards = s.graph.cards
  positions : ∀ id, s'.graph.position? id ≠ s.graph.position? id → s.Drags event id
  edges : s'.graph.edges ≠ s.graph.edges → ∃ source target, s.Drops event source target
  dropped : ∀ source target, s.Drops event source target → s.Dropped source target s'
  notices : s'.notices ≠ s.notices → ∃ source target, s.Drops event source target
  view : s'.canvas.viewport ≠ s.canvas.viewport → s.Pans event ∨ event.IsWheel
  idle : event.IsRelease → s'.canvas.gesture = .idle

section

variable {s s' : Session} {event : PointerEvent}

/-- An event that leaves the store and drops nothing. -/
theorem Pointed.of_store (hstore : s'.desk.store = s.desk.store)
    (hdrops : ∀ source target, ¬ s.Drops event source target) (hnotices : s'.notices = s.notices)
    (hview : s'.canvas.viewport ≠ s.canvas.viewport → s.Pans event ∨ event.IsWheel)
    (hidle : event.IsRelease → s'.canvas.gesture = .idle) : s.Pointed event s' where
  cards := congrArg (fun store => store.graph.cards) hstore
  positions := fun id hmoved =>
    (hmoved (congrArg (fun store => store.graph.position? id) hstore)).elim
  edges := fun hedges => (hedges (congrArg (fun store => store.graph.edges) hstore)).elim
  dropped := fun source target hdrop => (hdrops source target hdrop).elim
  notices := fun hchanged => (hchanged hnotices).elim
  view := hview
  idle := hidle

/-- The store after an operation on the canvas, which is the one under edit. -/
theorem Joined.store_perform {β : Type} (hs : s.Joined)
    {operation : Canvas Double → β × Canvas Double} {store : Store Double}
    (hstore : (operation s.editCanvas).2.desk.store = store) :
    (s.perform operation).2.desk.store = store := by
  rw [hs.desk_perform]
  exact hstore

theorem Joined.editCanvas_store (hs : s.Joined) : s.editCanvas.desk.store = s.desk.store := by
  rw [hs.editCanvas_desk]
  rfl

theorem press_pointed (hs : s.Joined) (x y : Reading Double) :
    s.Pointed (.press x y) (s.press x y).2 := by
  have hstore : (s.press x y).2.desk.store = s.desk.store := by
    refine hs.store_perform ?_
    rw [Canvas.press_desk, hs.editCanvas_store]
  have hview : (s.editCanvas.press x y).2.viewport = s.canvas.viewport :=
    s.editCanvas.press_viewport x y
  exact .of_store hstore (fun _ _ => Drops.isRelease) rfl (fun hchanged => (hchanged hview).elim)
    False.elim

theorem wheel_pointed (hs : s.Joined) (dx dy : Reading Double) (modifier : Bool) :
    s.Pointed (.wheel dx dy modifier) (s.wheel dx dy modifier).2 := by
  have hstore : (s.wheel dx dy modifier).2.desk.store = s.desk.store := by
    refine hs.store_perform ?_
    rw [Canvas.wheel_desk, hs.editCanvas_store]
  exact .of_store hstore (fun _ _ => Drops.isRelease) rfl (fun _ => .inr trivial) False.elim

theorem move_pointed (hjoined : s.Joined) (hs : s.desk.Sound) (x y : Reading Double) :
    s.Pointed (.move x y) (s.move x y).2 := by
  have hview : (s.editCanvas.move x y).2.viewport ≠ s.canvas.viewport → s.Pans (.move x y) := by
    intro hchanged
    rcases s.editCanvas.move_viewport x y with hkept | ⟨last, hpanning⟩
    · exact (hchanged hkept).elim
    · exact ⟨x, y, last, rfl, hpanning⟩
  have hstill : (s.editCanvas.move x y).2.desk.store = s.desk.store →
      s.Pointed (.move x y) (s.move x y).2 := fun hstore =>
    .of_store (hjoined.store_perform hstore) (fun _ _ => Drops.isRelease) rfl
      (fun hchanged => .inl (hview hchanged)) False.elim
  rcases s.editCanvas.move_store x y with hkept | ⟨id, grab, position, hdragging, hmove⟩
  · exact hstill (hkept.trans hjoined.editCanvas_store)
  rw [hjoined.editCanvas_desk] at hmove
  rcases s.editDesk.moveNode_store id position with hkept | ⟨n, p, hid, hnode, hgraph⟩
  · exact hstill (hmove.trans hkept)
  have hmoved : (s.move x y).2.graph = s.graph.setNode { n with x := p.x, y := p.y } :=
    (congrArg Store.graph (hjoined.store_perform hmove)).trans hgraph
  refine ⟨?_, ?_, ?_, ?_, ?_, fun hchanged => .inl (hview hchanged), False.elim⟩
  · rw [hmoved]
    exact Graph.cards_setNode hs.2.nodes_nodup hnode p
  · intro other hother
    have heq : other = id := by
      by_contra hne
      refine hother ?_
      rw [hmoved]
      exact s.graph.position?_setNode_of_ne (hid ▸ hne)
    exact ⟨x, y, grab, rfl, heq ▸ hdragging⟩
  · exact fun hedges => (hedges (congrArg Graph.edges hmoved :)).elim
  · exact fun _ _ hdrop => hdrop.isRelease.elim
  · exact fun hchanged => (hchanged rfl).elim

end

/-- The notice that the canvas asks for when the pointer is released goes to the user. -/
theorem release_notices (s : Session) (x y : Reading Double) :
    (s.release x y).2.notices = s.notices ++ Canvas.asked (s.editCanvas.release x y).1 := by
  have hnotices : (s.perform fun c => c.release x y).2.notices = s.notices := rfl
  have hanswer : (s.perform fun c => c.release x y).1 = (s.editCanvas.release x y).1 := rfl
  rw [← hanswer]
  unfold release
  split
  next hresult =>
    rw [hresult] at hnotices ⊢
    exact congrArg (· ++ _) hnotices
  next hresult =>
    rw [hresult] at hnotices ⊢
    exact hnotices.trans (List.append_nil _).symm
  next hresult =>
    rw [hresult] at hnotices ⊢
    exact hnotices.trans (List.append_nil _).symm

/-- The store and the notices after a connection as the canvas says. -/
theorem Dropped.of_worth {s s' : Session} {source target : PortRef}
    (hstore : s'.desk.store = (s.desk.connectRefs source target .null).2.store)
    (hnotices : s'.notices =
      s.notices ++ Canvas.worth (s.desk.connectRefs source target .null).1) :
    s.Dropped source target s' := by
  refine ⟨?_, fun refusal hrefused hworth => ?_, fun huntold => ?_⟩
  · split
    next => exact hstore
    next hno =>
      have hkept : (s.desk.connectRefs source target .null).2.store = s.desk.store :=
        (congrArg Prod.snd (s.desk.connectRefs_fresh source target)).trans
          (Store.connected_of_not_canConnect hno _)
      exact hstore.trans hkept
  · rw [hnotices, hrefused]
    rcases hworth with hfamily | hfamily <;> simp [Canvas.worth, Canvas.connectionNotice?, hfamily]
  · rw [hnotices, List.append_right_eq_self]
    cases hresult : (s.desk.connectRefs source target .null).1 with
    | ok id => rfl
    | error fault =>
        cases fault with
        | refused refusal =>
            have hnot : ¬ WorthTelling refusal := huntold refusal hresult
            unfold Canvas.worth Canvas.connectionNotice?
            dsimp only
            split
            next hfamily => exact (hnot (.inl hfamily)).elim
            next hfamily => exact (hnot (.inr hfamily)).elim
            next => rfl
        | _ => rfl

theorem release_pointed {s : Session} (hs : s.Joined) (x y : Reading Double) :
    s.Pointed (.release x y) (s.release x y).2 := by
  obtain ⟨added, hsession⟩ := s.release_session x y
  have hnotices := s.release_notices x y
  have hview : (s.release x y).2.canvas.viewport = s.canvas.viewport := by
    rw [hsession]
    exact s.editCanvas.release_viewport x y
  have hidle : (s.release x y).2.canvas.gesture = .idle := by
    rw [hsession]
    exact s.editCanvas.release_gesture x y
  have hstore : (s.release x y).2.desk.store = (s.editCanvas.release x y).2.desk.store := by
    have hperform : (s.perform fun c => c.release x y).2.desk.store =
        (s.editCanvas.release x y).2.desk.store := hs.store_perform rfl
    rw [hsession]
    exact hperform
  by_cases hany : ∃ source target, s.canvas.Aims x y source target
  · obtain ⟨source, target, haims⟩ := hany
    have hdrop : s.Drops (.release x y) source target := ⟨x, y, rfl, haims⟩
    have hdropped : ∀ source target, s.canvas.Aims x y source target →
        s.Dropped source target (s.release x y).2 := by
      intro source target haims
      obtain ⟨hasked, hconnected⟩ := s.editCanvas.release_over haims
      rw [hs.editCanvas_desk] at hasked hconnected
      -- The release starts on a new page of the journal, which a connection does not look at.
      have hpage := (s.editDesk.connectRefs_fresh source target).trans
        (s.desk.connectRefs_fresh source target).symm
      obtain ⟨hanswer, hsame⟩ := Prod.mk.inj hpage
      exact .of_worth (hstore.trans (hconnected.trans hsame))
        (hnotices.trans (congrArg (s.notices ++ ·) (hasked.trans (congrArg _ hanswer))))
    have hnodes : (s.release x y).2.graph.nodes = s.graph.nodes := by
      have hconnected := (s.editCanvas.release_over haims).2
      rw [hs.editCanvas_desk] at hconnected
      exact (congrArg (·.graph.nodes) (hstore.trans hconnected)).trans
        (s.editDesk.nodes_connectRefs source target .null)
    refine ⟨Graph.cards_congr hnodes, fun id hmoved => ?_, fun _ => ⟨source, target, hdrop⟩, ?_,
      fun _ => ⟨source, target, hdrop⟩, fun hchanged => (hchanged hview).elim, fun _ => hidle⟩
    · exact (hmoved (Graph.position?_congr hnodes id)).elim
    · rintro source target ⟨_, _, hevent, haims⟩
      cases hevent
      exact hdropped source target haims
  · have helse := s.editCanvas.release_elsewhere fun source target haims =>
      hany ⟨source, target, haims⟩
    refine .of_store ?_ ?_ ?_ (fun hchanged => (hchanged hview).elim) fun _ => hidle
    · rw [hstore, helse.2, hs.editCanvas_store]
    · rintro source target ⟨_, _, hevent, haims⟩
      cases hevent
      exact hany ⟨source, target, haims⟩
    · rw [hnotices, helse.1, List.append_nil]

/-! ## Runs -/

theorem point_pointed {s : Session} (hjoined : s.Joined) (hs : s.desk.Sound)
    (event : PointerEvent) : s.Pointed event (s.point event) := by
  cases event with
  | press x y => exact press_pointed hjoined x y
  | move x y => exact move_pointed hjoined hs x y
  | release x y => exact release_pointed hjoined x y
  | wheel dx dy modifier => exact wheel_pointed hjoined dx dy modifier

/-- Through any events the references stay joined, the store stays sound, and the nodes keep all but
their positions. -/
theorem foldl_point {s : Session} (hjoined : s.Joined) (hs : s.desk.Sound)
    (events : List PointerEvent) :
    (events.foldl point s).Joined ∧ (events.foldl point s).desk.Sound ∧
      (events.foldl point s).graph.cards = s.graph.cards := by
  induction events generalizing s with
  | nil => exact ⟨hjoined, hs, rfl⟩
  | cons event rest ih =>
      obtain ⟨hrest, hsound, hcards⟩ :=
        ih (s := s.point event) (hjoined.act event.toAction) (act_sound hjoined hs event.toAction)
      exact ⟨hrest, hsound, hcards.trans (point_pointed hjoined hs event).cards⟩

/-- Whatever was done with a session before: through any events of the pointer and the wheel
the nodes keep their ids, their order and their payloads, and every one of the events
changes only what it may. -/
theorem pointer_frame (catalog : Catalog) (bounds : ZoomBounds Double) (sensitivity : Double)
    (importer : Rule.Importer Double) (jitter : Jitter) (journal : Journal Double)
    (actions : List Action) (events : List PointerEvent) (event : PointerEvent) :
    let s := actions.foldl Session.act
      (Session.start catalog bounds sensitivity importer jitter journal)
    let before := events.foldl Session.point s
    before.graph.cards = s.graph.cards ∧ before.Pointed event (before.point event) := by
  intro s before
  have hstart : (Session.start catalog bounds sensitivity importer jitter journal).Joined :=
    .start catalog bounds sensitivity importer jitter journal
  have hs : s.desk.Sound := foldl_act_sound hstart (start_sound _ _ _ _ _ _) actions
  obtain ⟨hjoined, hbefore, hcards⟩ := foldl_point (hstart.foldl_act actions) hs events
  exact ⟨hcards, point_pointed hjoined hbefore event⟩

/-- A node is dragged to the right; the drag is given up for a connection that is drawn from a
variable, and the pointer is released over an input of the node in its new place. -/
theorem pointer_frame_drag_then_draw :
    let number (n : Int) : Reading Double := .ok (Scalar.ofInt n)
    let start := Session.start .attendance usualBounds (Scalar.ratio 1 1000)
      (usualImporter .attendance) ⟨fun _ => Double.zero false, 0⟩ ⟨.counting, []⟩
    let actions : List Action := [
      .store (.addNode (.str "Variable") (.pair (.int 0) (.int 0)) .null .null false),
      .store (.addNode (.str "Compare") (.pair (.int 400) (.int 0)) .null .null false)]
    let events : List PointerEvent := [
      .press (number 450) (number 50), .move (number 460) (number 50),
      .press (number 204) (number 46)]
    let event : PointerEvent := .release (number 398) (number 46)
    let s := actions.foldl Session.act start
    let before := events.foldl Session.point s
    (before.graph.cards = s.graph.cards ∧ before.Pointed event (before.point event)) ∧
    before.graph.position? "n2" = some ⟨Scalar.ofInt 410, Scalar.ofInt 0⟩ ∧
    before.graph.edges = [] ∧
    (before.point event).graph.edges = [⟨"n3", ⟨"n1", 0⟩, ⟨"n2", 0⟩⟩] := by
  intro number start actions events event s before
  exact ⟨pointer_frame _ _ _ _ _ _ actions events event, by decide +kernel, by decide +kernel,
    by decide +kernel⟩

end Session

end RuleCanvas
