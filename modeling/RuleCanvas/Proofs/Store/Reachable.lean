import RuleCanvas.Proofs.Store.Invariant
import RuleCanvas.Rule.Import

/-! # Reachable stores

The operations on a store, with any arguments and whether they succeed or fail, in any order. Each
is a chain of steps, so every store that is reached from an empty one is well wired.
-/

namespace RuleCanvas

/-! ## Imports -/

namespace Rule.Importer

open Desk

variable {α : Type} {silent : Prop}

/-- Wiring leaves the desk as the connection does, whether that is refused or not. -/
theorem wire_desk (target : String) (feed : Feed) (d : Desk α) :
    (wire target feed d).2 = (d.connectRefs ⟨feed.id, 0⟩ ⟨target, feed.index⟩ .null).2 := by
  unfold wire
  split
  next hresult => rw [hresult]; rfl
  next hresult => rw [hresult]; split <;> rfl
  next hresult => rw [hresult]; rfl

theorem wire_stepwise (target : String) (feed : Feed) :
    Stepwise silent (wire target feed : Edit α (List ImportIssue)) := by
  intro d
  rw [wire_desk]
  exact d.connectRefs_steps _ _ (.inr (.inl rfl))

variable [Scalar α]

theorem make_stepwise (i : Importer α) (depth : Nat) (y : α) (payload : Payload) :
    Stepwise silent (i.make depth y payload) := fun d => d.addPayload_steps _ _ _ _

/-- A property that all parts of an import keep: the notes of the journal, the clearing of the
graph, and the nodes and edges that it makes. -/
structure Kept (i : Importer α) (P : Desk α → Prop) : Prop where
  count : ∀ d measure, P d → P (d.count measure)
  log : ∀ d line, P d → P (d.log line)
  clear : ∀ d, P d → P d.clear
  make : ∀ depth y payload, (i.make depth y payload).Keeps P
  wire : ∀ target feed, (wire target feed : Edit α (List ImportIssue)).Keeps P

namespace Kept

variable {i : Importer α} {P : Desk α → Prop}

theorem wireAll (hi : i.Kept P) (target : String) (feeds : List Feed) :
    (Importer.wireAll target feeds : Edit α (List ImportIssue)).Keeps P := by
  induction feeds with
  | nil => exact .pure []
  | cons feed rest ih => exact (hi.wire target feed).bind fun _ => ih.bind fun _ => .pure _

mutual

theorem place (hi : i.Kept P) (depth : Nat) (top : α) (plan : Plan) :
    (i.place depth top plan).Keeps P := by
  cases plan with
  | node payload path inputs =>
      rw [Importer.place]
      exact (placeInputs hi (depth + 1) top 0 inputs).bind fun _ =>
        (hi.make _ _ _).bind fun _ => (hi.wireAll _ _).bind fun _ => .pure _

theorem placeInputs (hi : i.Kept P) (depth : Nat) (top : α) (index : Nat) (inputs : Inputs) :
    (i.placeInputs depth top index inputs).Keeps P := by
  cases inputs with
  | done =>
      rw [Importer.placeInputs]
      exact .pure _
  | unwired rest =>
      rw [Importer.placeInputs]
      exact placeInputs hi depth top (index + 1) rest
  | wired plan rest =>
      rw [Importer.placeInputs]
      exact (place hi depth top plan).bind fun _ =>
        (placeInputs hi depth _ (index + 1) rest).bind fun _ => .pure _

end

theorem placeRule (hi : i.Kept P) (top : α) (plan : Option Plan) :
    (i.placeRule top plan).Keeps P := by
  cases plan with
  | none => exact (hi.make _ _ _).bind fun _ => .pure _
  | some plan =>
      exact (hi.place _ _ plan).bind fun _ =>
        (hi.make _ _ _).bind fun _ => (hi.wire _ _).bind fun _ => .pure _

theorem placeRules (hi : i.Kept P) (top : α) (plans : List (Option Plan)) :
    (i.placeRules top plans).Keeps P := by
  induction plans generalizing top with
  | nil => exact .pure _
  | cons plan rest ih =>
      exact (hi.placeRule top plan).bind fun _ => (ih _).bind fun _ => .pure _

theorem finish (hi : i.Kept P) (issues : List ImportIssue) (results : List String) :
    (Importer.finish issues results : Edit α Imported).Keeps P := by
  intro d hd
  have hcount := hi.count d .imported hd
  unfold Importer.finish
  dsimp only
  split
  · exact hcount
  · exact hi.log _ _ (hi.count _ _ hcount)

theorem run (hi : i.Kept P) (document : Json) : (i.run document).Keeps P := by
  intro d hd
  unfold Importer.run
  split
  · exact hi.count d _ hd
  · exact (hi.placeRules _ _).bind (fun _ => hi.finish _ _) d.clear (hi.clear d hd)

end Kept

theorem kept_steps (i : Importer α) (start : Desk α) : i.Kept (Steps silent start) where
  count d measure hd := hd.tail (.count d measure)
  log d line hd := hd.tail (.log d line)
  clear d hd := hd.tail (.clear d)
  make depth y payload := stepwise_iff_keeps.mp (i.make_stepwise depth y payload) start
  wire target feed := stepwise_iff_keeps.mp (wire_stepwise target feed) start

theorem run_stepwise (i : Importer α) (document : Json) : Stepwise silent (i.run document) :=
  stepwise_iff_keeps.mpr fun start => (i.kept_steps start).run document

end Rule.Importer

/-! ## Runs -/

namespace Desk

/-- An operation on the graph of a store, with all that it is given. -/
inductive Operation where
  | addNode (kind : Json) (position : GivenPosition) (payload id : Json) (lenient : Bool)
  | removeNode (id : Json)
  | moveNode (id : Json) (position : GivenPosition)
  | updatePayload (id given : Json)
  | connect (source target id : Json)
  | connectRefs (source target : PortRef) (id : Json)
  | disconnect (id : Json)
  | clear
  | importRules (importer : Rule.Importer Double) (document : Json)

namespace Operation

/-- An operation without its answer. -/
def silence {β : Type} (operation : Edit Double β) : Edit Double Unit := fun d =>
  ((operation d).1.map fun _ => (), (operation d).2)

def run : Operation → Edit Double Unit
  | addNode kind position payload id lenient =>
    silence fun d => d.addNode kind position.read payload id lenient
  | removeNode id => silence fun d => d.removeNode id
  | moveNode id position => silence fun d => d.moveNode id position.read
  | updatePayload id given => silence fun d => d.updatePayload id given
  | connect source target id => silence fun d => d.connect source target id
  | connectRefs source target id => silence fun d => d.connectRefs source target id
  | disconnect id => silence fun d => d.disconnect id
  | clear => fun d => d.clear.done ()
  | importRules importer document => silence (importer.run document)

/-- Whether the ids of nodes and edges that are given as values are texts or left out. -/
def TextIds : Operation → Prop
  | addNode _ _ _ id _ => id.IsTextId
  | removeNode id => id.IsTextId
  | moveNode id _ => id.IsTextId
  | updatePayload id _ => id.IsTextId
  | connect _ _ id => id.IsTextId
  | connectRefs _ _ id => id.IsTextId
  | disconnect id => id.IsTextId
  | clear => True
  | importRules _ _ => True

theorem run_stepwise {silent : Prop} (operation : Operation) (hids : silent ∨ operation.TextIds) :
    Stepwise silent operation.run := by
  intro d
  cases operation with
  | addNode => exact d.addNode_steps _ _ _ _ _
  | removeNode => exact d.removeNode_steps _
  | moveNode => exact d.moveNode_steps _ _
  | updatePayload => exact d.updatePayload_steps _ _
  | connect => exact d.connect_steps _ _ hids
  | connectRefs => exact d.connectRefs_steps _ _ hids
  | disconnect => exact d.disconnect_steps _
  | clear => exact .single (.clear d)
  | importRules importer document => exact importer.run_stepwise document d

end Operation

/-- What may be done with a store: an operation on its graph, or the store of a document in its
place. -/
inductive Turn where
  | edit (operation : Operation)
  | load (catalog : Catalog) (document : Json) (lenient : Bool)
  | importNew (importer : Rule.Importer Double) (document : Json)

/-- The store that was made at a desk of its own, or the one before where that failed. -/
def takeOver {β : Type} (d : Desk Double) (made : Except Fault β × Desk Double) : Desk Double :=
  match made.1 with
  | .ok _ => made.2
  | .error _ => { d with journal := made.2.journal }

/-- The desk after a turn, whether it succeeded or failed. -/
def play (d : Desk Double) : Turn → Desk Double
  | .edit operation => (operation.run d).2
  | .load catalog document lenient =>
    d.takeOver (Desk.load document lenient (fresh catalog d.journal))
  | .importNew importer document =>
    d.takeOver (importer.run document (fresh importer.context.catalog d.journal))

/-- What a property of desks needs to hold after every run: a step keeps it, an empty store has it,
and so has a store with the journal of another. -/
structure Lasting (P : Desk Double → Prop) : Prop where
  step : ∀ d d', Step True d d' → P d → P d'
  fresh : ∀ catalog d, P d → P (fresh catalog d.journal)
  journal : ∀ d d', P d → P d' → P { d with journal := d'.journal }

namespace Lasting

variable {P : Desk Double → Prop} {d : Desk Double}

theorem takeOver {β : Type} (hP : Lasting P) {made : Except Fault β × Desk Double} (hd : P d)
    (hmade : P made.2) : P (d.takeOver made) := by
  unfold Desk.takeOver
  split
  · exact hmade
  · exact hP.journal d made.2 hd hmade

theorem play (hP : Lasting P) (hd : P d) (turn : Turn) : P (d.play turn) := by
  have hsteps : ∀ {d d'}, Steps True d d' → P d → P d' := fun hsteps => hsteps.keep hP.step
  cases turn with
  | edit operation => exact hsteps (operation.run_stepwise (.inl trivial) d) hd
  | load catalog document lenient =>
      exact hP.takeOver hd (hsteps (load_stepwise document lenient _) (hP.fresh catalog d hd))
  | importNew importer document =>
      exact hP.takeOver hd (hsteps (importer.run_stepwise document _) (hP.fresh _ d hd))

/-- Whatever is done with a store, it keeps the property. -/
theorem foldl_play (hP : Lasting P) (hd : P d) (turns : List Turn) :
    P (turns.foldl Desk.play d) := by
  induction turns generalizing d with
  | nil => exact hd
  | cons turn rest ih => exact ih (hP.play hd turn)

end Lasting

theorem lasting_sound : Lasting Sound where
  step _ _ hstep := hstep.sound
  fresh _ _ _ := .fresh _ _
  journal _ _ hd _ := hd

/-- Whatever is done with a store, it stays sound. -/
theorem Sound.foldl_play {d : Desk Double} (hd : d.Sound) (turns : List Turn) :
    (turns.foldl Desk.play d).Sound := lasting_sound.foldl_play hd turns

theorem lasting_linked : Lasting fun d : Desk Double => d.graph.Linked d.catalog where
  step _ _ hstep := hstep.linked
  fresh catalog _ _ := .empty catalog
  journal _ _ hd _ := hd

/-- Even where cycles are not looked for, the edges of a store stay as linked as they are. -/
theorem linked_foldl_play {d : Desk Double} (hd : d.graph.Linked d.catalog) (turns : List Turn) :
    (turns.foldl Desk.play d).graph.Linked (turns.foldl Desk.play d).catalog :=
  lasting_linked.foldl_play hd turns

/-- Every store that is reached from an empty one: each edge is found under its id and leads from an
existing output to an existing input of another node whose type fits; the index of inputs names an
edge just where it ends, agrees with a scan of the edges and knows at most one edge for an input;
and no edges form a cycle. -/
theorem reachable_store_wired (catalog : Catalog) (journal : Journal Double) (turns : List Turn) :
    let d := turns.foldl Desk.play (fresh catalog journal)
    (∀ e ∈ d.graph.edges, d.graph.edge? e.id = some e) ∧
    (∀ e ∈ d.graph.edges, ∃ source target sourceType targetType,
      d.graph.node? e.source.node = some source ∧ d.graph.node? e.target.node = some target ∧
      e.source.port < source.kind.outputCount ∧ e.target.port < target.kind.inputCount ∧
      e.source.node ≠ e.target.node ∧
      source.payload.outputType? d.catalog e.source.port = some sourceType ∧
      target.kind.inputType? e.target.port = some targetType ∧
      ValueType.compatible sourceType targetType = true) ∧
    (∀ target id, d.graph.occupants.lookup target = some id ↔
      ∃ e ∈ d.graph.edges, e.target = target ∧ e.id = id) ∧
    (∀ target, d.graph.incoming? target = d.graph.edges.find? fun e => e.target == target) ∧
    (∀ e ∈ d.graph.edges, ∀ f ∈ d.graph.edges, e.target = f.target → e = f) ∧
    d.graph.Acyclic := by
  intro d
  have hwired : d.graph.Wired d.catalog := ((Sound.fresh catalog journal).foldl_play turns).2
  refine ⟨fun e he => Graph.edge?_of_mem hwired.edges_nodup he, fun e he => ?_,
    hwired.lookup_eq_some_iff, hwired.incoming?_eq_find?, hwired.single, hwired.acyclic⟩
  obtain ⟨p, q, hp, hq, hlt, sourceType, targetType, hsource, htarget, hcompatible⟩ :=
    hwired.fits e he
  obtain ⟨source, hsourceNode, rfl⟩ := Option.map_eq_some_iff.mp hp
  obtain ⟨target, htargetNode, rfl⟩ := Option.map_eq_some_iff.mp hq
  refine ⟨source, target, sourceType, targetType, hsourceNode, htargetNode, hlt,
    NodeKind.inputType?_eq_some_lt htarget, ?_, hsource, htarget, hcompatible⟩
  intro hself
  exact hwired.acyclic.not_feeds_self _ ⟨e, he, rfl, hself.symm⟩

end Desk

end RuleCanvas
