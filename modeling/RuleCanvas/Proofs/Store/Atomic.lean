import RuleCanvas.Proofs.Store.Reachable

/-! # Operations that fail

An operation on one node or edge looks at all that it is given before it writes. Where it ends in a
fault, the store is therefore as it was, and no listener was told of anything; only the log, the
counters and the supply of ids may have moved on.
-/

namespace RuleCanvas

variable {α β : Type}

/-! ## What was told -/

/-- Who was told of which change, with the graph at that moment. -/
def Entry.told? : Entry α → Option (Listener × Change × Graph α)
  | heard listener change graph => some (listener, change, graph)
  | line _ => none
  | measure _ => none

/-- What listeners were told so far, the latest first. -/
def Journal.told (j : Journal α) : List (Listener × Change × Graph α) :=
  j.recent.filterMap Entry.told?

namespace Desk

/-- Two desks with one store, between which no listener was told of anything. -/
structure Untouched (d d' : Desk α) : Prop where
  store : d'.store = d.store
  told : d'.journal.told = d.journal.told

namespace Untouched

theorem refl (d : Desk α) : d.Untouched d := ⟨rfl, rfl⟩

theorem trans {d₁ d₂ d₃ : Desk α} (hfirst : d₁.Untouched d₂) (hsecond : d₂.Untouched d₃) :
    d₁.Untouched d₃ :=
  ⟨hsecond.store.trans hfirst.store, hsecond.told.trans hfirst.told⟩

theorem chooseId {d chosen : Desk α} {given id : Json} (hchoose : d.chooseId given = (id, chosen)) :
    d.Untouched chosen := by
  rcases chooseId_cases hchoose with ⟨_, rfl⟩ | ⟨_, rfl⟩ <;> exact ⟨rfl, rfl⟩

theorem logOptional (d : Desk α) (line : Option LogLine) : d.Untouched (d.logOptional line) := by
  cases line <;> exact ⟨rfl, rfl⟩

end Untouched

/-! ## Operations on one node or edge -/

/-- An operation that succeeds or leaves the desk untouched. -/
def Atomic (operation : Edit α β) : Prop :=
  ∀ ⦃d d' : Desk α⦄ ⦃fault : Fault⦄, operation d = (.error fault, d') → d.Untouched d'

/-- The node is written last, when id and position are known to be good. -/
theorem placeNode_atomic (payload : Payload) (position : Except Fault (Point α)) (given : Json) :
    Atomic fun d => d.placeNode payload position given := by
  intro d d' fault hfault
  dsimp only at hfault
  rw [placeNode] at hfault
  rcases hchoose : d.chooseId given with ⟨id, chosen⟩
  rw [hchoose] at hfault
  have hchosen : d.Untouched chosen := .chooseId hchoose
  dsimp only at hfault
  split at hfault
  · cases hfault
    exact hchosen
  · cases hfault
    exact hchosen
  · split at hfault
    · cases hfault
      exact hchosen
    · split at hfault <;> cases hfault
      exact hchosen

theorem addNodeOfKind_atomic (kind : NodeKind) (position : Except Fault (Point α))
    (fields : Json.Members) (id : Json) (lenient : Bool) :
    Atomic fun d => d.addNodeOfKind kind position fields id lenient := by
  intro d d' fault hfault
  dsimp only at hfault
  rw [addNodeOfKind] at hfault
  split at hfault
  · cases hfault
    exact .refl d
  · exact (Untouched.logOptional d _).trans (placeNode_atomic _ position id hfault)

theorem addNode_atomic (kind : Json) (position : Except Fault (Point α)) (payload id : Json)
    (lenient : Bool) : Atomic fun d => d.addNode kind position payload id lenient := by
  intro d d' fault hfault
  dsimp only at hfault
  rw [addNode] at hfault
  split at hfault
  · cases hfault
    exact .refl d
  · split at hfault
    · cases hfault
      exact .refl d
    · exact addNodeOfKind_atomic _ position _ id lenient hfault

theorem removeNode_atomic (id : Json) : Atomic fun d : Desk α => d.removeNode id := by
  intro d d' fault hfault
  dsimp only at hfault
  rw [removeNode] at hfault
  split at hfault <;> cases hfault
  exact .refl d

theorem moveNode_atomic (id : Json) (position : Except Fault (Point α)) :
    Atomic fun d => d.moveNode id position := by
  intro d d' fault hfault
  dsimp only at hfault
  rw [moveNode] at hfault
  split at hfault
  · cases hfault
    exact .refl d
  · split at hfault <;> cases hfault
    exact .refl d

/-- The payload is written only when the merged fields are known to be good, and cutting the edges
that it leaves without a fitting type cannot fail. -/
theorem updatePayload_atomic (id given : Json) :
    Atomic fun d : Desk α => d.updatePayload id given := by
  intro d d' fault hfault
  dsimp only at hfault
  rw [updatePayload] at hfault
  split at hfault
  · cases hfault
    exact .refl d
  · split at hfault
    · cases hfault
      exact .refl d
    · dsimp only at hfault
      split at hfault
      · cases hfault
        exact .refl d
      · split at hfault
        · cases hfault
          exact .refl d
        · split at hfault <;> cases hfault
          exact .refl d

/-- Under an id that is a text the edge at the input makes room only when nothing can fail any
more. -/
theorem wire_atomic (source target : PortRef) {id : Json} (hid : id.IsTextId) :
    Atomic fun d : Desk α => d.wire source target id := by
  intro d d' fault hfault
  dsimp only at hfault
  rw [wire] at hfault
  rcases hchoose : d.chooseId id with ⟨name, chosen⟩
  rw [hchoose] at hfault
  obtain ⟨text, rfl⟩ := chooseId_isText hid hchoose
  dsimp only at hfault
  split at hfault <;> cases hfault
  exact .chooseId hchoose

theorem refuseWire_untouched {d d' : Desk α} {refusal : Refusal} {fault : Fault}
    (hfault : (d.refuseWire refusal : Except Fault β × Desk α) = (.error fault, d')) :
    d.Untouched d' := by
  cases hfault
  exact ⟨rfl, rfl⟩

theorem connectRefs_atomic (source target : PortRef) {id : Json} (hid : id.IsTextId) :
    Atomic fun d : Desk α => d.connectRefs source target id := by
  intro d d' fault hfault
  dsimp only at hfault
  rw [connectRefs] at hfault
  split at hfault
  · exact refuseWire_untouched hfault
  · exact wire_atomic source target hid hfault

theorem connect_atomic (source target : Json) {id : Json} (hid : id.IsTextId) :
    Atomic fun d : Desk α => d.connect source target id := by
  intro d d' fault hfault
  dsimp only at hfault
  rw [connect] at hfault
  split at hfault
  · exact refuseWire_untouched hfault
  · exact wire_atomic _ _ hid hfault

theorem disconnect_atomic (id : Json) : Atomic fun d : Desk α => d.disconnect id := by
  intro d d' fault hfault
  dsimp only at hfault
  rw [disconnect] at hfault
  split at hfault <;> cases hfault
  exact .refl d

/-! ## Any of them -/

namespace Operation

/-- Whether an operation acts on one node or edge, and not on the graph as a whole. -/
def Single : Operation → Prop
  | clear => False
  | importRules _ _ => False
  | _ => True

theorem silence_atomic {operation : Edit Double β} (hoperation : Atomic operation) :
    Atomic (silence operation) := by
  intro d d' fault hfault
  rcases hresult : operation d with ⟨result, after⟩
  rw [silence, hresult] at hfault
  cases result with
  | ok _ => cases hfault
  | error _ =>
      cases hfault
      exact hoperation hresult

theorem run_atomic {operation : Operation} (hsingle : operation.Single)
    (hids : operation.TextIds) : Atomic operation.run := by
  cases operation with
  | addNode kind position payload id lenient =>
      exact silence_atomic (addNode_atomic kind position.read payload id lenient)
  | removeNode id => exact silence_atomic (removeNode_atomic id)
  | moveNode id position => exact silence_atomic (moveNode_atomic id position.read)
  | updatePayload id given => exact silence_atomic (updatePayload_atomic id given)
  | connect source target id => exact silence_atomic (connect_atomic source target hids)
  | connectRefs source target id => exact silence_atomic (connectRefs_atomic source target hids)
  | disconnect id => exact silence_atomic (disconnect_atomic id)
  | clear => exact hsingle.elim
  | importRules importer document => exact hsingle.elim

end Operation

/-- Whatever the store is and whatever it is given: an operation on one node or edge that ends in a
fault leaves the store as it was, its nodes, its edges and its index of inputs, and no listener was
told of anything. -/
theorem failed_operation_untouched (d : Desk Double) {operation : Operation}
    (hsingle : operation.Single) (hids : operation.TextIds) {fault : Fault}
    (hfault : (operation.run d).1 = .error fault) :
    (operation.run d).2.store = d.store ∧ (operation.run d).2.journal.told = d.journal.told := by
  have huntouched : d.Untouched (operation.run d).2 :=
    operation.run_atomic hsingle hids (Prod.ext hfault rfl)
  exact ⟨huntouched.store, huntouched.told⟩

/-- A connection to an occupied input under an id that is taken: the edge there stays. -/
theorem failed_operation_untouched_occupied :
    let turns : List Turn := [
      .edit (.addNode (.str "Constant") (.pair (.int 0) (.int 0))
        (.obj [("valueType", .str "boolean"), ("value", .bool true)]) .null false),
      .edit (.addNode (.str "Logic") (.pair (.int 0) (.int 0)) .null .null false),
      .edit (.connectRefs ⟨"n1", 0⟩ ⟨"n2", 0⟩ .null)]
    let reached := turns.foldl Desk.play (fresh .attendance ⟨.counting, []⟩)
    let d : Desk Double := { reached with store := reached.store.subscribe (.named "panel" 0) }
    let operation : Operation := .connectRefs ⟨"n1", 0⟩ ⟨"n2", 0⟩ (.str "n3")
    (operation.run d).1 = .error (.refused (.edgeTaken (.str "n3"))) ∧
    d.graph.edges = [⟨"n3", ⟨"n1", 0⟩, ⟨"n2", 0⟩⟩] ∧
    (operation.run d).2.store = d.store ∧ (operation.run d).2.journal.told = d.journal.told :=
  ⟨rfl, rfl, failed_operation_untouched _ trivial (.inr ⟨"n3", rfl⟩) rfl⟩

end Desk

end RuleCanvas
