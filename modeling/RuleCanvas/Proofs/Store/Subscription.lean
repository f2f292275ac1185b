import Mathlib.Data.List.Induction
import RuleCanvas.Proofs.Store.Delivery
import RuleCanvas.Proofs.Store.Eviction

/-! # Subscriptions

A listener may subscribe more than once, and each subscription answers a function that is to end
it. The store keeps no more of a subscription than its listener: the function looks for the
listener among those that are registered and takes out the first that it finds. A second call of
one function therefore ends another subscription of the same listener, if there is one. Nothing
else makes the number of deliveries differ from the number of subscriptions whose own function was
not called. Two listeners that go by one name are two listeners, and neither ends the other.
-/

namespace RuleCanvas

/-- A subscription: who listens, and whether the function that it answered was called. -/
structure Subscription where
  listener : Listener
  ended : Bool
  deriving DecidableEq

/-- A store in use, with all subscriptions that were made on it, in their order. -/
structure Audience where
  desk : Desk Double
  subscriptions : List Subscription

/-- What may happen at a store: a listener subscribes, the function is called that the subscription
at an index answered, or an operation is done. -/
inductive Occasion where
  | subscribe (listener : Listener)
  | unsubscribe (index : Nat)
  | operate (operation : Desk.Operation)

namespace Audience

variable {a : Audience} {s : Subscription} {index : Nat}

/-- A store before anyone subscribes to it. -/
def empty (d : Desk Double) : Audience := ⟨{ d with store := { d.store with listeners := [] } }, []⟩

/-- What an occasion does. A function knows the listener of its subscription, and not which of its
registrations that was; a function that no subscription answered cannot be called. -/
def attend (a : Audience) : Occasion → Audience
  | .subscribe listener =>
    ⟨{ a.desk with store := a.desk.store.subscribe listener },
      a.subscriptions ++ [⟨listener, false⟩]⟩
  | .unsubscribe index =>
    match a.subscriptions[index]? with
    | some s =>
      ⟨{ a.desk with store := a.desk.store.unsubscribe s.listener },
        a.subscriptions.set index { s with ended := true }⟩
    | none => a
  | .operate operation => { a with desk := (operation.run a.desk).2 }

/-- How many subscriptions a listener has whose own function was not called. -/
def live (a : Audience) (listener : Listener) : Nat := a.subscriptions.count ⟨listener, false⟩

/-- Who subscribed, once for each subscription. -/
def subscribers (a : Audience) : List Listener := a.subscriptions.map (·.listener)

/-- The function at an index was called before, and its listener has another subscription that is
live. -/
def Intrudes (a : Audience) (index : Nat) (listener : Listener) : Prop :=
  a.subscriptions[index]? = some ⟨listener, true⟩ ∧ 0 < a.live listener

/-! ## Single occasions -/

theorem registered_subscribe (a : Audience) (l listener : Listener) :
    (a.attend (.subscribe l)).desk.registered listener =
      a.desk.registered listener + if l = listener then 1 else 0 := by
  change (a.desk.store.listeners ++ [l]).count listener = _
  rw [List.count_append, List.count_singleton, Desk.registered]
  simp

theorem live_subscribe (a : Audience) (l listener : Listener) :
    (a.attend (.subscribe l)).live listener = a.live listener + if l = listener then 1 else 0 := by
  change List.count _ (a.subscriptions ++ [⟨l, false⟩]) = _
  rw [List.count_append, List.count_singleton, live]
  simp

theorem attend_unsubscribe (hs : a.subscriptions[index]? = some s) :
    a.attend (.unsubscribe index) =
      ⟨{ a.desk with store := a.desk.store.unsubscribe s.listener },
        a.subscriptions.set index { s with ended := true }⟩ := by
  rw [attend, hs]

theorem attend_missing (hmissing : a.subscriptions[index]? = none) :
    a.attend (.unsubscribe index) = a := by rw [attend, hmissing]

/-- A function takes out one registration of its listener, whether it was called before or not. -/
theorem registered_unsubscribe (hs : a.subscriptions[index]? = some s) (listener : Listener) :
    (a.attend (.unsubscribe index)).desk.registered listener =
      a.desk.registered listener - if s.listener = listener then 1 else 0 := by
  rw [attend_unsubscribe hs]
  change (a.desk.store.listeners.erase s.listener).count listener = _
  rw [List.count_erase, Desk.registered]
  simp

/-- A function ends its own subscription where that is live. -/
theorem live_unsubscribe (hs : a.subscriptions[index]? = some s) (listener : Listener) :
    (a.attend (.unsubscribe index)).live listener + (if s = ⟨listener, false⟩ then 1 else 0) =
      a.live listener := by
  obtain ⟨hindex, rfl⟩ := List.getElem?_eq_some_iff.mp hs
  have hcount : (a.attend (.unsubscribe index)).live listener =
      a.live listener - if a.subscriptions[index] = ⟨listener, false⟩ then 1 else 0 := by
    rw [attend_unsubscribe hs, live, List.count_set hindex, live]
    simp
  rw [hcount]
  split
  next hown =>
    have hmem : ⟨listener, false⟩ ∈ a.subscriptions := hown ▸ List.getElem_mem hindex
    exact Nat.sub_add_cancel (List.one_le_count_iff.mpr hmem)
  · rfl

theorem registered_operate (a : Audience) (operation : Desk.Operation) :
    (a.attend (.operate operation)).desk.registered = a.desk.registered :=
  Desk.registered_congr
    (Desk.Steps.settings (operation.run_stepwise (.inl trivial) a.desk)).listeners

/-- A call may take out the registration of a subscription that stays live, but it does not end one
and leave its registration. -/
theorem registered_le_live_attend {listener : Listener}
    (hle : a.desk.registered listener ≤ a.live listener) (occasion : Occasion) :
    (a.attend occasion).desk.registered listener ≤ (a.attend occasion).live listener := by
  cases occasion with
  | subscribe l =>
      rw [registered_subscribe, live_subscribe]
      omega
  | unsubscribe index =>
      cases hs : a.subscriptions[index]? with
      | none => rwa [attend_missing hs]
      | some s =>
          have hregistered := registered_unsubscribe hs listener
          have hlive := live_unsubscribe hs listener
          split at hlive
          next hown =>
            rw [hown, if_pos rfl] at hregistered
            omega
          · omega
  | operate operation =>
      rw [registered_operate]
      exact hle

/-- A listener that is registered as often as it has live subscriptions stays so unless a function
intrudes. -/
theorem registered_eq_live_attend_iff {listener : Listener}
    (heq : a.desk.registered listener = a.live listener) (occasion : Occasion) :
    (a.attend occasion).desk.registered listener = (a.attend occasion).live listener ↔
      ∀ index, occasion = .unsubscribe index → ¬ a.Intrudes index listener := by
  cases occasion with
  | subscribe l =>
      rw [registered_subscribe, live_subscribe, heq]
      exact iff_of_true rfl nofun
  | unsubscribe index =>
      simp only [Occasion.unsubscribe.injEq, forall_eq']
      cases hs : a.subscriptions[index]? with
      | none =>
          rw [attend_missing hs, Intrudes, hs]
          exact iff_of_true heq nofun
      | some s =>
          have hlive := live_unsubscribe hs listener
          rw [registered_unsubscribe hs, heq, Intrudes, hs, Option.some.injEq]
          by_cases hl : s.listener = listener
          · rw [if_pos hl]
            obtain ⟨l, ended⟩ := s
            obtain rfl : l = listener := hl
            cases ended with
            -- The first call ends the subscription and takes out a registration.
            | false =>
                rw [if_pos rfl] at hlive
                exact iff_of_true (by omega) nofun
            -- A later call takes out a registration, if there is one, and ends no subscription.
            | true =>
                rw [if_neg nofun] at hlive
                rw [and_iff_right rfl]
                omega
          · have hother (ended : Bool) : s ≠ ⟨listener, ended⟩ := fun hsame =>
              hl (congrArg Subscription.listener hsame)
            rw [if_neg (hother false)] at hlive
            rw [if_neg hl]
            exact iff_of_true hlive.symm fun hintrudes => hother true hintrudes.1
  | operate operation =>
      rw [registered_operate]
      exact iff_of_true heq nofun

/-- Nobody forgets a subscription, called or not. -/
theorem subscribers_attend (a : Audience) (occasion : Occasion) :
    a.subscribers <+: (a.attend occasion).subscribers := by
  cases occasion with
  | subscribe l =>
      refine ⟨[l], ?_⟩
      rw [subscribers, subscribers, attend, List.map_append, List.map_singleton]
  | unsubscribe index =>
      cases hs : a.subscriptions[index]? with
      | none => exact (attend_missing hs).symm ▸ List.prefix_rfl
      | some s =>
          have hlistener : a.subscribers[index]? = some s.listener := by
            rw [subscribers, List.getElem?_map, hs, Option.map_some]
          obtain ⟨hindex, hlistener⟩ := List.getElem?_eq_some_iff.mp hlistener
          have hsame : (a.attend (.unsubscribe index)).subscribers = a.subscribers := by
            rw [attend_unsubscribe hs, subscribers, List.map_set]
            dsimp only
            rw [← hlistener]
            exact List.set_getElem_self hindex
          exact hsame.symm ▸ List.prefix_rfl
  | operate operation => exact List.prefix_rfl

/-- Where no listener subscribed twice, there is no other subscription for a function to end. -/
theorem not_intrudes_of_nodup (honce : a.subscribers.Nodup) (listener : Listener) :
    ¬ a.Intrudes index listener := by
  rintro ⟨hcalled, hlive⟩
  obtain ⟨other, hother⟩ := List.mem_iff_getElem?.mp (List.count_pos_iff.mp hlive)
  have hat {i : Nat} {ended : Bool} (hi : a.subscriptions[i]? = some ⟨listener, ended⟩) :
      a.subscribers[i]? = some listener := by rw [subscribers, List.getElem?_map, hi]; rfl
  obtain ⟨hindex, _⟩ := List.getElem?_eq_some_iff.mp (hat hcalled)
  obtain rfl : index = other :=
    (List.getElem?_inj hindex honce).mp ((hat hcalled).trans (hat hother).symm)
  cases hcalled.symm.trans hother

/-- A connection that gives up the edge at its target changes the graph, and nobody hears of it. -/
theorem lost_edge_unheard {source target : PortRef} {id : Json}
    (hgives : a.desk.GivesUp source target id) (hid : ∀ text, id ≠ .str text)
    (hlinked : a.desk.graph.Linked a.desk.catalog) :
    let after := a.attend (.operate (.connectRefs source target id))
    after.desk.graph ≠ a.desk.graph ∧
      ∀ listener, after.desk.journal.heardBy listener = a.desk.journal.heardBy listener := by
  intro after
  have hlost : a.desk.Evicts after.desk target := (hgives.connectRefs hid hlinked).2
  exact ⟨hlost.graph_ne, Desk.heardBy_congr hlost.told⟩

example :
    let panel (serial : Nat) : Listener := .named "panel" serial
    let wire (id : Json) : Desk.Operation := .connectRefs ⟨"n1", 0⟩ ⟨"n2", 0⟩ id
    let occasions : List Occasion := [
      .operate (.addNode (.str "Constant") (.pair (.int 0) (.int 0))
        (.obj [("valueType", .str "boolean"), ("value", .bool true)]) .null false),
      .operate (.addNode (.str "Logic") (.pair (.int 0) (.int 0)) .null .null false),
      .operate (wire .null), .subscribe (panel 0), .subscribe (panel 1), .unsubscribe 0,
      .unsubscribe 0, .operate (wire (.int 7))]
    let a := occasions.foldl attend (empty (Desk.fresh .attendance ⟨.counting, []⟩))
    a.live (panel 1) = 1 ∧ a.desk.registered (panel 1) = 1 ∧ a.desk.graph.edges = [] ∧
      a.desk.journal.heardBy (panel 1) = [] :=
  ⟨rfl, rfl, rfl, rfl⟩

/-! ## Runs -/

theorem subscribers_foldl (a : Audience) (occasions : List Occasion) :
    a.subscribers <+: (occasions.foldl attend a).subscribers := by
  induction occasions generalizing a with
  | nil => exact List.prefix_rfl
  | cons occasion rest ih => exact (subscribers_attend a occasion).trans (ih _)

theorem registered_le_live_foldl (d : Desk Double) (occasions : List Occasion)
    (listener : Listener) :
    let a := occasions.foldl attend (empty d)
    a.desk.registered listener ≤ a.live listener := by
  induction occasions using List.reverseRecOn with
  | nil => exact Nat.le_refl 0
  | append_singleton earlier occasion ih =>
      rw [List.foldl_append]
      exact registered_le_live_attend ih occasion

/-- All through a run a listener is registered as often as it has live subscriptions, just if no
function intrudes on it in the run. -/
theorem registered_eq_live_foldl_iff (d : Desk Double) (occasions : List Occasion)
    (listener : Listener) :
    let reached (played : List Occasion) := played.foldl attend (empty d)
    (∀ played, played <+: occasions →
      (reached played).desk.registered listener = (reached played).live listener) ↔
    ∀ played index, played ++ [.unsubscribe index] <+: occasions →
      ¬ (reached played).Intrudes index listener := by
  intro reached
  have hstep (played : List Occasion) (occasion : Occasion) :
      reached (played ++ [occasion]) = (reached played).attend occasion := List.foldl_append
  constructor
  · intro hpace played index hprefix
    have hafter := hpace _ hprefix
    rw [hstep] at hafter
    have hbefore := hpace played ((List.prefix_append played _).trans hprefix)
    exact (registered_eq_live_attend_iff hbefore _).mp hafter index rfl
  · intro hfair played hprefix
    induction played using List.reverseRecOn with
    | nil => rfl
    | append_singleton earlier occasion ih =>
        rw [hstep]
        refine (registered_eq_live_attend_iff (ih ?_) occasion).mpr ?_
        · exact (List.prefix_append earlier _).trans hprefix
        · rintro index rfl
          exact hfair earlier index hprefix

/-- Every listener hears of every change once for each of its live subscriptions, just if it is
registered that often. -/
theorem serves_live_iff (d : Desk Double) (occasions : List Occasion) :
    let a := occasions.foldl attend (empty d)
    a.desk.Serves a.live ↔ ∀ listener, a.desk.registered listener = a.live listener := by
  intro a
  constructor
  · intro hserved listener
    have hle := registered_le_live_foldl d occasions listener
    exact Nat.le_antisymm hle (hserved.le_registered listener)
  · intro hsame
    rw [← funext hsame]
    exact Desk.serves_registered _

/-- Where nobody subscribes twice, every listener is served, whichever functions are called how
often. -/
theorem serves_live_of_nodup (d : Desk Double) (occasions : List Occasion)
    (honce : (occasions.foldl attend (empty d)).subscribers.Nodup) :
    let a := occasions.foldl attend (empty d)
    a.desk.Serves a.live := by
  intro a
  refine (serves_live_iff d occasions).mpr fun listener => ?_
  refine (registered_eq_live_foldl_iff d occasions listener).mpr ?_ occasions List.prefix_rfl
  rintro played index ⟨rest, rfl⟩
  refine not_intrudes_of_nodup (List.Nodup.sublist (List.IsPrefix.sublist ?_) honce) listener
  rw [List.append_assoc, List.foldl_append]
  exact subscribers_foldl _ _

/-- Whoever subscribes to a store, however often, whichever functions are called how often, and
whatever is done in between: every change that an operation commits is delivered to each listener as
often as it is registered, in the order of the changes, but for the edge that is given up to a
connection which is refused for its id. That is never more often than it has subscriptions whose own
function was not called; and all through a run it is just as often, for every listener, if and only
if no function is called again while another subscription of its listener is live. -/
theorem delivered_exact (d : Desk Double) (occasions : List Occasion) :
    let reached (played : List Occasion) := played.foldl attend (empty d)
    (reached occasions).desk.Serves (reached occasions).desk.registered ∧
    (∀ listener, (reached occasions).desk.registered listener ≤ (reached occasions).live listener) ∧
    ((∀ played, played <+: occasions → (reached played).desk.Serves (reached played).live) ↔
      ∀ played index listener, played ++ [.unsubscribe index] <+: occasions →
        ¬ (reached played).Intrudes index listener) := by
  intro reached
  refine ⟨Desk.serves_registered _, registered_le_live_foldl d occasions, ?_⟩
  have hserves := serves_live_iff d
  have hpace := registered_eq_live_foldl_iff d occasions
  constructor
  · intro hserved played index listener
    exact (hpace listener).mp (fun p hp => (hserves p).mp (hserved p hp) listener) played index
  · intro hfair played hprefix
    refine (hserves played).mpr fun listener => ?_
    exact (hpace listener).mpr (fun p index => hfair p index listener) played hprefix

/-- A panel subscribes twice, and the first of its functions is called twice. One
subscription is left whose own function was not called, and yet the panel is not told of the
node that is added then. -/
theorem repeated_call_silences :
    let panel : Listener := .named "panel" 0
    let occasions : List Occasion :=
      [.subscribe panel, .subscribe panel, .unsubscribe 0, .unsubscribe 0]
    let a := occasions.foldl attend (empty (Desk.fresh .attendance ⟨.counting, []⟩))
    let operation : Desk.Operation :=
      .addNode (.str "If") (.pair (.int 0) (.int 0)) .null .null false
    let after := (operation.run a.desk).2
    a.subscriptions = [⟨panel, true⟩, ⟨panel, false⟩] ∧ a.live panel = 1 ∧
    after.graph.nodes.map (·.id) = ["n1"] ∧ after.journal.heardBy panel = [] ∧
    ¬ a.desk.Delivers (¬ operation.TextIds) a.live after := by
  intro panel occasions a operation after
  have hadded : after.graph.nodes.map (·.id) = ["n1"] := by decide +kernel
  have hsilent : after.journal.heardBy panel = [] := rfl
  refine ⟨rfl, rfl, hadded, hsilent, ?_⟩
  rintro ⟨changes, hcommits, hheard⟩
  -- Each change would have been heard once, so that there was none; but the graph has a new node.
  have hnone : changes = [] := by
    have hpanel : changes.flatMap (List.replicate 1) = [] := (hheard panel).symm
    refine List.eq_nil_iff_forall_not_mem.mpr fun change hchange => ?_
    exact List.cons_ne_nil change [] (List.flatMap_eq_nil_iff.mp hpanel change hchange)
  have hsame : after.graph = a.desk.graph := hcommits.eq_of_nil (not_not_intro (.inl rfl)) hnone
  rw [hsame] at hadded
  cases hadded

end Audience

end RuleCanvas
