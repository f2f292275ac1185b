import Mathlib.Data.List.Basic
import Mathlib.Logic.Relation
import RuleCanvas.Graph.Basic

/-! # What the search finds

The search along edges is exact and ends on every graph: it meets a node just if a path of edges
leads there. A turn either takes a node off the stack for good or trades it for the targets of the
edges that leave it, which are then behind the search and are not followed again. From this follows
when a new edge keeps a graph free of cycles.
-/

namespace RuleCanvas.Graph

open Relation

variable {α : Type}

/-- One node feeds another when an edge leads from it to the other. -/
def Feeds (g : Graph α) (source target : String) : Prop :=
  ∃ e ∈ g.edges, e.source.node = source ∧ e.target.node = target

/-- No path of edges leads from a node back to it. -/
def Acyclic (g : Graph α) : Prop := ∀ id, ¬ TransGen g.Feeds id id

theorem mem_targets_outgoing (g : Graph α) (source target : String) :
    target ∈ (g.outgoing source).map (·.target.node) ↔ g.Feeds source target := by
  simp [outgoing, Feeds, and_assoc]

/-! ## The search -/

/-- The edges whose sources the search has not looked at. -/
def ahead (g : Graph α) (seen : List String) : List Edge :=
  g.edges.filter fun e => !seen.contains e.source.node

theorem ahead_nil (g : Graph α) : g.ahead [] = g.edges := by simp [ahead]

/-- Looking at a new node moves the edges that leave it behind the search. -/
theorem length_ahead (g : Graph α) {current : String} {seen : List String}
    (hnew : current ∉ seen) :
    (g.ahead seen).length = (g.outgoing current).length + (g.ahead (current :: seen)).length := by
  have hleaving : g.outgoing current =
      (g.ahead seen).filter fun e => e.source.node == current := by
    rw [ahead, List.filter_filter, outgoing]
    apply List.filter_congr
    intro e _
    by_cases heq : e.source.node = current <;> simp [heq, hnew]
  have hrest : g.ahead (current :: seen) =
      (g.ahead seen).filter fun e => !(e.source.node == current) := by
    rw [ahead, ahead, List.filter_filter]
    apply List.filter_congr
    intro e _
    by_cases heq : e.source.node = current <;> simp [heq]
  rw [hleaving, hrest]
  exact List.length_eq_length_filter_add _

/-- What the turns of a search use up: the nodes on the stack, and the edges ahead. -/
def toDo (g : Graph α) (s : Search) : Nat := s.stack.length + (g.ahead s.seen).length

/-- Every node behind the search has its successors behind it or on the stack, and none of them is
the goal. -/
def Explored (g : Graph α) (goal : String) (s : Search) : Prop :=
  ∀ node ∈ s.seen, node ≠ goal ∧ ∀ next, g.Feeds node next → next ∈ s.seen ∨ next ∈ s.stack

/-- A path leads to the goal from a node on the stack. -/
def Leads (g : Graph α) (goal : String) (s : Search) : Prop :=
  ∃ node ∈ s.stack, ReflTransGen g.Feeds node goal

section

variable {g : Graph α} {goal current : String} {stack seen : List String} {s next : Search}

/-- A path to the goal that starts behind the search leads through a node on the stack that is still
ahead. -/
theorem Explored.exists_ahead {start : String} (hexplored : g.Explored goal s)
    (hpath : ReflTransGen g.Feeds start goal) (hstart : start ∈ s.seen ∨ start ∈ s.stack) :
    ∃ node ∈ s.stack, node ∉ s.seen ∧ ReflTransGen g.Feeds node goal := by
  induction hpath using ReflTransGen.head_induction_on with
  | refl =>
      rcases hstart with hseen | hstack
      · exact absurd rfl (hexplored goal hseen).1
      · exact ⟨goal, hstack, fun hseen => (hexplored goal hseen).1 rfl, .refl⟩
  | head hstep hpath ih =>
      rename_i node next
      by_cases hseen : node ∈ s.seen
      · exact ih ((hexplored node hseen).2 next hstep)
      · exact ⟨node, hstart.resolve_left hseen, hseen, .head hstep hpath⟩

/-- A node that is behind the search already may be taken off the stack. -/
theorem Explored.skip (hexplored : g.Explored goal ⟨current :: stack, seen⟩)
    (hseen : current ∈ seen) : g.Explored goal ⟨stack, seen⟩ := by
  intro node hnode
  refine ⟨(hexplored node hnode).1, fun next hnext => ?_⟩
  rcases (hexplored node hnode).2 next hnext with hmem | hmem
  · exact .inl hmem
  · rcases List.mem_cons.mp hmem with rfl | hmem
    · exact .inl hseen
    · exact .inr hmem

/-- As it is not ahead any more, no path to the goal is lost with it. -/
theorem Explored.leads_skip (hexplored : g.Explored goal ⟨current :: stack, seen⟩)
    (hseen : current ∈ seen) :
    g.Leads goal ⟨stack, seen⟩ ↔ g.Leads goal ⟨current :: stack, seen⟩ := by
  constructor
  · rintro ⟨node, hnode, hpath⟩
    exact ⟨node, List.mem_cons_of_mem _ hnode, hpath⟩
  · rintro ⟨start, hstart, hpath⟩
    obtain ⟨node, hnode, hahead, hpath⟩ := hexplored.exists_ahead hpath (.inr hstart)
    rcases List.mem_cons.mp hnode with rfl | hnode
    · exact absurd hseen hahead
    · exact ⟨node, hnode, hpath⟩

/-- A node that is not the goal goes behind the search when its successors go on the stack. -/
theorem Explored.visit {pushed : List String} (hexplored : g.Explored goal ⟨current :: stack, seen⟩)
    (hpushed : ∀ next, next ∈ pushed ↔ g.Feeds current next) (hgoal : current ≠ goal) :
    g.Explored goal ⟨pushed ++ stack, current :: seen⟩ := by
  intro node hnode
  rcases List.mem_cons.mp hnode with rfl | hnode
  · exact ⟨hgoal, fun next hnext => .inr (List.mem_append_left _ ((hpushed next).mpr hnext))⟩
  · refine ⟨(hexplored node hnode).1, fun next hnext => ?_⟩
    rcases (hexplored node hnode).2 next hnext with hmem | hmem
    · exact .inl (List.mem_cons_of_mem _ hmem)
    · rcases List.mem_cons.mp hmem with rfl | hmem
      · exact .inl List.mem_cons_self
      · exact .inr (List.mem_append_right _ hmem)

/-- A path from a node that is not the goal goes on through one of its successors. -/
theorem leads_visit {pushed : List String} (hpushed : ∀ next, next ∈ pushed ↔ g.Feeds current next)
    (hgoal : current ≠ goal) :
    g.Leads goal ⟨pushed ++ stack, current :: seen⟩ ↔ g.Leads goal ⟨current :: stack, seen⟩ := by
  constructor
  · rintro ⟨node, hnode, hpath⟩
    rcases List.mem_append.mp hnode with hnode | hnode
    · exact ⟨current, List.mem_cons_self, .head ((hpushed node).mp hnode) hpath⟩
    · exact ⟨node, List.mem_cons_of_mem _ hnode, hpath⟩
  · rintro ⟨node, hnode, hpath⟩
    rcases List.mem_cons.mp hnode with rfl | hnode
    · rcases hpath.cases_head with heq | ⟨next, hnext, hrest⟩
      · exact absurd heq hgoal
      · exact ⟨next, List.mem_append_left _ ((hpushed next).mpr hnext), hrest⟩
    · exact ⟨node, List.mem_append_right _ hnode, hpath⟩

/-- An answer of a turn is right. -/
theorem turn_answer {answer : Bool} (hturn : g.turn goal s = .inl answer) :
    answer = true ↔ g.Leads goal s := by
  obtain ⟨stack, seen⟩ := s
  cases stack with
  | nil =>
      cases hturn
      exact ⟨nofun, fun ⟨_, hnode, _⟩ => absurd hnode List.not_mem_nil⟩
  | cons current stack =>
      rw [turn] at hturn
      split at hturn
      next heq =>
        cases hturn
        exact ⟨fun _ => ⟨current, List.mem_cons_self, heq ▸ .refl⟩, fun _ => rfl⟩
      next => split at hturn <;> cases hturn

/-- A turn that goes on keeps what is known of the search and what it will find, and uses something
up. -/
theorem turn_next (hexplored : g.Explored goal s) (hturn : g.turn goal s = .inr next) :
    g.Explored goal next ∧ (g.Leads goal next ↔ g.Leads goal s) ∧ g.toDo next < g.toDo s := by
  obtain ⟨stack, seen⟩ := s
  cases stack with
  | nil => cases hturn
  | cons current stack =>
      rw [turn] at hturn
      split at hturn
      next => cases hturn
      next hgoal =>
        split at hturn
        next hseen =>
          cases hturn
          have hseen : current ∈ seen := by simpa using hseen
          exact ⟨hexplored.skip hseen, hexplored.leads_skip hseen, by simp [toDo]⟩
        next hnew =>
          cases hturn
          have hpushed : ∀ next, next ∈ ((g.outgoing current).map (·.target.node)).reverse ↔
              g.Feeds current next := by
            intro next
            rw [List.mem_reverse, mem_targets_outgoing]
          have hlength := g.length_ahead (show current ∉ seen by simpa using hnew)
          refine ⟨hexplored.visit hpushed hgoal, leads_visit hpushed hgoal, ?_⟩
          simp only [toDo, List.length_append, List.length_reverse, List.length_map,
            List.length_cons]
          omega

/-- With more turns than there is to do, a search comes to the right answer. -/
theorem search_eq_some {turns : Nat} (hexplored : g.Explored goal s) (hturns : g.toDo s < turns) :
    ∃ answer, g.search goal turns s = some answer ∧ (answer = true ↔ g.Leads goal s) := by
  induction turns generalizing s with
  | zero => omega
  | succ turns ih =>
      rw [search]
      split
      next answer hturn => exact ⟨answer, rfl, turn_answer hturn⟩
      next next hturn =>
        obtain ⟨hnext, hleads, hless⟩ := turn_next hexplored hturn
        obtain ⟨answer, hanswer, hright⟩ := ih hnext (by omega)
        exact ⟨answer, hanswer, hright.trans hleads⟩

end

/-- A search from one node has nothing behind it yet. -/
theorem search_start (g : Graph α) (start goal : String) {turns : Nat}
    (hturns : g.edges.length + 2 ≤ turns) :
    ∃ answer, g.search goal turns ⟨[start], []⟩ = some answer ∧
      (answer = true ↔ ReflTransGen g.Feeds start goal) := by
  have hexplored : g.Explored goal ⟨[start], []⟩ := fun _ hnode => absurd hnode List.not_mem_nil
  have htoDo : g.toDo ⟨[start], []⟩ = 1 + g.edges.length := by rw [toDo, ahead_nil]; rfl
  have hless : g.toDo ⟨[start], []⟩ < turns := by omega
  obtain ⟨answer, hanswer, hright⟩ := search_eq_some hexplored hless
  refine ⟨answer, hanswer, hright.trans ⟨?_, fun hpath => ⟨start, List.mem_cons_self, hpath⟩⟩⟩
  rintro ⟨node, hnode, hpath⟩
  rwa [List.mem_singleton.mp hnode] at hpath

/-- The search from a node meets just the nodes that can be reached from it. -/
theorem reaches_iff (g : Graph α) (start goal : String) :
    g.reaches start goal = true ↔ ReflTransGen g.Feeds start goal := by
  obtain ⟨answer, hanswer, hright⟩ := g.search_start start goal (Nat.le_refl _)
  rw [reaches, hanswer, Option.getD_some, hright]

/-! ## Cycles -/

theorem Acyclic.mono {g h : Graph α} (hg : g.Acyclic) (hsub : ∀ e ∈ h.edges, e ∈ g.edges) :
    h.Acyclic := by
  intro id hcycle
  have hle : h.Feeds ≤ g.Feeds := by
    rintro source target ⟨e, he, hends⟩
    exact ⟨e, hsub e he, hends⟩
  exact hg id (TransGen.mono hle id id hcycle)

theorem Acyclic.not_feeds_self {g : Graph α} (hg : g.Acyclic) (id : String) : ¬ g.Feeds id id :=
  fun hself => hg id (.single hself)

/-- A path in a graph with one more edge was there before, or leads up to that
edge and on from it. -/
theorem transGen_insertEdge {g : Graph α} {e : Edge} {start goal : String}
    (hpath : TransGen (g.insertEdge e).Feeds start goal) :
    TransGen g.Feeds start goal ∨
      (ReflTransGen g.Feeds start e.source.node ∧ ReflTransGen g.Feeds e.target.node goal) := by
  have hstep : ∀ {source target}, (g.insertEdge e).Feeds source target →
      g.Feeds source target ∨ (source = e.source.node ∧ target = e.target.node) := by
    rintro source target ⟨f, hf, hsource, htarget⟩
    rcases List.mem_append.mp hf with hold | hnew
    · exact .inl ⟨f, hold, hsource, htarget⟩
    · rw [List.mem_singleton.mp hnew] at hsource htarget
      exact .inr ⟨hsource.symm, htarget.symm⟩
  -- A path that has used the new edge once never needs more than what follows its last use.
  induction hpath with
  | single hlast =>
      rcases hstep hlast with hold | ⟨hsource, htarget⟩
      · exact .inl (.single hold)
      · subst hsource htarget
        exact .inr ⟨.refl, .refl⟩
  | tail _ hlast ih =>
      rcases hstep hlast with hold | ⟨hsource, htarget⟩
      · rcases ih with hpath | ⟨hbefore, hafter⟩
        · exact .inl (hpath.tail hold)
        · exact .inr ⟨hbefore, hafter.tail hold⟩
      · subst hsource htarget
        rcases ih with hpath | ⟨hbefore, _⟩
        · exact .inr ⟨hpath.to_reflTransGen, .refl⟩
        · exact .inr ⟨hbefore, .refl⟩

/-- An edge from a node that its target does not lead to closes no cycle. -/
theorem Acyclic.insertEdge {g : Graph α} (hg : g.Acyclic) {e : Edge}
    (hback : ¬ ReflTransGen g.Feeds e.target.node e.source.node) : (g.insertEdge e).Acyclic := by
  intro id hcycle
  rcases transGen_insertEdge hcycle with hold | ⟨hbefore, hafter⟩
  · exact hg id hold
  · exact hback (hafter.trans hbefore)

end RuleCanvas.Graph
