import RuleCanvas.Proofs.Canvas.Card

/-! # Picking

What is picked at a point is fixed by the order of the nodes and by the areas of their ports and
bodies. A port is drawn at its anchor, and over exact coordinates the anchor lies in the area of no
other port of its node, although neighbouring areas share a border. So a port that is not covered by
ports of later nodes is picked where it is drawn.
-/

namespace RuleCanvas

section

variable {α : Type}

namespace Graph

/-- The node is the last added of those with a property. -/
def Topmost (g : Graph α) (P : Node α → Prop) (n : Node α) : Prop :=
  ∃ below above, g.nodes = below ++ n :: above ∧ P n ∧ ∀ m ∈ above, ¬ P m

theorem Topmost.mem {g : Graph α} {P : Node α → Prop} {n : Node α} (h : g.Topmost P n) :
    n ∈ g.nodes := by
  obtain ⟨below, above, hnodes, -⟩ := h
  exact hnodes ▸ List.mem_append_right below List.mem_cons_self

theorem Topmost.unique {g : Graph α} {P : Node α → Prop} {m n : Node α} (hm : g.Topmost P m)
    (hn : g.Topmost P n) : m = n := by
  obtain ⟨below, above, hnodes, hholds, hmiss⟩ := hm
  obtain ⟨below', above', hnodes', hholds', hmiss'⟩ := hn
  -- Otherwise one of the two would lie above the other.
  rcases List.append_eq_append_iff.mp (hnodes.symm.trans hnodes') with
    ⟨between, -, hrest⟩ | ⟨between, -, hrest⟩
  · cases between with
    | nil => exact (List.cons.inj hrest).1
    | cons =>
        cases hrest
        exact absurd hholds' (hmiss n (List.mem_append_right _ List.mem_cons_self))
  · cases between with
    | nil => exact (List.cons.inj hrest).1.symm
    | cons =>
        cases hrest
        exact absurd hholds (hmiss' m (List.mem_append_right _ List.mem_cons_self))

/-- Looking through the nodes from the last to the first stops at the topmost for
which there is an answer. -/
theorem topmost_of_findSome? {β : Type} {g : Graph α} {f : Node α → Option β} {P : Node α → Prop}
    {b : β} (hP : ∀ n, f n = none ↔ ¬ P n) (h : g.nodes.reverse.findSome? f = some b) :
    ∃ n, g.Topmost P n ∧ f n = some b := by
  obtain ⟨above, n, below, hnodes, hfound, hmiss⟩ := List.findSome?_eq_some_iff.mp h
  refine ⟨n, ⟨below.reverse, above.reverse, ?_, ?_, ?_⟩, hfound⟩
  · rw [← List.reverse_reverse g.nodes, hnodes]
    simp
  · by_contra hnot
    rw [(hP n).mpr hnot] at hfound
    cases hfound
  · exact fun m hm => (hP m).mp (hmiss m (List.mem_reverse.mp hm))

theorem findSome?_eq_none {β : Type} {g : Graph α} {f : Node α → Option β} {P : Node α → Prop}
    (hP : ∀ n, f n = none ↔ ¬ P n) (h : g.nodes.reverse.findSome? f = none) :
    ∀ n ∈ g.nodes, ¬ P n :=
  fun n hn => (hP n).mp (List.findSome?_eq_none_iff.mp h n (List.mem_reverse.mpr hn))

end Graph

variable [Scalar α]

namespace Node

/-- The kind of the node has this port. -/
def HasPort (n : Node α) (direction : PortDirection) (index : Nat) : Prop :=
  index < (n.kind.ports direction).length

instance (n : Node α) (direction : PortDirection) (index : Nat) :
    Decidable (n.HasPort direction index) :=
  inferInstanceAs (Decidable (index < (n.kind.ports direction).length))

/-- The point lies in the area of some port of the node. -/
def UnderPort (n : Node α) (p : Point α) : Prop :=
  ∃ direction index, n.HasPort direction index ∧ n.reaches p direction index = true

theorem find?_ports_eq_some {n : Node α} {p : Point α} {direction : PortDirection} {index : Nat}
    (h : (List.range (n.kind.ports direction).length).find? (n.reaches p direction) = some index) :
    n.HasPort direction index ∧ n.reaches p direction index = true :=
  ⟨List.mem_range.mp (List.mem_of_find?_eq_some h), List.find?_some h⟩

theorem portAt?_eq_some {n : Node α} {p : Point α} {direction : PortDirection} {index : Nat}
    (h : n.portAt? p = some (direction, index)) :
    n.HasPort direction index ∧ n.reaches p direction index = true := by
  rw [portAt?, Option.orElse_eq_orElse, Option.orElse_eq_or, Option.or_eq_some_iff] at h
  rcases h with h | ⟨-, h⟩ <;>
    · obtain ⟨found, hfound, heq⟩ := Option.map_eq_some_iff.mp h
      cases heq
      exact find?_ports_eq_some hfound

theorem portAt?_eq_none_iff {n : Node α} {p : Point α} : n.portAt? p = none ↔ ¬ n.UnderPort p := by
  constructor
  · rintro hnone ⟨direction, index, hport, hreaches⟩
    simp only [portAt?, Option.orElse_eq_orElse, Option.orElse_eq_or, Option.or_eq_none_iff,
      Option.map_eq_none_iff, List.find?_eq_none, List.mem_range] at hnone
    cases direction with
    | input => exact hnone.1 index hport hreaches
    | output => exact hnone.2 index hport hreaches
  · intro hmiss
    cases hfound : n.portAt? p with
    | none => rfl
    | some found => exact absurd ⟨found.1, found.2, portAt?_eq_some hfound⟩ hmiss

end Node

namespace Graph

/-- What lies under a point: a port of the topmost node with a port there, or if no node has one,
the topmost body, or if there is none either, nothing. -/
inductive Hits (g : Graph α) (p : Point α) : Option Hit → Prop where
  | port {n : Node α} {direction : PortDirection} {index : Nat}
      (htop : g.Topmost (fun m => m.UnderPort p) n) (hport : n.HasPort direction index)
      (hreaches : n.reaches p direction index = true) : Hits g p (some (.port n.id direction index))
  | body {n : Node α} (hports : ∀ m ∈ g.nodes, ¬ m.UnderPort p)
      (htop : g.Topmost (fun m => m.contains p = true) n) : Hits g p (some (.body n.id))
  | nothing (hports : ∀ m ∈ g.nodes, ¬ m.UnderPort p)
      (hbodies : ∀ m ∈ g.nodes, ¬ m.contains p = true) : Hits g p none

theorem hits_hit? (g : Graph α) (p : Point α) : g.Hits p (g.hit? p) := by
  have hport (n : Node α) :
      ((n.portAt? p).map fun found => Hit.port n.id found.1 found.2) = none ↔ ¬ n.UnderPort p := by
    rw [Option.map_eq_none_iff, Node.portAt?_eq_none_iff]
  have hbody (n : Node α) :
      (if n.contains p then some (Hit.body n.id) else none) = none ↔ ¬ n.contains p = true := by
    split <;> simp_all
  rw [hit?]
  cases hports : g.nodes.reverse.findSome? fun n =>
      (n.portAt? p).map fun found => Hit.port n.id found.1 found.2 with
  | some hit =>
      obtain ⟨n, htop, hfound⟩ := topmost_of_findSome? hport hports
      obtain ⟨⟨direction, index⟩, hport, rfl⟩ := Option.map_eq_some_iff.mp hfound
      obtain ⟨hhas, hreaches⟩ := Node.portAt?_eq_some hport
      exact .port htop hhas hreaches
  | none =>
      have hports := findSome?_eq_none hport hports
      cases hbodies : g.nodes.reverse.findSome? fun n =>
          if n.contains p then some (Hit.body n.id) else none with
      | some hit =>
          obtain ⟨n, htop, hfound⟩ := topmost_of_findSome? hbody hbodies
          split at hfound <;> cases hfound
          exact .body hports htop
      | none => exact .nothing hports (findSome?_eq_none hbody hbodies)

/-- A point in the area of a port is answered with a port. -/
theorem Hits.port_of_under {g : Graph α} {p : Point α} {hit : Option Hit} (h : g.Hits p hit)
    {n : Node α} (hn : n ∈ g.nodes) (hunder : n.UnderPort p) :
    ∃ m direction index, g.Topmost (fun m => m.UnderPort p) m ∧ m.HasPort direction index ∧
      m.reaches p direction index = true ∧ hit = some (.port m.id direction index) := by
  cases h with
  | port htop hport hreaches => exact ⟨_, _, _, htop, hport, hreaches, rfl⟩
  | body hports => exact absurd hunder (hports n hn)
  | nothing hports => exact absurd hunder (hports n hn)

end Graph

end

/-! ## Anchors over exact coordinates -/

namespace Node

theorem anchor_x (n : Node ℚ) (direction : PortDirection) (index : Nat) :
    (n.anchor direction index).x = if direction = .input then n.x - 12 else n.x + 204 := by
  cases direction with
  | input => simp [anchor, Card.portOutset, Scalar.ofInt_rat]
  | output =>
      simp only [anchor, Card.width_rat, Card.portOutset, Scalar.ofInt_rat, reduceCtorEq, if_false]
      push_cast
      ring

theorem anchor_y (n : Node ℚ) (direction : PortDirection) (index : Nat) :
    (n.anchor direction index).y = n.y + 46 + index * 24 := by
  cases direction <;> simp [anchor, Card.portTop, Card.portGap, Scalar.ofInt_rat]

theorem reaches_iff (n : Node ℚ) (p : Point ℚ) (direction : PortDirection) (index : Nat) :
    n.reaches p direction index = true ↔
      |p.x - (n.anchor direction index).x| ≤ 12 ∧ |p.y - (n.anchor direction index).y| ≤ 12 := by
  simp [reaches, Scalar.abs_rat, Card.portReach, Scalar.ofInt_rat]

/-- An anchor lies in the area of its own port and of no other of the node. -/
theorem reaches_anchor_iff (n : Node ℚ) (direction direction' : PortDirection)
    (index index' : Nat) :
    n.reaches (n.anchor direction index) direction' index' = true ↔
      direction' = direction ∧ index' = index := by
  rw [reaches_iff]
  constructor
  · rintro ⟨hacross, hdown⟩
    constructor
    · rw [anchor_x, anchor_x, abs_le] at hacross
      by_contra hne
      -- The two sides of a card are further apart than an area is wide.
      cases direction <;> cases direction' <;> simp only [reduceCtorEq, if_true, if_false]
        at hacross
      all_goals first | exact hne rfl | linarith
    · rw [anchor_y, anchor_y, abs_le] at hdown
      rcases Nat.lt_trichotomy index' index with hlt | heq | hlt
      · have : (index' : ℚ) + 1 ≤ index := by exact_mod_cast hlt
        linarith
      · exact heq
      · have : (index : ℚ) + 1 ≤ index' := by exact_mod_cast hlt
        linarith
  · rintro ⟨rfl, rfl⟩
    simp

theorem underPort_anchor {n : Node ℚ} {direction : PortDirection} {index : Nat}
    (hport : n.HasPort direction index) : n.UnderPort (n.anchor direction index) :=
  ⟨direction, index, hport, (n.reaches_anchor_iff _ _ _ _).mpr ⟨rfl, rfl⟩⟩

end Node

namespace Graph

/-- At the anchor of a port of the topmost node with a port there, that port is hit. -/
theorem Hits.of_anchor {g : Graph ℚ} {n : Node ℚ} {direction : PortDirection} {index : Nat}
    {hit : Option Hit} (h : g.Hits (n.anchor direction index) hit)
    (hport : n.HasPort direction index)
    (htop : g.Topmost (fun m => m.UnderPort (n.anchor direction index)) n) :
    hit = some (.port n.id direction index) := by
  obtain ⟨m, direction', index', htop', -, hreaches, rfl⟩ :=
    h.port_of_under htop.mem (Node.underPort_anchor hport)
  obtain rfl := htop'.unique htop
  obtain ⟨rfl, rfl⟩ := (m.reaches_anchor_iff _ _ _ _).mp hreaches
  rfl

/-- Picking agrees with drawing: every point is answered by the rule of `Hits`, a port that is
answered exists, and the anchor of a port is answered with that port unless a later node has a port
there, in which case the last such node answers. -/
theorem hit?_agrees (g : Graph ℚ) :
    (∀ p, g.Hits p (g.hit? p)) ∧
      (∀ p id direction index, g.hit? p = some (.port id direction index) →
        ∃ n ∈ g.nodes, n.id = id ∧ n.HasPort direction index) ∧
      ∀ below n above, g.nodes = below ++ n :: above →
        ∀ direction index, n.HasPort direction index →
        ((∀ m ∈ above, ¬ m.UnderPort (n.anchor direction index)) →
          g.hit? (n.anchor direction index) = some (.port n.id direction index)) ∧
        ∃ m direction' index', g.Topmost (fun m => m.UnderPort (n.anchor direction index)) m ∧
          m.HasPort direction' index' ∧
          g.hit? (n.anchor direction index) = some (.port m.id direction' index') := by
  refine ⟨g.hits_hit?, ?_, ?_⟩
  · intro p id direction index hhit
    have hhits := g.hits_hit? p
    rw [hhit] at hhits
    cases hhits with
    | port htop hport => exact ⟨_, htop.mem, rfl, hport⟩
  · intro below n above hnodes direction index hport
    have hhits := g.hits_hit? (n.anchor direction index)
    have hunder := Node.underPort_anchor hport
    constructor
    · exact fun hclear => hhits.of_anchor hport ⟨below, above, hnodes, hunder, hclear⟩
    · have hn : n ∈ g.nodes := hnodes ▸ List.mem_append_right below List.mem_cons_self
      obtain ⟨m, direction', index', htop, hport', -, hhit⟩ := hhits.port_of_under hn hunder
      exact ⟨m, direction', index', htop, hport', hhit⟩

/-- The output of a constant covers the first input of a Logic that was added before
it, and not the second. -/
theorem hit?_agrees_covered :
    let below : Node ℚ := ⟨"n1", 0, 0, .logic .and⟩
    let above : Node ℚ := ⟨"n2", -216, 10, .constant (.bool true)⟩
    let g : Graph ℚ := ⟨[below, above], [], []⟩
    g.nodes = [] ++ below :: [above] ∧
    below.HasPort .input 0 ∧ above.UnderPort (below.anchor .input 0) ∧
    (∃ m direction index, g.Topmost (fun m => m.UnderPort (below.anchor .input 0)) m ∧
      m.HasPort direction index ∧
      g.hit? (below.anchor .input 0) = some (.port m.id direction index)) ∧
    g.hit? (below.anchor .input 0) = some (.port "n2" .output 0) ∧
    below.HasPort .input 1 ∧ (∀ m ∈ [above], ¬ m.UnderPort (below.anchor .input 1)) ∧
    g.hit? (below.anchor .input 1) = some (.port "n1" .input 1) := by
  intro below above g
  have hagrees := (hit?_agrees g).2.2 [] below [above] rfl .input
  have hfirst : below.HasPort .input 0 := by decide
  have hsecond : below.HasPort .input 1 := by decide
  have hcovered : above.UnderPort (below.anchor .input 0) :=
    ⟨.output, 0, by decide, by decide +kernel⟩
  have hclear : ∀ m ∈ [above], ¬ m.UnderPort (below.anchor .input 1) := by
    rw [List.forall_mem_singleton, ← Node.portAt?_eq_none_iff]
    decide +kernel
  exact ⟨rfl, hfirst, hcovered, (hagrees 0 hfirst).2, by decide +kernel, hsecond, hclear,
    (hagrees 1 hsecond).1 hclear⟩

end Graph

end RuleCanvas
