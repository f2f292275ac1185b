import Mathlib.Algebra.Order.Ring.Abs
import RuleCanvas.Proofs.Rule.Seats

/-! # Bands of an import

An imported graph is laid out in bands of rows. A planned subtree with `k` leaves takes `k`
rows, the bands of its inputs follow one another in their order, and rules are apart by an
empty row. Nodes of one column are therefore at least one row apart, and every edge leads
from one column to the next.
-/

namespace RuleCanvas.Rule

variable {i : Importer ℚ} {s : Spacing ℚ}

/-! ## Bands -/

/-- All of some nodes stand in a band of `rows` rows. -/
def InBand (row top : ℚ) (rows : Nat) (nodes : List (Node ℚ)) : Prop :=
  ∀ n ∈ nodes, top ≤ n.y ∧ n.y ≤ top + (rows - 1) * row

mutual

/-- The nodes of a planned subtree, in the order in which they are made, where the top of its band
is `top`: all of them stand in that band, and those of its inputs in bands of their own. -/
inductive Banded (row : ℚ) : ℚ → Plan → List (Node ℚ) → Prop
  | node {top : ℚ} {payload : Payload} {path : String} {inputs : Inputs} {below : List (Node ℚ)}
      {n : Node ℚ} (hinputs : BandedInputs row top inputs below) (hpayload : n.payload = payload)
      (hband : InBand row top (Plan.node payload path inputs).rows (below ++ [n])) :
      Banded row top (.node payload path inputs) (below ++ [n])

/-- The bands of the inputs of a node follow one another from `top` on in their order. -/
inductive BandedInputs (row : ℚ) : ℚ → Inputs → List (Node ℚ) → Prop
  | done (top : ℚ) : BandedInputs row top .done []
  | unwired {top : ℚ} {rest : Inputs} {nodes : List (Node ℚ)}
      (hrest : BandedInputs row top rest nodes) : BandedInputs row top (.unwired rest) nodes
  | wired {top : ℚ} {plan : Plan} {rest : Inputs} {nodes nodes' : List (Node ℚ)}
      (hplan : Banded row top plan nodes)
      (hrest : BandedInputs row (top + plan.rows * row) rest nodes') :
      BandedInputs row top (.wired plan rest) (nodes ++ nodes')

end

/-- The bands of rules follow one another from `top` on, with an empty row after each. The Result of
a rule stands in its band; `null` has one row for its Result. -/
inductive BandedRules (row : ℚ) : ℚ → List (Option Plan) → List (Node ℚ) → Prop
  | nil (top : ℚ) : BandedRules row top [] []
  | null {top : ℚ} {rest : List (Option Plan)} {n : Node ℚ} {nodes : List (Node ℚ)}
      (hresult : n.payload = .result) (hband : InBand row top 1 [n])
      (hrest : BandedRules row (top + 2 * row) rest nodes) :
      BandedRules row top (none :: rest) ([n] ++ nodes)
  | plan {top : ℚ} {plan : Plan} {rest : List (Option Plan)} {n : Node ℚ}
      {nodes nodes' : List (Node ℚ)} (hplan : Banded row top plan nodes)
      (hresult : n.payload = .result) (hband : InBand row top plan.rows [n])
      (hrest : BandedRules row (top + (plan.rows + 1) * row) rest nodes') :
      BandedRules row top (some plan :: rest) (nodes ++ [n] ++ nodes')

theorem inBand_of_takes (hrow : 0 < s.row) {nodes : List (Node ℚ)} {seats : List Seat}
    (htakes : List.Forall₂ (Takes s) nodes seats) {depth first rows : Nat}
    (hwithin : ∀ a ∈ seats, a.Within depth first rows) :
    InBand s.row (s.line first) rows nodes := by
  intro n hn
  obtain ⟨a, ha, hna⟩ := exists_takes htakes hn
  obtain ⟨_, hfirst, hlast, hpos⟩ := hwithin a ha
  have habove := Spacing.rows_le_rows hrow hfirst
  have hbelow := Spacing.rows_le_rows hrow hlast
  have hrows := Spacing.rows_le_rows hrow hpos
  push_cast at hbelow hrows
  simp only [hna.y_eq, Spacing.y_rat, Spacing.line]
  constructor <;> linarith

mutual

theorem Placed.banded (hrow : 0 < i.spacing.row) {depth first : Nat} {plan : Plan} {id : String}
    {nodes : List (Node ℚ)} {edges : List Edge}
    (hplaced : Placed i depth (i.spacing.line first) plan id nodes edges) :
    Banded i.spacing.row (i.spacing.line first) plan nodes := by
  have hband := inBand_of_takes hrow hplaced.takes (plan.seats_within depth first)
  cases plan with
  | node payload path inputs =>
      cases hplaced with
      | node _ hinputs _ => exact .node (hinputs.banded hrow) rfl hband

theorem PlacedInputs.banded (hrow : 0 < i.spacing.row) {depth first index : Nat} {inputs : Inputs}
    {feeds : List Feed} {nodes : List (Node ℚ)} {edges : List Edge}
    (hplaced : PlacedInputs i depth (i.spacing.line first) index inputs feeds nodes edges) :
    BandedInputs i.spacing.row (i.spacing.line first) inputs nodes := by
  cases inputs with
  | done =>
      cases hplaced
      exact .done _
  | unwired rest =>
      cases hplaced with
      | unwired hrest => exact .unwired (hrest.banded hrow)
  | wired plan rest =>
      cases hplaced with
      | wired hplan hrest =>
          rw [Spacing.below_line] at hrest
          refine .wired (hplan.banded hrow) ?_
          rw [← Spacing.line_add]
          exact hrest.banded hrow

end

theorem PlacedRules.banded (hrow : 0 < i.spacing.row) {first : Nat} {plans : List (Option Plan)}
    {ids : List String} {nodes : List (Node ℚ)} {edges : List Edge}
    (hplaced : PlacedRules i (i.spacing.line first) plans ids nodes edges) :
    BandedRules i.spacing.row (i.spacing.line first) plans nodes := by
  induction plans generalizing first ids nodes edges with
  | nil =>
      cases hplaced
      exact .nil _
  | cons plan rest ih =>
      cases hplaced with
      | cons hplan hrest =>
          have hbands := inBand_of_takes hrow hplan.takes (ruleSeats_within plan first)
          rw [Spacing.below_line] at hrest
          have hlater := ih hrest
          rw [Spacing.line_add] at hlater
          cases hplan with
          | null id => exact .null rfl hbands (by simpa [Importer.ruleRows] using hlater)
          | plan id edge hplan =>
              refine .plan (hplan.banded hrow) rfl (fun n hn => ?_)
                (by simpa [Importer.ruleRows] using hlater)
              exact hbands n (List.mem_append_right _ hn)

/-! ## Edges -/

/-- An edge leads from one of some nodes to another, one column to the right. -/
def Spans (s : Spacing ℚ) (nodes : List (Node ℚ)) (e : Edge) : Prop :=
  ∃ m ∈ nodes, ∃ n ∈ nodes, m.id = e.source.node ∧ n.id = e.target.node ∧ n.x = m.x + s.column

theorem Spans.mono {nodes nodes' : List (Node ℚ)} {e : Edge} (hspans : Spans s nodes e)
    (hsubset : nodes ⊆ nodes') : Spans s nodes' e := by
  obtain ⟨m, hm, n, hn, hends⟩ := hspans
  exact ⟨m, hsubset hm, n, hsubset hn, hends⟩

theorem Wires.target_eq {c : Catalog} {kind : NodeKind} {target : String} {index : Nat}
    {inputs : Inputs} {feeds : List Feed} {wires : List Edge}
    (hwires : Wires c kind target index inputs feeds wires) :
    ∀ e ∈ wires, e.target.node = target := by
  induction hwires with
  | done => simp
  | unwired _ ih => exact ih
  | fits _ _ _ _ ih => exact List.forall_mem_cons.mpr ⟨rfl, ih⟩
  | refused _ _ _ ih => exact ih

theorem Placed.root {depth : Nat} {top : ℚ} {plan : Plan} {id : String} {nodes : List (Node ℚ)}
    {edges : List Edge} (hplaced : Placed i depth top plan id nodes edges) :
    ∃ n ∈ nodes, n.id = id ∧ n.x = i.spacing.x depth := by
  cases hplaced with
  | node _ _ _ => exact ⟨_, List.mem_append_right _ (List.mem_singleton_self _), rfl, rfl⟩

/-- The feeds that are collected for a node come from the column to its left. -/
theorem PlacedInputs.roots {depth index : Nat} {top : ℚ} {inputs : Inputs} {feeds : List Feed}
    {nodes : List (Node ℚ)} {edges : List Edge}
    (hplaced : PlacedInputs i depth top index inputs feeds nodes edges) :
    ∀ id ∈ feeds.map (·.id), ∃ n ∈ nodes, n.id = id ∧ n.x = i.spacing.x depth := by
  cases inputs with
  | done =>
      cases hplaced
      simp
  | unwired rest =>
      cases hplaced with
      | unwired hrest => exact hrest.roots
  | wired plan rest =>
      cases hplaced with
      | wired hplan hrest =>
          intro id hid
          rcases List.mem_cons.mp hid with rfl | hid
          · obtain ⟨n, hn, hroot⟩ := hplan.root
            exact ⟨n, List.mem_append_left _ hn, hroot⟩
          · obtain ⟨n, hn, hroot⟩ := hrest.roots id hid
            exact ⟨n, List.mem_append_right _ hn, hroot⟩

mutual

theorem Placed.spans {depth : Nat} {top : ℚ} {plan : Plan} {id : String} {nodes : List (Node ℚ)}
    {edges : List Edge} (hplaced : Placed i depth top plan id nodes edges) :
    ∀ e ∈ edges, Spans i.spacing nodes e := by
  cases plan with
  | node payload path inputs =>
      cases hplaced with
      | node _ hinputs hwires =>
          intro e he
          rcases List.mem_append.mp he with he | he
          · exact (hinputs.spans e he).mono (List.subset_append_left _ _)
          · obtain ⟨m, hm, hid, hx⟩ := hinputs.roots e.source.node
              (hwires.sources.subset (List.mem_map_of_mem he))
            refine ⟨m, List.mem_append_left _ hm, _,
              List.mem_append_right _ (List.mem_singleton_self _), hid,
              (hwires.target_eq e he).symm, ?_⟩
            rw [hx, ← Spacing.x_succ]

theorem PlacedInputs.spans {depth index : Nat} {top : ℚ} {inputs : Inputs} {feeds : List Feed}
    {nodes : List (Node ℚ)} {edges : List Edge}
    (hplaced : PlacedInputs i depth top index inputs feeds nodes edges) :
    ∀ e ∈ edges, Spans i.spacing nodes e := by
  cases inputs with
  | done =>
      cases hplaced
      simp
  | unwired rest =>
      cases hplaced with
      | unwired hrest => exact hrest.spans
  | wired plan rest =>
      cases hplaced with
      | wired hplan hrest =>
          intro e he
          rcases List.mem_append.mp he with he | he
          · exact (hplan.spans e he).mono (List.subset_append_left _ _)
          · exact (hrest.spans e he).mono (List.subset_append_right _ _)

end

theorem PlacedRule.spans {top : ℚ} {plan : Option Plan} {id : String} {nodes : List (Node ℚ)}
    {edges : List Edge} (hplaced : PlacedRule i top plan id nodes edges) :
    ∀ e ∈ edges, Spans i.spacing nodes e := by
  cases hplaced with
  | null id => simp
  | plan id edge hplan =>
      intro e he
      rcases List.mem_append.mp he with he | he
      · exact (hplan.spans e he).mono (List.subset_append_left _ _)
      · rw [List.mem_singleton.mp he]
        obtain ⟨m, hm, hid, hx⟩ := hplan.root
        refine ⟨m, List.mem_append_left _ hm, _,
          List.mem_append_right _ (List.mem_singleton_self _), hid, rfl, ?_⟩
        rw [hx, ← Spacing.x_succ]

theorem PlacedRules.spans {top : ℚ} {plans : List (Option Plan)} {ids : List String}
    {nodes : List (Node ℚ)} {edges : List Edge}
    (hplaced : PlacedRules i top plans ids nodes edges) : ∀ e ∈ edges, Spans i.spacing nodes e := by
  induction hplaced with
  | nil => simp
  | cons hplan _ ih =>
      intro e he
      rcases List.mem_append.mp he with he | he
      · exact (hplan.spans e he).mono (List.subset_append_left _ _)
      · exact (ih e he).mono (List.subset_append_right _ _)

/-! ## Imports -/

/-- How the graph of an import is laid out. Every edge leads to the next column; two nodes of one
column are at least one row apart; and each planned subtree has a band of its own. -/
structure Laid (s : Spacing ℚ) (plans : List (Option Plan)) (g : Graph ℚ) : Prop where
  edges : ∀ e ∈ g.edges, ∃ source target, g.node? e.source.node = some source ∧
    g.node? e.target.node = some target ∧ target.x = source.x + s.column
  apart : ∀ m ∈ g.nodes, ∀ n ∈ g.nodes, m ≠ n → m.x = n.x → s.row ≤ |m.y - n.y|
  banded : BandedRules s.row Spacing.top plans g.nodes

/-- Over exact coordinates, with a positive distance between columns and between rows: whatever
the rules of a document are, and whatever was in the store, the import succeeds, and its graph
is laid out in bands. -/
theorem import_banded {i : Importer ℚ} (hcolumn : 0 < i.spacing.column) (hrow : 0 < i.spacing.row)
    {d : Desk ℚ} (hcatalog : d.catalog = i.context.catalog) (hguarded : d.store.guarded = true)
    (hnames : Function.Injective d.journal.ids.name) {document : Json} {rules : List Json}
    (hrules : document.member? "status_rules" = some (.arr rules)) :
    ∃ imported d', i.run document d = (.ok imported, d') ∧
      Laid i.spacing ((i.plans rules).map (·.1)) d'.graph := by
  obtain ⟨imported, d', hrun, _, hwired, hplaced, _⟩ := i.run_places hcatalog hguarded hnames
    (rulesOf_of_member? hrules) (plans_proper i rules)
  refine ⟨imported, d', hrun, fun e he => ?_, fun m hm n hn hne hx => ?_, ?_⟩
  · obtain ⟨m, hm, n, hn, hsource, htarget, hx⟩ := hplaced.spans e he
    refine ⟨m, n, ?_, ?_, hx⟩
    · rw [← hsource]
      exact Graph.node?_of_mem hwired.nodes_nodup hm
    · rw [← htarget]
      exact Graph.node?_of_mem hwired.nodes_nodup hn
  · obtain ⟨a, _, b, _, hpair | hpair⟩ := seats_pair_of_placed hplaced hm hn hne
    · have hdepth := hpair.upper.depth_eq hpair.lower hcolumn hx
      rw [abs_sub_comm]
      exact (hpair.row_le_sub hrow hdepth).trans (le_abs_self _)
    · have hdepth := hpair.upper.depth_eq hpair.lower hcolumn hx.symm
      exact (hpair.row_le_sub hrow hdepth).trans (le_abs_self _)
  · rw [← i.spacing.line_zero] at hplaced ⊢
    exact hplaced.banded hrow

/-- The number in a negation is refused and has its row all the same. The conjunction stands in the
middle of its two rows, and an empty row goes before the Result of the rule that is `null`. -/
theorem import_banded_refused_operand :
    let i : Importer ℚ := ⟨⟨.attendance, false⟩, ⟨1 / 4, 1 / 3, 0⟩⟩
    let rules : List Json := [.obj [("and", .arr [.obj [("not", .int 5)], .bool true])], .null]
    let document : Json := .obj [("status_rules", .arr rules)]
    let d := Desk.fresh i.context.catalog ⟨.counting, []⟩
    (0 : ℚ) < 1 / 4 ∧ (0 : ℚ) < 1 / 3 ∧ ∃ imported d', i.run document d = (.ok imported, d') ∧
      Laid i.spacing ((i.plans rules).map (·.1)) d'.graph ∧
      d'.graph.nodes.map (fun n => (n.kind, n.x, n.y - Spacing.top)) =
        [(.constant, -3 / 4, 0), (.logic, -1 / 2, 0), (.constant, -1 / 2, 1 / 3),
          (.logic, -1 / 4, 1 / 6), (.result, 0, 1 / 6), (.result, 0, 1)] := by
  intro i rules document d
  have hrules : document.member? "status_rules" = some (.arr rules) := rfl
  have hcolumn : 0 < i.spacing.column := by decide +kernel
  have hrow : 0 < i.spacing.row := by decide +kernel
  obtain ⟨imported, d', hrun, hlaid⟩ :=
    import_banded hcolumn hrow (d := d) rfl rfl Importer.counting_injective hrules
  refine ⟨hcolumn, hrow, imported, d', hrun, hlaid, ?_⟩
  have hnodes : (i.run document d).2.graph.nodes.map (fun n => (n.kind, n.x, n.y - Spacing.top)) =
      [(.constant, -3 / 4, 0), (.logic, -1 / 2, 0), (.constant, -1 / 2, 1 / 3),
        (.logic, -1 / 4, 1 / 6), (.result, 0, 1 / 6), (.result, 0, 1)] := by
    decide +kernel
  rw [hrun] at hnodes
  exact hnodes

end RuleCanvas.Rule
