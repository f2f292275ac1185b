import RuleCanvas.Proofs.Rule.Layout
import RuleCanvas.Proofs.Rule.Size
import RuleCanvas.Proofs.Store.Reachable

/-! # Size of imported graphs

An import makes at most the nodes that are planned, at any desk and whether it succeeds or fails, as
each node of a plan is made by one operation and nothing else adds nodes but Results. So what bounds
the plans of the rules of a document bounds the graph.
-/

namespace RuleCanvas

namespace Rule

/-! ## Operations that add nodes -/

section

variable {α β γ : Type}

/-- An operation that adds no more than `n` nodes besides Results, whether it succeeds or fails. -/
def Adds (n : Nat) (operation : Edit α β) : Prop :=
  ∀ d, (inner (operation d).2.graph.nodes).length ≤ (inner d.graph.nodes).length + n

namespace Adds

theorem pure (b : β) : Adds 0 (pure b : Edit α β) := fun _ => Nat.le_refl _

theorem bind {m n : Nat} {x : Edit α β} {f : β → Edit α γ} (hx : Adds m x)
    (hf : ∀ b, Adds n (f b)) : Adds (m + n) (x >>= f) := by
  intro d
  rcases hresult : x d with ⟨result, middle⟩
  have hfirst : (inner middle.graph.nodes).length ≤ (inner d.graph.nodes).length + m := by
    have := hx d
    rwa [hresult] at this
  cases result with
  | error fault =>
      rw [Edit.bind_error hresult]
      dsimp only
      omega
  | ok b =>
      have hsecond := hf b middle
      rw [Edit.bind_ok hresult]
      omega

theorem of_nodes {operation : Edit α β} (h : ∀ d, (operation d).2.graph.nodes = d.graph.nodes) :
    Adds 0 operation := fun d => Nat.le_of_eq (congrArg (fun nodes => (inner nodes).length) (h d))

end Adds

theorem length_inner_singleton_le {n : Nat} {node : Node α} (hn : node.payload ≠ .result → 1 ≤ n) :
    (inner [node]).length ≤ n := by
  by_cases hresult : node.payload = .result
  · simp [inner, Node.kind, hresult, Payload.kind]
  · exact Nat.le_trans (List.length_filter_le _ _) (hn hresult)

/-- A placed node counts for one, and a Result for none. -/
theorem placeNode_adds {n : Nat} {payload : Payload} (hn : payload ≠ .result → 1 ≤ n)
    (position : Except Fault (Point α)) (given : Json) :
    Adds n fun d => d.placeNode payload position given := by
  intro d
  dsimp only
  unfold Desk.placeNode
  rcases hchoose : d.chooseId given with ⟨id, chosen⟩
  have hchosen : chosen.graph.nodes = d.graph.nodes :=
    congrArg (fun s => s.graph.nodes) (Desk.chooseId_store hchoose)
  have hkept : (inner chosen.graph.nodes).length ≤ (inner d.graph.nodes).length + n :=
    hchosen ▸ Nat.le_add_right _ n
  have hadded (node : Node α) (hnode : node.payload = payload) :
      (inner (chosen.graph.addNode node).nodes).length ≤ (inner d.graph.nodes).length + n := by
    rw [Graph.addNode, inner_append, List.length_append, hchosen]
    exact Nat.add_le_add_left (length_inner_singleton_le (hnode ▸ hn)) _
  dsimp only
  repeat' split
  all_goals first
    | exact hkept
    | exact hadded _ rfl

/-! ## Placing -/

namespace Importer

variable [Scalar α] (i : Importer α)

theorem make_adds {n : Nat} {payload : Payload} (hn : payload ≠ .result → 1 ≤ n) (depth : Nat)
    (y : α) : Adds n (i.make depth y payload) := by
  intro d
  unfold make Desk.addPayload
  split
  · exact Nat.le_add_right _ n
  next vetted haccept =>
    have hpayload := Desk.payload_of_accept haccept
    have hplaced := placeNode_adds (hpayload ▸ hn) (.ok ⟨i.spacing.x depth, y⟩) .null
      (d.logOptional vetted.warning)
    have hlogged : (d.logOptional vetted.warning).graph.nodes = d.graph.nodes :=
      congrArg (fun s => s.graph.nodes) (d.logOptional_store vetted.warning)
    rw [hlogged] at hplaced
    exact hplaced

omit [Scalar α] in
theorem wire_adds (target : String) (feed : Feed) :
    Adds 0 (wire target feed : Edit α (List ImportIssue)) := by
  refine .of_nodes fun d => ?_
  rw [wire_desk]
  exact d.nodes_connectRefs _ _ _

omit [Scalar α] in
theorem wireAll_adds (target : String) (feeds : List Feed) :
    Adds 0 (wireAll target feeds : Edit α (List ImportIssue)) := by
  induction feeds with
  | nil => exact .pure []
  | cons feed rest ih => exact (wire_adds target feed).bind fun _ => ih.bind fun _ => .pure _

mutual

/-- Placing a plan adds no more nodes than it stands for. -/
theorem place_adds (depth : Nat) (top : α) (plan : Plan) :
    Adds plan.size (i.place depth top plan) := by
  cases plan with
  | node payload path inputs =>
      rw [place]
      exact (placeInputs_adds (depth + 1) top 0 inputs).bind fun _ =>
        (i.make_adds (fun _ => Nat.le_refl 1) _ _).bind fun _ =>
        (wireAll_adds _ _).bind fun _ => .pure _

theorem placeInputs_adds (depth : Nat) (top : α) (index : Nat) (inputs : Inputs) :
    Adds inputs.size (i.placeInputs depth top index inputs) := by
  cases inputs with
  | done =>
      rw [placeInputs]
      exact .pure _
  | unwired rest =>
      rw [placeInputs]
      exact placeInputs_adds depth top (index + 1) rest
  | wired plan rest =>
      rw [placeInputs]
      exact (place_adds depth top plan).bind fun _ =>
        (placeInputs_adds depth _ (index + 1) rest).bind fun _ => .pure _

end

theorem placeRule_adds (top : α) (plan : Option Plan) :
    Adds (plannedSize plan) (i.placeRule top plan) := by
  have hresult : Payload.result ≠ .result → 1 ≤ 0 := fun h => absurd rfl h
  cases plan with
  | none => exact (i.make_adds hresult _ _).bind fun _ => .pure _
  | some plan =>
      exact (i.place_adds _ _ plan).bind fun _ =>
        (i.make_adds hresult _ _).bind fun _ => (wire_adds _ _).bind fun _ => .pure _

theorem placeRules_adds (top : α) (plans : List (Option Plan)) :
    Adds (plannedSizes plans) (i.placeRules top plans) := by
  induction plans generalizing top with
  | nil => exact .pure _
  | cons plan rest ih =>
      exact (i.placeRule_adds top plan).bind fun _ => (ih _).bind fun _ => .pure _

omit [Scalar α] in
theorem finish_adds (issues : List ImportIssue) (results : List String) :
    Adds 0 (finish issues results : Edit α Imported) := by
  refine .of_nodes fun d => ?_
  unfold finish
  dsimp only
  split <;> rfl

/-! ## Documents -/

omit [Scalar α] in
theorem plannedSizes_plans_le (rules : List Json) :
    plannedSizes ((i.plans rules).map (·.1)) ≤ itemCount rules + uncountedItems rules := by
  have hfrom (start : Nat) : plannedSizes (((rules.zipIdx start).map fun r =>
      Plan.ofRule i.context r.1 (rulePath r.2)).map (·.1)) ≤
        itemCount rules + uncountedItems rules := by
    induction rules generalizing start with
    | nil => exact Nat.zero_le _
    | cons rule rest ih =>
        have hrule := plannedSize_ofRule_le i.context rule (rulePath start)
        have hrest := ih (start + 1)
        simp only [List.zipIdx_cons, List.map_cons, plannedSizes_cons, itemCount, uncountedItems]
        omega
  exact hfrom 0

theorem length_inner_run_le (d : Desk α) {document : Json} {rules : List Json}
    (hrules : rulesOf document = .ok rules) :
    (inner (i.run document d).2.graph.nodes).length ≤ itemCount rules + uncountedItems rules := by
  have hplaced := ((i.placeRules_adds Spacing.top ((i.plans rules).map (·.1))).bind fun placed =>
    finish_adds ((i.plans rules).flatMap (·.2) ++ placed.2) placed.1) d.clear
  have hcleared : (inner d.clear.graph.nodes).length = 0 := rfl
  have hplanned := i.plannedSizes_plans_le rules
  rw [hcleared, Nat.zero_add, Nat.add_zero] at hplaced
  rw [run, hrules]
  exact Nat.le_trans hplaced hplanned

end Importer

end

/-- At any desk and whether it succeeds or fails, the import of a list of rules makes no more nodes
besides the Results than are counted of the rules and those that folding makes and that stand for
lists without content. If an import nests nothing anew in the rules it makes no more than are
counted, so that a limit on the count is a limit on the graph. -/
theorem import_size {α : Type} [Scalar α] (i : Importer α) (d : Desk α) {document : Json}
    {rules : List Json} (hrules : document.member? "status_rules" = some (.arr rules)) :
    let made := (inner (i.run document d).2.graph.nodes).length
    made ≤ itemCount rules + uncountedItems rules ∧
      ((∀ rule ∈ rules, unfolded rule = true) →
        made ≤ itemCount rules ∧
          ∀ limit : Int, tooLarge? limit rules = none → (made : Int) ≤ limit) := by
  intro made
  have hmade : made ≤ itemCount rules + uncountedItems rules :=
    i.length_inner_run_le d (rulesOf_of_member? hrules)
  refine ⟨hmade, fun hunfolded => ?_⟩
  rw [uncountedItems_of_unfolded hunfolded, Nat.add_zero] at hmade
  refine ⟨hmade, fun limit hlimit => ?_⟩
  have hcount := tooLarge?_eq_none_iff.mp hlimit
  omega

/-- Ten nodes are counted of a choice over a conjunction of two, which keeps a limit of ten once it
is imported. A chain of two choices, of which eight are counted, makes at most one more. -/
theorem import_size_choice :
    let i : Importer Double := ⟨⟨.attendance, true⟩, .usual⟩
    let d := Desk.fresh .attendance ⟨.counting, []⟩
    let longShift : Json := .obj [(">", .arr [.obj [("var", .str "hours")], .int 8])]
    let nested : List Json := [.obj [("if", .arr [
      .obj [("and", .arr [.obj [("var", .str "on_leave")], longShift])], .str "LATE", .null])]]
    let chained : List Json :=
      [.obj [("if", .arr [.bool true, .str "LATE", longShift, .str "ABSENT"])]]
    let made (rules : List Json) : Nat :=
      (inner (i.run (.obj [("status_rules", .arr rules)]) d).2.graph.nodes).length
    (∀ rule ∈ nested, unfolded rule = true) ∧ tooLarge? 10 nested = none ∧
      (made nested : Int) ≤ 10 ∧ itemCount chained = 8 ∧ made chained ≤ 8 + 1 := by
  intro i d longShift nested chained made
  have hdocument (rules : List Json) :
      (Json.obj [("status_rules", .arr rules)]).member? "status_rules" = some (.arr rules) := by
    simp [Json.member?, Json.find?]
  have hunfolded : ∀ rule ∈ nested, unfolded rule = true := by decide +kernel
  have hlimit : tooLarge? 10 nested = none := by decide +kernel
  have hnested := (import_size i d (hdocument nested)).2 hunfolded
  have hchained := (import_size i d (hdocument chained)).1
  have hsurplus : itemCount chained + uncountedItems chained = 8 + 1 := by decide +kernel
  exact ⟨hunfolded, hlimit, hnested.2 10 hlimit, by decide +kernel,
    Nat.le_trans hchained (Nat.le_of_eq hsurplus)⟩

/-- A conjunction of three and a list without content make more nodes than are counted of them, and
as many as are counted and not counted together. -/
theorem import_size_exceeded :
    let i : Importer Double := ⟨⟨.attendance, true⟩, .usual⟩
    let made (rules : List Json) : Nat := (inner (i.run (.obj [("status_rules", .arr rules)])
      (Desk.fresh .attendance ⟨.counting, []⟩)).2.graph.nodes).length
    let folded : List Json := [.obj [("and", .arr [.bool true, .bool true, .bool true])]]
    let empty : List Json := [.arr []]
    (tooLarge? 4 folded = none ∧ itemCount folded = 4 ∧ made folded = 5 ∧
      uncountedItems folded = 1) ∧
      tooLarge? 0 empty = none ∧ itemCount empty = 0 ∧ made empty = 1 ∧
      uncountedItems empty = 1 := by
  decide +kernel

end Rule

end RuleCanvas
