import RuleCanvas.Proofs.Rule.Normal
import RuleCanvas.Proofs.Store.Atomic

/-! # The forest of an import

Nothing makes an import of a list of rules fail. It gives a Result for each rule, and every other
node feeds one input at most. One that feeds none was refused where it was to go, as its type did
not fit, and just that is what a report of an unwired operand says.
-/

namespace RuleCanvas.Rule

/-! ## Planning -/

/-- No issue of a list says that an operand was left unwired. -/
def Unrefused (issues : List ImportIssue) : Prop :=
  ∀ issue ∈ issues, saysUnwired issue.message = false

theorem unrefused_nil : Unrefused [] := nofun

theorem unrefused_singleton {path message : String} (hmessage : saysUnwired message = false) :
    Unrefused [⟨path, message⟩] := by
  intro issue hissue
  rw [List.mem_singleton.mp hissue]
  exact hmessage

theorem Unrefused.append {issues issues' : List ImportIssue} (hfirst : Unrefused issues)
    (hsecond : Unrefused issues') : Unrefused (issues ++ issues') :=
  List.forall_mem_append.mpr ⟨hfirst, hsecond⟩

theorem ofVariable_unrefused (c : Context) (args : Json) (path : String) :
    Unrefused (Plan.ofVariable c args path).2 := by
  unfold Plan.ofVariable
  cases variableKey? args with
  | none => exact unrefused_singleton (by decide +kernel)
  | some key =>
      dsimp only
      have hdefault : saysUnwired ("Default value of variable '" ++ key ++ "' dropped") = false :=
        saysUnwired_append _ (by decide +kernel)
      by_cases hcontains : c.catalog.contains key = true
      · rw [if_pos hcontains]
        split
        · exact unrefused_singleton hdefault
        · exact unrefused_nil
      · rw [if_neg hcontains]
        by_cases hlenient : c.lenient = true
        · rw [if_pos hlenient]
          refine .append ?_ (unrefused_singleton (saysUnwired_append _ (by decide +kernel)))
          split
          · exact unrefused_singleton hdefault
          · exact unrefused_nil
        · rw [if_neg hlenient]
          refine .append ?_ (unrefused_singleton (saysUnwired_append _ (by decide +kernel)))
          split
          · exact unrefused_singleton hdefault
          · exact unrefused_nil

theorem ofLogic_unrefused (o : LogicOperator) (args : Json) {operands : List Plan.Draft}
    (path : String) (hoperands : ∀ draft ∈ operands, Unrefused draft.2) :
    Unrefused (Plan.ofLogic o args operands path).2 := by
  have hissues : Unrefused (operands.flatMap (·.2)) := by
    intro issue hissue
    obtain ⟨draft, hdraft, hmem⟩ := List.mem_flatMap.mp hissue
    exact hoperands draft hdraft issue hmem
  unfold Plan.ofLogic
  dsimp only
  split
  · exact unrefused_singleton (saysUnwired_append _ (by decide +kernel))
  · exact hissues.append (unrefused_singleton (saysUnwired_append _ (by decide +kernel)))
  · exact hissues.append (unrefused_singleton (saysUnwired_append _ (by decide +kernel)))
  · refine hissues.append ?_
    split
    · exact unrefused_nil
    · exact unrefused_singleton (saysUnwired_append _ (by decide +kernel))

theorem nullIssues_unrefused (condition whenTrue : Json) (path : String) :
    Unrefused (Plan.nullIssues condition whenTrue path) := by
  refine .append ?_ ?_
  · split
    · exact unrefused_singleton (by decide +kernel)
    · exact unrefused_nil
  · split
    · exact unrefused_singleton (by decide +kernel)
    · exact unrefused_nil

theorem NoRule.unrefused {rule : Json} (hrule : NoRule rule) (c : Context) (path : String) :
    Unrefused (Plan.ofRule c rule path).2 := by
  obtain ⟨message, hplan, hmessage⟩ := hrule.plan_eq c path
  rw [hplan]
  exact unrefused_singleton hmessage

mutual

theorem ofRule_unrefused (c : Context) (rule : Json) (path : String) :
    Unrefused (Plan.ofRule c rule path).2 := by
  match rule with
  | .null | .bool _ | .int _ | .float _ | .str _ => exact unrefused_nil
  | .arr _ | .obj [] | .obj (_ :: _ :: _) => exact unrefused_singleton (by decide +kernel)
  | .obj [(operator, args)] =>
      cases Plan.operatorView operator with
      | var =>
          rw [Plan.ofRule_var]
          exact ofVariable_unrefused c args path
      | not =>
          match args with
          | .arr [x] => exact ofRule_unrefused c x _
          | .arr [] | .arr (_ :: _ :: _) => exact unrefused_singleton (by decide +kernel)
          | .null | .bool _ | .int _ | .float _ | .str _ => exact unrefused_nil
          | .obj members => exact ofRule_unrefused c (.obj members) _
      | logic o ho =>
          match args with
          | .arr items =>
              rw [Plan.ofRule_logic _ _ ho]
              exact ofLogic_unrefused o _ path (ofItems_unrefused c items path o.symbol 0)
          | .null | .bool _ | .int _ | .float _ | .str _ | .obj _ =>
              exact (NoRule.logic o ho _ (by simp)).unrefused c path
      | compare o =>
          match args with
          | .arr [x, y] =>
              rw [Plan.ofRule_compare]
              exact (ofRule_unrefused c x _).append (ofRule_unrefused c y _)
          | .arr [] | .arr [_] | .arr (_ :: _ :: _ :: _)
          | .null | .bool _ | .int _ | .float _ | .str _
          | .obj _ => exact (NoRule.compare o _ (by simp)).unrefused c path
      | choice =>
          match args with
          | .arr items =>
              rw [Plan.ofRule_choice]
              exact ofChoice_unrefused c items path
          | .null | .bool _ | .int _ | .float _ | .str _ | .obj _ =>
              exact (NoRule.choice _ (by simp)).unrefused c path
      | unknown _ hvar hnot hand hor hchoice hcompare =>
          exact (NoRule.unknown _ args hvar hnot hand hor hchoice hcompare).unrefused c path

theorem ofItems_unrefused (c : Context) (items : List Json) (path operator : String) (index : Nat) :
    ∀ draft ∈ Plan.ofItems c items path operator index, Unrefused draft.2 := by
  match items with
  | [] => rw [Plan.ofItems]; nofun
  | x :: xs =>
      rw [Plan.ofItems]
      exact List.forall_mem_cons.mpr
        ⟨ofRule_unrefused c x _, ofItems_unrefused c xs path operator (index + 1)⟩

theorem ofChoice_unrefused (c : Context) (items : List Json) (path : String) :
    Unrefused (Plan.ofChoice c items path).2 := by
  match items with
  | [] | [_] => exact unrefused_singleton (by decide +kernel)
  | [condition, whenTrue] =>
      exact ((ofRule_unrefused c condition _).append (ofRule_unrefused c whenTrue _)).append
        (nullIssues_unrefused condition whenTrue path)
  | [condition, whenTrue, whenFalse] =>
      exact (((ofRule_unrefused c condition _).append (ofRule_unrefused c whenTrue _)).append
        (ofRule_unrefused c whenFalse _)).append (nullIssues_unrefused condition whenTrue path)
  | condition :: whenTrue :: x :: y :: rest =>
      have hfolded : Unrefused [⟨path, toString ((x :: y :: rest).length + 2) ++
          "-operand 'if' folded into nested if nodes"⟩] :=
        unrefused_singleton (saysUnwired_append _ (by decide +kernel))
      exact (((hfolded.append (ofChoice_unrefused c (x :: y :: rest) _)).append
        (ofRule_unrefused c condition _)).append (ofRule_unrefused c whenTrue _)).append
          (nullIssues_unrefused condition whenTrue path)

end

theorem plans_unrefused {α : Type} (i : Importer α) (rules : List Json) :
    Unrefused ((i.plans rules).flatMap (·.2)) := by
  intro issue hissue
  obtain ⟨draft, hdraft, hmem⟩ := List.mem_flatMap.mp hissue
  obtain ⟨r, _, rfl⟩ := List.mem_map.mp hdraft
  exact ofRule_unrefused i.context r.1 (rulePath r.2) issue hmem

/-! ## Feeds that do not fit -/

/-- A report of a number or a text that was to go where a boolean is asked for. -/
def Refused (issue : ImportIssue) : Prop :=
  ∃ type : ValueType, (type = .number ∨ type = .string) ∧
    issue.message = "Type mismatch: cannot connect " ++ type.name ++ " to boolean" ++
      "; operand left unwired"

theorem Refused.saysUnwired {issue : ImportIssue} (hrefused : Refused issue) :
    saysUnwired issue.message = true := by
  obtain ⟨type, _, hmessage⟩ := hrefused
  rw [hmessage, Rule.saysUnwired, List.isSuffixOf_iff_suffix, String.toList_append]
  exact .trans ⟨"; ".toList, by decide +kernel⟩ (List.suffix_append _ _)

theorem refused_of_misfit {path : String} {source : ValueType} {kind : NodeKind} {index : Nat} :
    ∀ issue ∈ misfit path source (kind.expected index), Refused issue := by
  intro issue hissue
  unfold misfit at hissue
  split at hissue
  next => cases hissue
  next hmisfit =>
    rw [List.mem_singleton.mp hissue]
    rcases kind.expected_eq_boolean_or_any index with hboolean | hany
    · rw [hboolean] at hmisfit ⊢
      refine ⟨source, ?_, ?_⟩
      · cases source <;> simp_all [ValueType.compatible]
      · cases source <;> rfl
    · rw [hany] at hmisfit
      cases source <;> simp [ValueType.compatible] at hmisfit

theorem misfits_refused (c : Catalog) (kind : NodeKind) (index : Nat) (inputs : Inputs) :
    ∀ issue ∈ inputs.misfits c kind index, Refused issue := by
  cases inputs with
  | done => nofun
  | unwired rest => exact misfits_refused c kind (index + 1) rest
  | wired plan rest =>
      exact List.forall_mem_append.mpr ⟨refused_of_misfit, misfits_refused c kind (index + 1) rest⟩

mutual

theorem allMisfits_refused (c : Catalog) (plan : Plan) :
    ∀ issue ∈ plan.allMisfits c, Refused issue := by
  cases plan with
  | node payload path inputs =>
      exact List.forall_mem_append.mpr
        ⟨inputs_allMisfits_refused c inputs, misfits_refused c payload.kind 0 inputs⟩

theorem inputs_allMisfits_refused (c : Catalog) (inputs : Inputs) :
    ∀ issue ∈ inputs.allMisfits c, Refused issue := by
  cases inputs with
  | done => nofun
  | unwired rest => exact inputs_allMisfits_refused c rest
  | wired plan rest =>
      exact List.forall_mem_append.mpr
        ⟨allMisfits_refused c plan, inputs_allMisfits_refused c rest⟩

end

theorem rulesMisfits_refused {α : Type} (i : Importer α) (plans : List (Option Plan)) :
    ∀ issue ∈ i.rulesMisfits plans, Refused issue := by
  intro issue hissue
  obtain ⟨plan, _, hmem⟩ := List.mem_flatMap.mp hissue
  cases plan with
  | none => cases hmem
  | some plan => exact allMisfits_refused i.context.catalog plan issue hmem

/-! ## Counting edges by their sources -/

namespace Counted

variable {α : Type} {g : Graph α} {results : List String} {reported : Nat}

theorem nodup_sources (hcounted : Counted results g.nodes g.edges reported)
    (hnodup : (g.nodes.map (·.id)).Nodup) : (g.edges.map (·.source.node)).Nodup := by
  obtain ⟨sources, hperm, hsub⟩ := hcounted.sources
  have hinner : ((inner g.nodes).map (·.id)).Nodup := hnodup.sublist (List.filter_sublist.map _)
  exact hperm.nodup_iff.mp (hinner.sublist hsub)

theorem length_outgoing (g : Graph α) (id : String) :
    (g.outgoing id).length = (g.edges.map (·.source.node)).count id := by
  rw [Graph.outgoing, ← List.countP_eq_length_filter, List.count, List.countP_map]
  rfl

theorem outgoing_le_one (hcounted : Counted results g.nodes g.edges reported)
    (hnodup : (g.nodes.map (·.id)).Nodup) (id : String) : (g.outgoing id).length ≤ 1 := by
  rw [length_outgoing]
  exact List.nodup_iff_count_le_one.mp (hcounted.nodup_sources hnodup) id

/-- The sources of the edges are just the inner nodes that have an edge. -/
theorem sources_perm (hcounted : Counted results g.nodes g.edges reported)
    (hnodup : (g.nodes.map (·.id)).Nodup) :
    (g.edges.map (·.source.node)).Perm (((inner g.nodes).map (·.id)).filter fun id =>
      (g.edges.map (·.source.node)).contains id) := by
  have hinner : ((inner g.nodes).map (·.id)).Nodup := hnodup.sublist (List.filter_sublist.map _)
  rw [List.perm_ext_iff_of_nodup (hcounted.nodup_sources hnodup) (hinner.filter _)]
  intro id
  rw [List.mem_filter, List.contains_iff_mem]
  exact ⟨fun hid => ⟨hcounted.sources.subset hid, hid⟩, And.right⟩

theorem isEmpty_outgoing (g : Graph α) (id : String) :
    (g.outgoing id).isEmpty = !(g.edges.map (·.source.node)).contains id := by
  rw [Bool.eq_iff_iff]
  simp [Graph.outgoing, List.filter_eq_nil_iff]

/-- The nodes that are no Results and feed nothing are as many as the feeds that were reported. -/
theorem length_idle (hcounted : Counted results g.nodes g.edges reported)
    (hnodup : (g.nodes.map (·.id)).Nodup) :
    ((inner g.nodes).filter fun n => (g.outgoing n.id).isEmpty).length = reported := by
  have hused := (hcounted.sources_perm hnodup).length_eq
  have hsplit := List.length_eq_length_filter_add
    (fun n : Node α => (g.edges.map (·.source.node)).contains n.id) (l := inner g.nodes)
  have hlength := hcounted.length
  rw [List.filter_map, List.length_map, List.length_map] at hused
  simp only [isEmpty_outgoing]
  simp only [Function.comp_def] at hused
  omega

end Counted

/-! ## Imports -/

/-- What an import makes of a list of rules. There is one Result for each rule, in the order of
the rules, and each is fed as its rule says. Every other node feeds one input at most. Those that
feed none are as many as the reports of an operand that was left unwired, and these come of types
that do not fit only. -/
structure Forest (c : Context) (rules : List Json) (imported : Imported) (g : Graph Double) :
    Prop where
  results : imported.results = (g.ofKind .result).map (·.id)
  fed : List.Forall₂ (fun rule n => ((g.incoming? ⟨n.id, 0⟩).map fun e =>
    g.compileNode e.source.node) = if isNull rule then none else some (normal c rule)) rules
      (g.ofKind .result)
  outgoing : ∀ n ∈ g.nodes, n.kind ≠ .result → (g.outgoing n.id).length ≤ 1
  idle : (g.nodes.filter fun n => n.kind != .result && (g.outgoing n.id).isEmpty).length =
    (imported.issues.filter fun issue => saysUnwired issue.message).length
  refused : ∀ issue ∈ imported.issues, saysUnwired issue.message = true → Refused issue

/-- Results that are fed as the rules of a document are planned compile to their normal forms, each
to that of its own rule. -/
theorem fed_of_holds {i : Importer Double} {g : Graph Double} {rules : List Json}
    (hg : g.Wired i.context.catalog)
    (hholds : g.HoldsRules i.context.catalog (g.ofKind .result) ((i.plans rules).map (·.1))) :
    List.Forall₂ (fun rule n => ((g.incoming? ⟨n.id, 0⟩).map fun e =>
      g.compileNode e.source.node) = if isNull rule then none else some (normal i.context rule))
        rules (g.ofKind .result) := by
  have hplans := hholds.flip
  rw [Importer.plans, List.map_map, List.forall₂_map_left_iff] at hplans
  rw [← List.zipIdx_map_fst 0 rules, List.forall₂_map_left_iff]
  refine hplans.imp fun r n hheld => ?_
  rw [Graph.HoldsRule.compileRule hheld hg, ← isNull_normal i.context r.1]
  exact (ofRule_stands i.context r.1 (rulePath r.2)).map_rule

/-- Of the issues of an import just those of refused feeds say that an operand was left unwired. -/
theorem filter_saysUnwired {planned misfits : List ImportIssue} (hplanned : Unrefused planned)
    (hmisfits : ∀ issue ∈ misfits, Refused issue) :
    ((planned ++ misfits).filter fun issue => saysUnwired issue.message) = misfits := by
  have hnone : (planned.filter fun issue => saysUnwired issue.message) = [] :=
    List.filter_eq_nil_iff.mpr fun issue hissue => by simp [hplanned issue hissue]
  have hall : (misfits.filter fun issue => saysUnwired issue.message) = misfits :=
    List.filter_eq_self.mpr fun issue hissue => (hmisfits issue hissue).saysUnwired
  rw [List.filter_append, hnone, hall, List.nil_append]

theorem run_malformed (i : Importer Double) (d : Desk Double) {document : Json}
    (hnone : ∀ rules, document.member? "status_rules" ≠ some (.arr rules)) :
    ∃ cause d', i.run document d = (.error (.refused (.malformed cause)), d') ∧ d.Untouched d' := by
  cases hrules : rulesOf document with
  | ok rules => exact absurd (member?_of_rulesOf hrules) (hnone rules)
  | error cause =>
      refine ⟨cause, d.count .importRejected, ?_, rfl, rfl⟩
      rw [Importer.run, hrules]
      rfl

/-- Whatever the document and whatever was in the store: if the rules of the document are a list, it
is imported and leaves a forest. If there are none or they are no list, the document is refused as
malformed, the store is as it was and nobody was told of anything. -/
theorem import_forest (i : Importer Double) {d : Desk Double}
    (hcatalog : d.catalog = i.context.catalog) (hguarded : d.store.guarded = true)
    (hnames : Function.Injective d.journal.ids.name) (document : Json) :
    (∀ rules, document.member? "status_rules" = some (.arr rules) →
      ∃ imported d', i.run document d = (.ok imported, d') ∧
        Forest i.context rules imported d'.graph) ∧
    ((∀ rules, document.member? "status_rules" ≠ some (.arr rules)) →
      ∃ cause d', i.run document d = (.error (.refused (.malformed cause)), d') ∧
        d.Untouched d') := by
  refine ⟨fun rules hrules => ?_, run_malformed i d⟩
  obtain ⟨imported, d', hrun, hissues, hwired, hplaced, hholds⟩ := i.run_places hcatalog hguarded
    hnames (rulesOf_of_member? hrules) (plans_proper i rules)
  have hcounted := hplaced.counted (i.plans_of_proper (plans_proper i rules))
  have hresults : (d'.graph.ofKind .result).map (·.id) = imported.results := hcounted.results
  have hreported := filter_saysUnwired (plans_unrefused i rules)
    (rulesMisfits_refused i ((i.plans rules).map (·.1)))
  rw [← hissues] at hreported
  refine ⟨imported, d', hrun, hresults.symm, ?_, ?_, ?_, ?_⟩
  · rw [← hresults, List.forall₂_map_left_iff] at hholds
    exact fed_of_holds hwired hholds
  · exact fun n _ _ => hcounted.outgoing_le_one hwired.nodes_nodup n.id
  · rw [hreported, ← hcounted.length_idle hwired.nodes_nodup, inner, List.filter_filter]
    simp only [Bool.and_comm]
  · intro issue hissue hsays
    refine rulesMisfits_refused i ((i.plans rules).map (·.1)) issue ?_
    rw [← hreported]
    exact List.mem_filter.mpr ⟨hissue, hsays⟩

/-- The number in a negation is refused, and stays in the graph without an edge. -/
theorem import_forest_negated_number :
    let i : Importer Double := ⟨⟨.attendance, false⟩, .usual⟩
    let rules : List Json := [.obj [("not", .int 5)], .null]
    let document : Json := .obj [("status_rules", .arr rules)]
    let d := Desk.fresh i.context.catalog ⟨.counting, []⟩
    ∃ imported d', i.run document d = (.ok imported, d') ∧
      Forest i.context rules imported d'.graph ∧
      imported.issues.map (·.message) =
        ["Type mismatch: cannot connect number to boolean; operand left unwired"] := by
  intro i rules document d
  have hrules : document.member? "status_rules" = some (.arr rules) := rfl
  obtain ⟨imported, d', hrun, hforest⟩ :=
    (import_forest i (d := d) rfl rfl Importer.counting_injective document).1 rules hrules
  refine ⟨imported, d', hrun, hforest, ?_⟩
  have hissues : (i.run document d).1.toOption.map
      (fun imported => imported.issues.map (·.message)) = some
        ["Type mismatch: cannot connect number to boolean; operand left unwired"] := by
    decide +kernel
  rw [hrun] at hissues
  exact Option.some.inj hissues

end RuleCanvas.Rule
