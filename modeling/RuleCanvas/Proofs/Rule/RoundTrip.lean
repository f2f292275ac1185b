import RuleCanvas.Proofs.Rule.Normal

/-! # Compiling and importing again

The rules of a graph and the normal forms that an import produces have the same shape: binary logic,
choices with all three operands, and operands of fitting types. A rule of that shape is its own
normal form, and planning it repairs nothing and wires every operand. So compiling, importing and
compiling again changes nothing.
-/

namespace RuleCanvas.Rule

/-! ## The shape -/

/-- Whether a rule may stand where a type is asked for. -/
def Serves (c : Catalog) (rule : Json) (expected : ValueType) : Prop :=
  ValueType.compatible (typeOf c rule) expected = true

/-- Rules in normal form, and `null` for an input that is left unwired. -/
inductive IsNormal (c : Context) : Json → Prop
  | null : IsNormal c .null
  | literal (l : Literal) : IsNormal c l.toJson
  | var (key : String) (hkey : key ≠ "")
      (hknown : c.catalog.contains key = true ∨ c.lenient = true) :
      IsNormal c (.obj [("var", .str key)])
  | not (x : Json) (hx : IsNormal c x) (hserves : Serves c.catalog x .boolean) :
      IsNormal c (.obj [("not", x)])
  | logic (o : LogicOperator) (ho : o ≠ .not) (x y : Json) (hx : IsNormal c x) (hy : IsNormal c y)
      (hleft : Serves c.catalog x .boolean) (hright : Serves c.catalog y .boolean) :
      IsNormal c (.obj [(o.symbol, .arr [x, y])])
  | compare (o : CompareOperator) (x y : Json) (hx : IsNormal c x) (hy : IsNormal c y) :
      IsNormal c (.obj [(o.symbol, .arr [x, y])])
  | choice (condition whenTrue whenFalse : Json) (hcondition : IsNormal c condition)
      (htrue : IsNormal c whenTrue) (hfalse : IsNormal c whenFalse)
      (hserves : Serves c.catalog condition .boolean) (hpresent : condition ≠ .null)
      (hvalue : whenTrue ≠ .null) :
      IsNormal c (.obj [("if", .arr [condition, whenTrue, whenFalse])])

variable {c : Context}

theorem serves_null (c : Catalog) (expected : ValueType) : Serves c .null expected := rfl

/-- What an input of a node reads: nothing, or a rule in normal form whose type it accepts. -/
def Reads (c : Context) (expected : ValueType) (rule : Option Json) : Prop :=
  ∀ r ∈ rule, IsNormal c r ∧ r ≠ .null ∧ Serves c.catalog r expected

theorem Reads.getD {expected : ValueType} {rule : Option Json} (hreads : Reads c expected rule)
    {default : Json} (hdefault : IsNormal c default) (hserves : Serves c.catalog default expected) :
    IsNormal c (rule.getD default) ∧ Serves c.catalog (rule.getD default) expected := by
  cases rule with
  | none => exact ⟨hdefault, hserves⟩
  | some r => exact ⟨(hreads r rfl).1, (hreads r rfl).2.2⟩

theorem Reads.getD_ne_null {expected : ValueType} {rule : Option Json}
    (hreads : Reads c expected rule) {default : Json} (hdefault : default ≠ .null) :
    rule.getD default ≠ .null := by
  cases rule with
  | none => exact hdefault
  | some r => exact (hreads r rfl).2.1

/-- A node whose inputs read rules in normal form has one itself. -/
theorem rule_isNormal {p : Payload} (hp : p.Placeable c) {input : Nat → Option Json}
    (hinput : ∀ index < p.kind.inputCount, Reads c (p.kind.expected index) (input index)) :
    IsNormal c (p.rule input) := by
  have hoperand : ∀ index < p.kind.inputCount, IsNormal c ((input index).getD .null) ∧
      Serves c.catalog ((input index).getD .null) (p.kind.expected index) := by
    intro index hindex
    exact (hinput index hindex).getD .null (serves_null _ _)
  cases p with
  | constant l => exact .literal l
  | var key => exact .var key (hp.named key rfl) (hp.known key rfl)
  | result => exact absurd rfl hp.ne_result
  | compare o =>
      exact .compare o _ _ (hoperand 0 (show 0 < NodeKind.compare.inputCount by decide)).1
        (hoperand 1 (show 1 < NodeKind.compare.inputCount by decide)).1
  | choice =>
      have hcondition := hinput 0 (by decide)
      have htrue := hinput 1 (by decide)
      have hdefault := hcondition.getD (.literal (.bool true)) rfl
      exact .choice _ _ _ hdefault.1 (htrue.getD (.literal (.str "PRESENT")) rfl).1
        (hoperand 2 (by decide)).1 hdefault.2 (hcondition.getD_ne_null (by simp))
        (htrue.getD_ne_null (by simp))
  | logic o =>
      have hfirst := hoperand 0 (show 0 < NodeKind.logic.inputCount by decide)
      have hsecond := hoperand 1 (show 1 < NodeKind.logic.inputCount by decide)
      cases o with
      | not => exact .not _ hfirst.1 hfirst.2
      | and => exact .logic .and (by decide) _ _ hfirst.1 hsecond.1 hfirst.2 hsecond.2
      | or => exact .logic .or (by decide) _ _ hfirst.1 hsecond.1 hfirst.2 hsecond.2

/-! ## Normal forms have it -/

mutual

theorem plan_isNormal {plan : Plan} (hplan : plan.Proper c) : IsNormal c (plan.rule c.catalog) := by
  cases plan with
  | node payload path inputs =>
      rw [Plan.rule]
      apply rule_isNormal hplan.1
      intro index _
      have hreads := inputs_reads hplan.2.2 payload.kind 0 index
      rwa [Nat.zero_add] at hreads

theorem inputs_reads {inputs : Inputs} (hinputs : inputs.Proper c) (kind : NodeKind)
    (index offset : Nat) :
    Reads c (kind.expected (index + offset)) (inputs.rules c.catalog kind index)[offset]?.join := by
  cases inputs with
  | done => simp [Inputs.rules, Reads]
  | unwired rest =>
      cases offset with
      | zero => simp [Inputs.rules, Reads]
      | succ offset =>
          rw [Inputs.rules, List.getElem?_cons_succ, ← Nat.add_assoc, Nat.add_right_comm]
          exact inputs_reads (show rest.Proper c from hinputs) kind (index + 1) offset
  | wired plan rest =>
      obtain ⟨hplan, hrest⟩ := hinputs
      cases offset with
      | zero =>
          rw [Inputs.rules, List.getElem?_cons_zero, Option.join_some]
          intro r hr
          rw [Option.mem_def, Option.ite_none_right_eq_some] at hr
          obtain ⟨hfits, hr⟩ := hr
          rw [← Option.some.inj hr]
          refine ⟨plan_isNormal hplan, Plan.rule_ne_null hplan, ?_⟩
          rw [Serves, Plan.typeOf_rule hplan]
          exact hfits
      | succ offset =>
          rw [Inputs.rules, List.getElem?_cons_succ, ← Nat.add_assoc, Nat.add_right_comm]
          exact inputs_reads hrest kind (index + 1) offset

end

theorem Stands.isNormal {plan : Option Plan} {rule : Json} (hstands : Stands c plan rule) :
    IsNormal c rule := by
  cases plan with
  | none =>
      rw [show rule = .null from hstands]
      exact .null
  | some plan =>
      obtain ⟨hproper, rfl⟩ := hstands
      exact plan_isNormal hproper

theorem normal_isNormal (c : Context) (rule : Json) : IsNormal c (normal c rule) :=
  (ofRule_stands c rule "").isNormal

/-! ## Graphs have it -/

/-- In a well wired graph whose variables have names, every node that has an output compiles to a
rule in normal form. -/
theorem compileNode_isNormal {α : Type} {catalog : Catalog} {g : Graph α} (hg : g.Wired catalog)
    (hnamed : ∀ id, g.payload? id ≠ some (.var "")) {id : String} {p : Payload}
    (hpayload : g.payload? id = some p) (hp : p ≠ .result) :
    IsNormal ⟨catalog, true⟩ (g.compileNode id) := by
  -- Along the edges: whatever feeds a node is in normal form already.
  induction id using hg.induction generalizing p with
  | hstep id ih =>
      have hplaceable : p.Placeable ⟨catalog, true⟩ := by
        refine ⟨hp, ?_, fun _ _ => .inr rfl⟩
        rintro key rfl rfl
        exact hnamed id hpayload
      rw [hg.compileNode_eq hpayload]
      apply rule_isNormal hplaceable
      intro index _ r hr
      obtain ⟨e, hin, rfl⟩ := Option.map_eq_some_iff.mp hr
      obtain ⟨source, hsource, hsourceResult, hfits⟩ := hg.source_of_incoming? hpayload hin
      have hrule := hg.compileNode_eq hsource
      refine ⟨ih _ (hg.feeds_of_incoming? hin) hsource hsourceResult, ?_, ?_⟩
      · rw [hrule]
        exact rule_ne_null hsourceResult _
      · rw [Serves, hrule, typeOf_rule hsourceResult]
        exact hfits

/-! ## It is kept by an import -/

theorem normal_literal (c : Context) (l : Literal) : normal c l.toJson = l.toJson := by
  cases l <;> rfl

/-- A rule in normal form is no list. -/
theorem IsNormal.ne_arr {rule : Json} (hrule : IsNormal c rule) (items : List Json) :
    rule ≠ .arr items := by
  cases hrule with
  | literal l => cases l <;> simp [Literal.toJson]
  | _ => simp

theorem operand_of_serves {catalog : Catalog} {rule : Json}
    (hserves : Serves catalog rule .boolean) :
    operand catalog rule = rule := if_pos hserves

/-- A rule in normal form is its own normal form. -/
theorem IsNormal.normal_eq {rule : Json} (hrule : IsNormal c rule) : normal c rule = rule := by
  induction hrule with
  | null => rfl
  | literal l => exact normal_literal c l
  | var key hkey hknown =>
      unfold normal
      simp [variableKey?, hkey, hknown]
  | not x hx hserves ih => rw [normal_not_value c hx.ne_arr, ih, operand_of_serves hserves]
  | logic o ho x y hx hy hleft hright ihx ihy =>
      rw [normal_logic c ho]
      simp only [normalItems, joined, chain]
      rw [ihx, ihy, operand_of_serves hleft, operand_of_serves hright]
  | compare o x y hx hy ihx ihy => rw [normal_compare, ihx, ihy]
  | choice condition whenTrue whenFalse _ _ _ hserves hpresent hvalue ihc iht ihf =>
      rw [normal_choice, normalChoice, chosen, ihc, iht, ihf, operand_of_serves hserves,
        orElse_of_ne hpresent, orElse_of_ne hvalue]

/-! ## Nothing is repaired -/

/-- The one thing that may be reported of a rule in normal form. -/
def UnknownVariable (c : Catalog) (issue : ImportIssue) : Prop :=
  ∃ key, c.contains key = false ∧
    issue.message = "Unknown variable '" ++ key ++ "' imported with type any"

/-- No feed in a plan is refused, and it may itself feed an input of a type. -/
def Accepted (c : Catalog) (expected : ValueType) (plan : Option Plan) : Prop :=
  ∀ p ∈ plan, p.allMisfits c = [] ∧ ValueType.compatible (p.payload.type c) expected = true

/-- No feed of the inputs from `index` on is refused. -/
def Quiet (c : Catalog) (kind : NodeKind) (index : Nat) (inputs : Inputs) : Prop :=
  inputs.allMisfits c = [] ∧ inputs.misfits c kind index = []

theorem quiet_nil (c : Catalog) (kind : NodeKind) (index : Nat) :
    Quiet c kind index (Inputs.ofList []) := ⟨rfl, rfl⟩

theorem Quiet.cons {catalog : Catalog} {kind : NodeKind} {index : Nat} {plan : Option Plan}
    {rest : List (Option Plan)} (hplan : Accepted catalog (kind.expected index) plan)
    (hrest : Quiet catalog kind (index + 1) (Inputs.ofList rest)) :
    Quiet catalog kind index (Inputs.ofList (plan :: rest)) := by
  obtain ⟨hall, hown⟩ := hrest
  cases plan with
  | none => exact ⟨hall, hown⟩
  | some plan =>
      obtain ⟨hinner, hfits⟩ := hplan plan rfl
      constructor
      · rw [Inputs.ofList, Inputs.allMisfits, hinner, hall]
        rfl
      · rw [Inputs.ofList, Inputs.misfits, misfit, if_pos hfits, hown]
        rfl

/-- A draft that reports unknown variables at most, here or when it is placed. -/
structure Clean (c : Catalog) (draft : Plan.Draft) : Prop where
  issues : ∀ issue ∈ draft.2, UnknownVariable c issue
  fits : ∀ p ∈ draft.1, p.allMisfits c = []

theorem Clean.node {catalog : Catalog} {payload : Payload} {inputs : Inputs} (path : String)
    {issues : List ImportIssue} (hissues : ∀ issue ∈ issues, UnknownVariable catalog issue)
    (hinputs : Quiet catalog payload.kind 0 inputs) :
    Clean catalog (some (.node payload path inputs), issues) := by
  refine ⟨hissues, ?_⟩
  rintro p hp
  cases hp
  rw [Plan.allMisfits, hinputs.1, hinputs.2, List.append_nil]

theorem Clean.leaf {catalog : Catalog} (payload : Payload) (path : String)
    {issues : List ImportIssue} (hissues : ∀ issue ∈ issues, UnknownVariable catalog issue) :
    Clean catalog (some (.leaf payload path), issues) := .node path hissues (quiet_nil _ _ _)

theorem serves_any (c : Catalog) (rule : Json) : Serves c rule .any := by
  unfold Serves
  cases typeOf c rule <;> rfl

/-- A plan in which no feed is refused feeds every input where the normal form may stand. -/
theorem accepted_of_serves {rule : Json} {path : String}
    (hfits : ∀ p ∈ (Plan.ofRule c rule path).1, p.allMisfits c.catalog = []) {expected : ValueType}
    (hserves : Serves c.catalog (normal c rule) expected) :
    Accepted c.catalog expected (Plan.ofRule c rule path).1 := by
  intro p hp
  refine ⟨hfits p hp, ?_⟩
  have hstands := ofRule_stands c rule path
  rw [show (Plan.ofRule c rule path).1 = some p from hp] at hstands
  rw [← Plan.typeOf_rule hstands.1, hstands.2]
  exact hserves

/-- The plan of a rule in normal form feeds every input where the rule may stand. -/
theorem Clean.accepted {rule : Json} {path : String}
    (hclean : Clean c.catalog (Plan.ofRule c rule path)) (hrule : IsNormal c rule)
    {expected : ValueType} (hserves : Serves c.catalog rule expected) :
    Accepted c.catalog expected (Plan.ofRule c rule path).1 :=
  accepted_of_serves hclean.fits (hrule.normal_eq.symm ▸ hserves)

theorem ofVariable_named (c : Context) (path : String) {key : String} (hkey : key ≠ "") :
    Plan.ofVariable c (.str key) path =
      if c.catalog.contains key then (some (Plan.leaf (.var key) path), [])
      else if c.lenient then
        (some (Plan.leaf (.var key) path),
          [⟨path, "Unknown variable '" ++ key ++ "' imported with type any"⟩])
      else
        Plan.placeholder (.obj [("var", .str key)]) path ("Unknown variable '" ++ key ++ "'") := by
  simp [Plan.ofVariable, variableKey?, hkey]

theorem ofLogic_pair (o : LogicOperator) (args : Json) (a b : Plan.Draft) (path : String) :
    Plan.ofLogic o args [a, b] path =
      (some (.node (.logic o) path (Inputs.ofList [a.1, b.1])), a.2 ++ b.2) := by
  obtain ⟨plan, issues⟩ := a
  cases plan <;> simp [Plan.ofLogic, Plan.fold]

theorem nullIssues_of_ne (path : String) {condition whenTrue : Json}
    (hcondition : condition ≠ .null)
    (htrue : whenTrue ≠ .null) : Plan.nullIssues condition whenTrue path = [] := by
  cases condition <;> cases whenTrue <;> first | rfl | contradiction

theorem ofRule_literal (c : Context) (l : Literal) (path : String) :
    Plan.ofRule c l.toJson path = (some (.leaf (.constant l) path), []) := by
  cases l <;> simp [Literal.toJson, Plan.ofRule]

/-- Planning a rule in normal form reports unknown variables at most, and every wire of its plan is
accepted. -/
theorem IsNormal.clean {rule : Json} (hrule : IsNormal c rule) (path : String) :
    Clean c.catalog (Plan.ofRule c rule path) := by
  induction hrule generalizing path with
  | null => exact ⟨by simp [Plan.ofRule], by simp [Plan.ofRule]⟩
  | literal l =>
      rw [ofRule_literal]
      exact .leaf _ _ (by simp)
  | var key hkey hknown =>
      rw [Plan.ofRule_var, ofVariable_named c path hkey]
      by_cases hcontains : c.catalog.contains key = true
      · rw [if_pos hcontains]
        exact .leaf _ _ (by simp)
      · rw [if_neg hcontains, if_pos (hknown.resolve_left hcontains)]
        refine .leaf _ _ fun issue hissue => ?_
        rw [List.mem_singleton.mp hissue]
        exact ⟨key, by simpa using hcontains, rfl⟩
  | not x hx hserves ih =>
      have hclean := ih (path ++ ".not")
      rw [Plan.ofRule_not_value c path hx.ne_arr]
      exact .node path hclean.issues (.cons (hclean.accepted hx hserves) (quiet_nil _ _ _))
  | logic o ho x y hx hy hleft hright ihx ihy =>
      have hfirst := ihx (itemPath path o.symbol 0)
      have hsecond := ihy (itemPath path o.symbol 1)
      rw [Plan.ofRule_logic c path ho, Plan.ofItems, Plan.ofItems, Plan.ofItems, ofLogic_pair]
      refine .node path (fun issue hissue => ?_)
        (.cons (hfirst.accepted hx hleft) (.cons (hsecond.accepted hy hright) (quiet_nil _ _ _)))
      exact (List.mem_append.mp hissue).elim (hfirst.issues issue) (hsecond.issues issue)
  | compare o x y hx hy ihx ihy =>
      have hfirst := ihx (itemPath path o.symbol 0)
      have hsecond := ihy (itemPath path o.symbol 1)
      rw [Plan.ofRule_compare]
      refine .node path (fun issue hissue => ?_) (.cons (hfirst.accepted hx (serves_any _ _))
        (.cons (hsecond.accepted hy (serves_any _ _)) (quiet_nil _ _ _)))
      exact (List.mem_append.mp hissue).elim (hfirst.issues issue) (hsecond.issues issue)
  | choice condition whenTrue whenFalse hcondition htrue hfalse hserves hpresent hvalue ihc iht
    ihf =>
      have hfirst := ihc (itemPath path "if" 0)
      have hsecond := iht (itemPath path "if" 1)
      have hthird := ihf (itemPath path "if" 2)
      -- The defaults of a choice are not needed: its condition and its first value are there.
      rw [Plan.ofRule_choice, Plan.ofChoice, nullIssues_of_ne path hpresent hvalue]
      refine .node path (fun issue hissue => ?_) (.cons (hfirst.accepted hcondition hserves)
        (.cons (hsecond.accepted htrue (serves_any _ _))
          (.cons (hthird.accepted hfalse (serves_any _ _)) (quiet_nil _ _ _))))
      rw [List.append_nil, List.mem_append, List.mem_append] at hissue
      rcases hissue with (hissue | hissue) | hissue
      · exact hfirst.issues issue hissue
      · exact hsecond.issues issue hissue
      · exact hthird.issues issue hissue

/-! ## The round trip -/

/-- Letting more variables in keeps a rule in normal form. -/
theorem IsNormal.lenient {c' : Context} {rule : Json} (hrule : IsNormal c rule)
    (hcatalog : c'.catalog = c.catalog) (hlenient : c.lenient = true → c'.lenient = true) :
    IsNormal c' rule := by
  induction hrule with
  | null => exact .null
  | literal l => exact .literal l
  | var key hkey hknown =>
      rw [← hcatalog] at hknown
      exact .var key hkey (hknown.imp_right hlenient)
  | not x _ hserves ih => exact .not x ih (hcatalog ▸ hserves)
  | logic o ho x y _ _ hleft hright ihx ihy =>
      exact .logic o ho x y ihx ihy (hcatalog ▸ hleft) (hcatalog ▸ hright)
  | compare o x y _ _ ihx ihy => exact .compare o x y ihx ihy
  | choice condition whenTrue whenFalse _ _ _ hserves hpresent hvalue ihc iht ihf =>
      exact .choice condition whenTrue whenFalse ihc iht ihf (hcatalog ▸ hserves) hpresent hvalue

/-- If no feed in the plans of rules is refused, the issues of their import are
those of planning. -/
theorem rulesMisfits_eq_nil {α : Type} {i : Importer α} {rules : List Json}
    (hfits : ∀ draft ∈ i.plans rules, ∀ p ∈ draft.1, p.allMisfits i.context.catalog = []) :
    i.rulesMisfits ((i.plans rules).map (·.1)) = [] := by
  refine List.flatMap_eq_nil_iff.mpr fun plan hplan => ?_
  obtain ⟨draft, hdraft, rfl⟩ := List.mem_map.mp hplan
  cases hp : draft.1 with
  | none => rfl
  | some p => exact hfits draft hdraft p hp

/-- Rules in normal form are imported as written: the graph compiles to the same rules again, and
nothing but unknown variables is reported. -/
theorem import_normal (i : Importer Double) (journal : Journal Double)
    (hnames : Function.Injective journal.ids.name) {rules : List Json}
    (hrules : ∀ rule ∈ rules, IsNormal i.context rule ∧ isNull rule = false) :
    ∃ imported d, i.run (.obj [("status_rules", .arr rules)])
        (Desk.fresh i.context.catalog journal) = (.ok imported, d) ∧
      d.graph.ruleTree = .obj [("status_rules", .arr rules)] ∧
      ∀ issue ∈ imported.issues, UnknownVariable i.context.catalog issue := by
  have hdocument : rulesOf (.obj [("status_rules", .arr rules)]) = .ok rules := by
    simp [rulesOf, Json.find?]
  have hsame : normalRules i.context rules = rules := by
    rw [normalRules, List.filter_eq_self.mpr fun rule hrule => by simp [(hrules rule hrule).2]]
    exact (List.map_congr_left fun rule hrule => (hrules rule hrule).1.normal_eq).trans
      (List.map_id rules)
  have hclean : ∀ draft ∈ i.plans rules, Clean i.context.catalog draft := by
    intro draft hdraft
    obtain ⟨⟨rule, index⟩, hmem, rfl⟩ := List.mem_map.mp hdraft
    exact (hrules rule (List.fst_mem_of_mem_zipIdx hmem)).1.clean _
  have hfresh : (Desk.fresh i.context.catalog journal).catalog = i.context.catalog := rfl
  obtain ⟨imported, d, hrun, hissues, htree⟩ := run_normal i hfresh rfl hnames hdocument
  refine ⟨imported, d, hrun, ?_, ?_⟩
  · rw [htree, hsame]
  · intro issue hissue
    rw [hissues, rulesMisfits_eq_nil fun draft hdraft => (hclean draft hdraft).fits,
      List.append_nil] at hissue
    obtain ⟨draft, hdraft, hmem⟩ := List.mem_flatMap.mp hissue
    exact (hclean draft hdraft).issues issue hmem

theorem rules_normal {α : Type} {catalog : Catalog} {g : Graph α} (hg : g.Wired catalog)
    (hnamed : ∀ n ∈ g.nodes, n.payload ≠ .var "") :
    ∀ rule ∈ g.rules, IsNormal ⟨catalog, true⟩ rule ∧ isNull rule = false := by
  intro rule hrule
  obtain ⟨n, hn, hfed⟩ := List.mem_filterMap.mp hrule
  obtain ⟨e, hin, rfl⟩ := Option.map_eq_some_iff.mp hfed
  have hnode : g.payload? n.id = some n.payload :=
    Graph.payload?_of_node? (Graph.node?_of_mem hg.nodes_nodup (List.mem_filter.mp hn).1)
  obtain ⟨source, hsource, hresult, _⟩ := hg.source_of_incoming? hnode hin
  constructor
  · refine compileNode_isNormal hg ?_ hsource hresult
    intro id hid
    obtain ⟨m, hm, hpayload⟩ := Option.map_eq_some_iff.mp hid
    exact hnamed m (Graph.mem_of_node?_eq_some hm) hpayload
  · rw [hg.compileNode_eq hsource]
    exact isNull_of_ne (rule_ne_null hresult _)

theorem normalRules_normal (c : Context) (rules : List Json) :
    ∀ rule ∈ normalRules c rules, IsNormal c rule ∧ isNull rule = false := by
  intro rule hrule
  obtain ⟨r, hr, rfl⟩ := List.mem_map.mp hrule
  refine ⟨normal_isNormal c r, ?_⟩
  rw [isNull_normal]
  simpa using (List.mem_filter.mp hr).2

/-- Whatever store is reached, as long as no variable in it has the empty name: what it compiles to
can be imported with unknown variables let in, compiles to the same value again, and causes no
report but of unknown variables. And whatever list of rules a document has: what its import compiles
to is a fixed point of importing and compiling. -/
theorem ruleTree_round_trip :
    (∀ (catalog : Catalog) (journal journal' : Journal Double) (turns : List Desk.Turn)
        (spacing : Spacing Double),
      let d := turns.foldl Desk.play (Desk.fresh catalog journal)
      let i : Importer Double := ⟨⟨d.catalog, true⟩, spacing⟩
      (∀ n ∈ d.graph.nodes, n.payload ≠ .var "") → Function.Injective journal'.ids.name →
      ∃ imported d', i.run d.graph.ruleTree (Desk.fresh d.catalog journal') = (.ok imported, d') ∧
        d'.graph.ruleTree = d.graph.ruleTree ∧
        ∀ issue ∈ imported.issues, UnknownVariable d.catalog issue) ∧
    (∀ (i j : Importer Double) (journal journal' : Journal Double) (document : Json)
        (rules : List Json),
      j.context.catalog = i.context.catalog →
      (i.context.lenient = true → j.context.lenient = true) →
      Function.Injective journal.ids.name → Function.Injective journal'.ids.name →
      document.member? "status_rules" = some (.arr rules) →
      ∃ imported d, i.run document (Desk.fresh i.context.catalog journal) = (.ok imported, d) ∧
        ∃ imported' d',
          j.run d.graph.ruleTree (Desk.fresh j.context.catalog journal') = (.ok imported', d') ∧
          d'.graph.ruleTree = d.graph.ruleTree) := by
  constructor
  · intro catalog journal journal' turns spacing d i hnamed hnames
    have hwired : d.graph.Wired d.catalog := ((Desk.Sound.fresh catalog journal).foldl_play turns).2
    exact import_normal i journal' hnames (rules_normal hwired hnamed)
  · intro i j journal journal' document rules hcatalog hlenient hnames hnames' hrules
    have hfresh : (Desk.fresh i.context.catalog journal).catalog = i.context.catalog := rfl
    obtain ⟨imported, d, hrun, _, htree⟩ :=
      run_normal i hfresh rfl hnames (rulesOf_of_member? hrules)
    have hnormal : ∀ rule ∈ normalRules i.context rules,
        IsNormal j.context rule ∧ isNull rule = false := by
      intro rule hrule
      obtain ⟨hform, hpresent⟩ := normalRules_normal i.context rules rule hrule
      exact ⟨hform.lenient hcatalog hlenient, hpresent⟩
    obtain ⟨imported', d', hrun', htree', _⟩ := import_normal j journal' hnames' hnormal
    refine ⟨imported, d, hrun, imported', d', ?_, ?_⟩
    · rw [htree]
      exact hrun'
    · rw [htree', htree]

/-- An unknown variable that feeds both inputs of a conjunction is written out twice and reported
twice, and a comparison of three operands is text from then on. -/
theorem ruleTree_round_trip_shared_variable :
    (let turns : List Desk.Turn := [
        .edit (.addNode (.str "Variable") (.pair (.int 0) (.int 0)) (.obj [("key", .str "shift")])
          .null true),
        .edit (.addNode (.str "Logic") (.pair (.int 0) (.int 0)) .null .null false),
        .edit (.addNode (.str "Result") (.pair (.int 0) (.int 0)) .null .null false),
        .edit (.connectRefs ⟨"n1", 0⟩ ⟨"n2", 0⟩ .null),
        .edit (.connectRefs ⟨"n1", 0⟩ ⟨"n2", 1⟩ .null),
        .edit (.connectRefs ⟨"n2", 0⟩ ⟨"n3", 0⟩ .null)]
      let d := turns.foldl Desk.play (Desk.fresh .attendance ⟨.counting, []⟩)
      let i : Importer Double := ⟨⟨d.catalog, true⟩, .usual⟩
      let tree : Json := .obj [("status_rules", .arr [
        .obj [("and", .arr [.obj [("var", .str "shift")], .obj [("var", .str "shift")]])]])]
      ∃ imported d', i.run tree (Desk.fresh d.catalog ⟨.counting, []⟩) = (.ok imported, d') ∧
        d'.graph.ruleTree = tree ∧ ∀ issue ∈ imported.issues, UnknownVariable d.catalog issue) ∧
    (let i : Importer Double := ⟨⟨.attendance, false⟩, .usual⟩
      let rules : List Json := [.obj [("<", .arr [.int 1, .int 2, .int 3])]]
      ∃ imported d, i.run (.obj [("status_rules", .arr rules)])
          (Desk.fresh .attendance ⟨.counting, []⟩) = (.ok imported, d) ∧
        ∃ imported' d', i.run d.graph.ruleTree (Desk.fresh .attendance ⟨.counting, []⟩) =
            (.ok imported', d') ∧ d'.graph.ruleTree = d.graph.ruleTree) :=
  ⟨ruleTree_round_trip.1 .attendance ⟨.counting, []⟩ ⟨.counting, []⟩ _ .usual (by decide +kernel)
      Importer.counting_injective,
    ruleTree_round_trip.2 _ _ _ _ _ [.obj [("<", .arr [.int 1, .int 2, .int 3])]] rfl id
      Importer.counting_injective Importer.counting_injective (by simp [Json.member?, Json.find?])⟩

end RuleCanvas.Rule
