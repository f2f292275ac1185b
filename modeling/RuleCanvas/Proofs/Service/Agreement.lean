import RuleCanvas.Proofs.Rule.Normal
import RuleCanvas.Proofs.Store.EdgeOrder
import RuleCanvas.Proofs.Store.Known
import RuleCanvas.Service.App

/-! # Importing, then compiling

The service imports a rule document and answers with the document of a graph, which can be sent back
to be compiled. Between the two stands the reader of graph documents, which takes such a document as
it is, and a store that is built anew and lets no unknown variable in, whatever the settings say. So
both directions agree just if the import let none in either.
-/

namespace RuleCanvas

open Form

/-! ## Reading what was written -/

namespace Form

variable {reader : Reader Json} {items : List Json}

theorem all_zipIdx (hitems : ∀ v ∈ items, reader v = .ok v) (start : Nat) :
    all ((items.zipIdx start).map fun item => within (.item item.2) (reader item.1)) =
      .ok items := by
  induction items generalizing start with
  | nil => rfl
  | cons v rest ih =>
      rw [List.forall_mem_cons] at hitems
      rw [List.zipIdx_cons, List.map_cons, all, ih hitems.2 (start + 1)]
      dsimp only
      rw [hitems.1]
      rfl

/-- A list is read as it is if its items are. -/
theorem list_arr (hitems : ∀ v ∈ items, reader v = .ok v) :
    list reader (.arr items) = .ok items := all_zipIdx hitems 0

end Form

namespace Service

theorem readNode_toDocument (n : Node Double) : readNode n.toDocument = .ok n.toDocument := by
  have hkind : word NodeKind.ofName? (.str n.kind.name) = .ok n.kind := by
    rw [word, NodeKind.ofName?_name]
  have hread : readNode n.toDocument =
      (both (both
        (both (.ok n.id) (within (.name "kind") (word NodeKind.ofName? (.str n.kind.name))))
        (.ok (n.x, n.y))) (.ok (.obj n.payload.fields))).map fun parts =>
          .obj [("id", .str parts.1.1.1), ("kind", .str parts.1.1.2.name),
            ("x", .float parts.1.2.1), ("y", .float parts.1.2.2), ("payload", parts.2)] := rfl
  rw [hread, hkind]
  rfl

theorem readEdge_toDocument (e : Edge) : readEdge e.toDocument = .ok e.toDocument := by
  have hread : readEdge e.toDocument = (both (.ok (some e.id)) (both
      (within (.name "from") (PortRef.read .modelAttributesType e.source.toDocument))
      (within (.name "to") (PortRef.read .modelAttributesType e.target.toDocument)))).map
        fun parts => .obj [("id", Json.ofOption .str parts.1), ("from", parts.2.1.toDocument),
          ("to", parts.2.2.toDocument)] := rfl
  rw [hread, Desk.read_toDocument, Desk.read_toDocument]
  rfl

/-- The document of a graph is read as it is. -/
theorem readGraph_toDocument (g : Graph Double) : readGraph g.toDocument = .ok g.toDocument := by
  have hnodes : list readNode (.arr (g.nodes.map Node.toDocument)) =
      .ok (g.nodes.map Node.toDocument) :=
    list_arr (List.forall_mem_map.mpr fun n _ => readNode_toDocument n)
  have hedges : list readEdge (.arr (g.edges.map Edge.toDocument)) =
      .ok (g.edges.map Edge.toDocument) :=
    list_arr (List.forall_mem_map.mpr fun e _ => readEdge_toDocument e)
  have hread : readGraph g.toDocument =
      (both (within (.name "nodes") (list readNode (.arr (g.nodes.map Node.toDocument))))
        (within (.name "edges") (list readEdge (.arr (g.edges.map Edge.toDocument))))).map
          fun parts => .obj [("nodes", .arr parts.1), ("edges", .arr parts.2)] := rfl
  rw [hread, hnodes, hedges]
  rfl

/-! ## Endpoints -/

/-- What is read from a readable body is served. -/
theorem readBody_of_content {β : Type} {reader : Reader β} {r : Request} {v : Json} {b : β}
    (hcontent : r.content = .ok (some v)) (hread : reader v = .ok b) (serve : β → Served)
    (j : Journal Double) : readBody reader r serve j = serve b := by
  rw [readBody, hcontent]
  dsimp only
  rw [hread]
  rfl

/-- A body is read and served, or the request is answered with the status 422. -/
theorem readBody_cases {β : Type} (reader : Reader β) (r : Request) (serve : β → Served)
    (j : Journal Double) :
    (∃ v b, r.content = .ok (some v) ∧ reader v = .ok b ∧
      readBody reader r serve j = serve b) ∨
    ∃ issues, readBody reader r serve j = (.answer (.detail 422 (report issues)), j) := by
  cases hcontent : r.content with
  | error issue =>
      refine .inr ⟨[issue], ?_⟩
      rw [readBody, hcontent]
  | ok body =>
      cases body with
      | none =>
          refine .inr ⟨[⟨[.name "body"], .missing⟩], ?_⟩
          rw [readBody, hcontent]
      | some v =>
          cases hread : reader v with
          | ok b => exact .inl ⟨v, b, rfl, hread, readBody_of_content hcontent hread serve j⟩
          | error issues =>
              refine .inr ⟨issues.map (Issue.inside (.name "body")), ?_⟩
              rw [readBody, hcontent]
              dsimp only
              rw [hread]
              rfl

theorem rules_of_readRuleDocument {limits : Rule.Limits} {v document : Json}
    (hread : readRuleDocument limits v = .ok document) :
    ∃ rules, document = .obj [("status_rules", .arr rules)] := by
  cases v with
  | obj members =>
      obtain ⟨rules, _, rfl⟩ := Desk.exists_of_map_eq_ok hread
      exact ⟨rules, rfl⟩
  | _ => cases hread

/-- The answer to an import. -/
def importAnswer (imported : Rule.Imported) (d : Desk Double) : Json :=
  .obj [("graph", d.graph.toDocument), ("issues", .arr (imported.issues.map fun issue =>
    .obj [("path", .str issue.path), ("message", .str issue.message)]))]

def compileAnswer (tree : Json) : Json :=
  .obj [("rule_tree", tree), ("fingerprint", .str tree.fingerprint)]

theorem importRules_cases (s : Settings) (catalog : Catalog) (r : Request) {j : Journal Double}
    (hnames : Function.Injective j.ids.name) :
    (∃ v rules imported d, r.content = .ok (some v) ∧
      readRuleDocument (limits s) v = .ok (.obj [("status_rules", .arr rules)]) ∧
      (importer s catalog).run (.obj [("status_rules", .arr rules)]) (.fresh catalog j) =
        (.ok imported, d) ∧
      (importRules s catalog r j).1 = .ok (importAnswer imported d)) ∨
    ∃ issues, (importRules s catalog r j).1 = .answer (.detail 422 (report issues)) := by
  unfold importRules
  rcases readBody_cases (readRuleDocument (limits s)) r _ j with
    ⟨v, document, hcontent, hread, hserve⟩ | ⟨issues, hserve⟩
  · obtain ⟨rules, rfl⟩ := rules_of_readRuleDocument hread
    have hrules : Rule.rulesOf (.obj [("status_rules", .arr rules)]) = .ok rules := by
      simp [Rule.rulesOf, Json.find?]
    obtain ⟨imported, d, hrun, _⟩ := Rule.run_normal (importer s catalog)
      (d := .fresh catalog j) rfl rfl hnames hrules
    refine .inl ⟨v, rules, imported, d, hcontent, hread, hrun, ?_⟩
    rw [hserve, hrun]
    rfl
  · refine .inr ⟨issues, ?_⟩
    rw [hserve]

section

variable {catalog : Catalog} {r : Request} {g : Graph Double}

/-- A graph with known variables is compiled as it was. -/
theorem compile_known (hcontent : r.content = .ok (some g.toDocument)) (hwired : g.Wired catalog)
    (hnodes : ∀ n ∈ g.nodes, n.id ≠ "") (hedges : ∀ e ∈ g.edges, e.id ≠ "")
    (hknown : Desk.Knows catalog g) (j : Journal Double) :
    (Service.compile catalog r j).1 = .ok (compileAnswer g.ruleTree) := by
  have hrebuilds : Desk.Rebuilds g (Desk.fresh catalog j)
      (Desk.load g.toDocument false (Desk.fresh catalog j)) :=
    Desk.rebuilds_of_wired hwired hnodes hedges fun n hn key hkey => .inl (hknown n hn key hkey)
  rw [Service.compile, readBody_of_content hcontent (readGraph_toDocument g)]
  rcases hload : Desk.load g.toDocument false (Desk.fresh catalog j) with ⟨result, d⟩
  rw [hload] at hrebuilds
  have htree : d.graph.ruleTree = g.ruleTree :=
    Graph.ruleTree_congr hrebuilds.nodes hrebuilds.incoming
  cases result with
  | error fault => cases hrebuilds.done
  | ok _ =>
      dsimp only
      rw [htree]
      rfl

/-- A graph with an unknown variable is refused. -/
theorem compile_unknown (hcontent : r.content = .ok (some g.toDocument)) (hwired : g.Wired catalog)
    (hnodes : ∀ n ∈ g.nodes, n.id ≠ "") (hunknown : ¬ Desk.Knows catalog g) (j : Journal Double) :
    ∃ key, (Service.compile catalog r j).1 =
      .refused (Refusal.unknownVariable key).statement := by
  have hsome : ∃ n ∈ g.nodes, ∃ key, n.payload = .var key ∧ catalog.contains key = false := by
    simpa [Desk.Knows] using hunknown
  obtain ⟨key, d, _, hload⟩ := Desk.loadAll_nodes_unknown (d := Desk.fresh catalog j) g.nodes hnodes
    hwired.nodes_nodup hsome
  refine ⟨key, ?_⟩
  rw [Service.compile, readBody_of_content hcontent (readGraph_toDocument g),
    Desk.load_toDocument_eq, Edit.bind_error hload]
  rfl

end

/-! ## Routes -/

namespace App

theorem dispatch_import (a : App) {r : Request} (hmethod : r.method = "POST")
    (hpath : r.path = "/api/v1/rules/import") (j : Journal Double) :
    a.dispatch r j = a.serve .importRules r j := by
  simp [dispatch, routes, hmethod, hpath]

theorem dispatch_compile (a : App) {r : Request} (hmethod : r.method = "POST")
    (hpath : r.path = "/api/v1/graph/compile") (j : Journal Double) :
    a.dispatch r j = a.serve .compile r j := by
  simp [dispatch, routes, hmethod, hpath]

/-- A posted request is answered as its ending is, but for the id that the answer may carry. -/
theorem handle_post (a : App) {r : Request} (hmethod : r.method = "POST") (j : Journal Double) :
    (a.handle r j).1.status = (a.respond (a.dispatch r j).1).1.status ∧
      (a.handle r j).1.content = (a.respond (a.dispatch r j).1).1.content := by
  rcases hdispatch : a.dispatch r j with ⟨ending, after⟩
  rcases hrespond : a.respond ending with ⟨response, lines⟩
  simp only [handle, hdispatch, hrespond, hmethod]
  cases a.settings.observed <;> exact ⟨rfl, rfl⟩

variable {a : App} {catalog : Catalog}

theorem handle_import (hcatalog : a.catalog = .ok catalog) {r : Request}
    (hmethod : r.method = "POST") (hpath : r.path = "/api/v1/rules/import") {j : Journal Double}
    (hnames : Function.Injective j.ids.name) (haccepted : (a.handle r j).1.status = 200) :
    ∃ v rules imported d, r.content = .ok (some v) ∧
      readRuleDocument (limits a.settings) v = .ok (.obj [("status_rules", .arr rules)]) ∧
      (importer a.settings catalog).run (.obj [("status_rules", .arr rules)]) (.fresh catalog j) =
        (.ok imported, d) ∧
      (a.handle r j).1.content = .json (importAnswer imported d) := by
  obtain ⟨hstatus, hcontent⟩ := a.handle_post hmethod j
  have hserved : a.dispatch r j = importRules a.settings catalog r j := by
    rw [a.dispatch_import hmethod hpath, serve, hcatalog]
  rw [hserved] at hstatus hcontent
  rcases importRules_cases a.settings catalog r hnames with
    ⟨v, rules, imported, d, hbody, hread, hrun, hanswer⟩ | ⟨issues, hanswer⟩
  · rw [hanswer] at hcontent
    exact ⟨v, rules, imported, d, hbody, hread, hrun, hcontent⟩
  · rw [hanswer, haccepted] at hstatus
    cases hstatus

/-- A graph that can be built anew is compiled. -/
theorem handle_compile (hcatalog : a.catalog = .ok catalog) {r : Request}
    (hmethod : r.method = "POST") (hpath : r.path = "/api/v1/graph/compile") (j : Journal Double)
    {g : Graph Double} (hcontent : r.content = .ok (some g.toDocument)) (hwired : g.Wired catalog)
    (hnodes : ∀ n ∈ g.nodes, n.id ≠ "") (hedges : ∀ e ∈ g.edges, e.id ≠ "") :
    (Desk.Knows catalog g → (a.handle r j).1.status = 200 ∧
      (a.handle r j).1.content = .json (compileAnswer g.ruleTree)) ∧
    (¬ Desk.Knows catalog g → (a.handle r j).1.status = 400) := by
  obtain ⟨hstatus, hbody⟩ := a.handle_post hmethod j
  have hserved : a.dispatch r j = Service.compile catalog r j := by
    rw [a.dispatch_compile hmethod hpath, serve, hcatalog]
  rw [hserved] at hstatus hbody
  constructor
  · intro hknown
    rw [compile_known hcontent hwired hnodes hedges hknown] at hstatus hbody
    exact ⟨hstatus, hbody⟩
  · intro hunknown
    obtain ⟨key, hrefused⟩ := compile_unknown hcontent hwired hnodes hunknown j
    rw [hrefused] at hstatus
    exact hstatus

/-! ## Agreement -/

/-- Every accepted import answers with the document of the store that it built. Sent back as it is,
that document compiles to the rule tree of the store if there is no unknown variable in it, which
the settings ensure where they let none in. With an unknown variable in it the document is refused,
although the rules were accepted. -/
theorem import_then_compile (a : App) {catalog : Catalog} (hcatalog : a.catalog = .ok catalog)
    {r : Request} (hmethod : r.method = "POST") (hpath : r.path = "/api/v1/rules/import")
    {j : Journal Double} (hnames : Function.Injective j.ids.name)
    (hnonempty : ∀ k, j.ids.name k ≠ "") (haccepted : (a.handle r j).1.status = 200) :
    ∃ v rules imported d, r.content = .ok (some v) ∧
      readRuleDocument (limits a.settings) v = .ok (.obj [("status_rules", .arr rules)]) ∧
      (importer a.settings catalog).run (.obj [("status_rules", .arr rules)]) (.fresh catalog j) =
        (.ok imported, d) ∧
      (a.handle r j).1.content = .json (importAnswer imported d) ∧
      (a.settings.lenientImport = false → Desk.Knows catalog d.graph) ∧
      ∀ (r' : Request) (j' : Journal Double), r'.method = "POST" →
        r'.path = "/api/v1/graph/compile" → r'.content = .ok (some d.graph.toDocument) →
        (Desk.Knows catalog d.graph → (a.handle r' j').1.status = 200 ∧
          (a.handle r' j').1.content = .json (compileAnswer d.graph.ruleTree)) ∧
        (¬ Desk.Knows catalog d.graph → (a.handle r' j').1.status = 400) := by
  obtain ⟨v, rules, imported, d, hbody, hread, hrun, hanswer⟩ :=
    handle_import hcatalog hmethod hpath hnames haccepted
  have hsteps : Desk.Steps True (Desk.fresh catalog j) d := by
    have hrunSteps : Desk.Steps True (Desk.fresh catalog j) ((importer a.settings catalog).run
        (.obj [("status_rules", .arr rules)]) (Desk.fresh catalog j)).2 :=
      (importer a.settings catalog).run_stepwise _ _
    rwa [hrun] at hrunSteps
  have hsame : d.catalog = catalog := hsteps.settings.catalog
  have hwired : d.graph.Wired catalog := hsame ▸ (hsteps.sound (.fresh catalog j)).2
  have hnamed : d.Named := hsteps.keep (fun _ _ hstep => hstep.named) (.fresh catalog hnonempty)
  refine ⟨v, rules, imported, d, hbody, hread, hrun, hanswer, fun hstrict => ?_,
    fun r' j' hmethod' hpath' hcontent =>
      handle_compile hcatalog hmethod' hpath' j' hcontent hwired hnamed.nodes hnamed.edges⟩
  have hlenient : (importer a.settings catalog).context.lenient = false := hstrict
  have hknown : d.Known := by
    have hkept := (Rule.Importer.kept_known hlenient).run (.obj [("status_rules", .arr rules)])
      (Desk.fresh catalog j) (.fresh catalog j)
    rwa [hrun] at hkept
  exact hsame ▸ hknown

/-- A strict import, of a rule with an unknown variable. -/
theorem import_then_compile_strict :
    let a : App := ⟨{ Settings.defaults with lenientImport := false }, .ok .attendance, []⟩
    let document : Json := .obj [("status_rules", .arr [
      .obj [("not", .obj [("var", .str "is_ignored")])], .obj [("var", .str "on_leave")]])]
    let r : Request := ⟨"POST", "/api/v1/rules/import", [], .json document⟩
    let j : Journal Double := ⟨.counting, []⟩
    ∃ imported d, (a.handle r j).1.content = .json (importAnswer imported d) ∧
      ∀ (r' : Request) (j' : Journal Double), r'.method = "POST" →
        r'.path = "/api/v1/graph/compile" → r'.content = .ok (some d.graph.toDocument) →
        (a.handle r' j').1.status = 200 ∧
          (a.handle r' j').1.content = .json (compileAnswer d.graph.ruleTree) := by
  intro a document r j
  have haccepted : (a.handle r j).1.status = 200 := by decide +kernel
  obtain ⟨_, _, imported, d, _, _, _, hanswer, hstrict, hcompile⟩ :=
    import_then_compile a rfl (r := r) rfl rfl (j := j) Rule.Importer.counting_injective
      Desk.counting_ne_empty haccepted
  exact ⟨imported, d, hanswer, fun r' j' hmethod hpath hcontent =>
    (hcompile r' j' hmethod hpath hcontent).1 (hstrict rfl)⟩

/-- By default an import lets an unknown variable in, and its graph is refused when it is sent
back. -/
theorem import_then_compile_unknown :
    let a : App := ⟨.defaults, .ok .attendance, []⟩
    let document : Json := .obj [("status_rules", .arr [.obj [("var", .str "on_leave")]])]
    let r : Request := ⟨"POST", "/api/v1/rules/import", [], .json document⟩
    let j : Journal Double := ⟨.counting, []⟩
    let d := ((importer a.settings .attendance).run document (.fresh .attendance j)).2
    (a.handle r j).1.status = 200 ∧
      (∃ imported, (a.handle r j).1.content = .json (importAnswer imported d)) ∧
      (a.handle ⟨"POST", "/api/v1/graph/compile", [], .json d.graph.toDocument⟩
        d.journal).1.status = 400 := by
  intro a document r j d
  have haccepted : (a.handle r j).1.status = 200 := by decide +kernel
  obtain ⟨v, rules, imported, d', hbody, hread, hrun, hanswer⟩ :=
    handle_import (a := a) (r := r) rfl rfl rfl Rule.Importer.counting_injective haccepted
  have hsent : document = v := Option.some.inj (Except.ok.inj hbody)
  have hwhole : readRuleDocument (limits a.settings) document = .ok document := rfl
  rw [← hsent, hwhole] at hread
  rw [← Except.ok.inj hread] at hrun
  have hbuilt : d = d' := congrArg Prod.snd hrun
  exact ⟨haccepted, ⟨imported, hbuilt ▸ hanswer⟩, by decide +kernel⟩

end App

end Service

end RuleCanvas
