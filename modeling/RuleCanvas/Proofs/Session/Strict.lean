import RuleCanvas.Proofs.Rule.Variables
import RuleCanvas.Proofs.Session.Catalog
import RuleCanvas.Proofs.Store.EdgeOrder
import RuleCanvas.Proofs.Store.Known

/-! # Strict sessions

A session whose importer lets no unknown variable in. Keys come from the palette, from the
inspector, from rules and from graph documents, and none of these ways is lenient then: the
store holds variables of the catalog only, so do the rules that it compiles to, and its own
graph document can be loaded.
-/

namespace RuleCanvas

namespace Session

open Desk (Known Named Sound)

/-- Whether an action is one of the session, not one at its store past it. -/
def Action.IsOwn : Action → Prop
  | .store _ => False
  | _ => True

/-- No action of a strict session adds an unknown variable. -/
theorem Action.keeps_known {s : Session} (hstrict : s.lenient = false) {action : Action}
    (hown : action.IsOwn) : action.Keeps Known s := by
  have hlog : ∀ (d : Desk Double) (line : LogLine), d.Known → (d.log line).Known := fun _ _ hd => hd
  cases action with
  | addNode kind payload => exact fun position d hd => hd.addNode _ _ _ _
  | deleteNode id => exact fun d hd => hd.removeNode id
  | updatePayload id given => exact fun d hd => hd.updatePayload id given
  | disconnect id => exact fun d hd => hd.disconnect id
  | move x y =>
      exact fun c hc => Canvas.move_keeps (fun id position d hd => hd.moveNode id position) hc x y
  | release x y =>
      exact fun c hc => Canvas.release_keeps hlog
        (fun source target d hd => hd.connectRefs source target .null) hc x y
  | loadRules document => exact (Rule.Importer.kept_known hstrict).run document
  | loadGraph document =>
      refine ⟨.fresh _ _, ?_⟩
      rw [hstrict]
      exact Desk.load_known document
  | store operation => exact hown.elim
  | _ => trivial

/-- A strict session and what holds of it between actions. -/
structure Strict (s : Session) : Prop extends Current s where
  strict : s.lenient = false
  sound : s.desk.Sound
  named : s.desk.Named
  known : s.desk.Known

theorem Strict.act {s : Session} (hs : s.Strict) {action : Action} (hown : action.IsOwn) :
    (s.act action).Strict where
  toCurrent := hs.toCurrent.act action (by cases action <;> trivial)
  strict := by
    have himporter : (s.act action).importer = s.importer := congrArg Prod.snd (s.act_setup action)
    rw [lenient, himporter]
    exact hs.strict
  sound := act_sound hs.toJoined hs.sound action
  named := act_keeps (fun _ _ _ hnames hd => ⟨hnames ▸ hd.names, hd.nodes, hd.edges⟩)
    hs.toJoined hs.named
    (action.keeps_of_step (fun _ _ hstep => hstep.named) (.fresh _ hs.named.names))
  known := act_keeps (fun _ _ _ _ hd => hd) hs.toJoined hs.known (Action.keeps_known hs.strict hown)

theorem Strict.foldl_act {s : Session} (hs : s.Strict) {actions : List Action}
    (hown : ∀ action ∈ actions, action.IsOwn) : (actions.foldl Session.act s).Strict := by
  induction actions generalizing s with
  | nil => exact hs
  | cons action rest ih =>
      have hfirst : (s.act action).Strict := hs.act (hown action List.mem_cons_self)
      exact ih hfirst fun later hlater => hown later (List.mem_cons_of_mem action hlater)

theorem Strict.start {catalog : Catalog} (bounds : ZoomBounds Double) (sensitivity : Double)
    {importer : Rule.Importer Double} (hcatalog : importer.context.catalog = catalog.orAttendance)
    (hstrict : importer.context.lenient = false) (jitter : Jitter) {journal : Journal Double}
    (hnames : Function.Injective journal.ids.name) (hnonempty : ∀ k, journal.ids.name k ≠ "") :
    (Session.start catalog bounds sensitivity importer jitter journal).Strict where
  toCurrent := .start catalog bounds sensitivity importer jitter journal hcatalog hnames
  strict := hstrict
  sound := start_sound _ _ _ _ _ _
  named := ⟨hnonempty, nofun, nofun⟩
  known := nofun

/-- A strict session can load the document of its own graph, and comes to the
same graph and rules. -/
theorem Strict.loadGraph_own {s : Session} (hs : s.Strict) :
    ∃ s', s.loadGraph s.graph.toDocument = (.ok true, s') ∧ s'.graph.nodes = s.graph.nodes ∧
      s'.graph.edges = s.graph.edges ∧ s'.ruleTree = s.ruleTree := by
  have hwired : s.graph.Wired s.catalog := hs.store ▸ hs.sound.2
  have hknown : ∀ n ∈ s.graph.nodes, ∀ key, n.payload = .var key →
      s.catalog.contains key = true ∨ s.lenient = true := fun n hn key hkey =>
    .inl (hs.store ▸ hs.known n hn key hkey)
  have hrebuilds : Desk.Rebuilds s.graph (Desk.fresh s.catalog s.journal)
      (Desk.load s.graph.toDocument s.lenient (Desk.fresh s.catalog s.journal)) :=
    Desk.rebuilds_of_wired hwired hs.named.nodes hs.named.edges hknown
  rcases hload : Desk.load s.graph.toDocument s.lenient (Desk.fresh s.catalog s.journal) with
    ⟨result, desk⟩
  rw [hload] at hrebuilds
  have htree : desk.graph.ruleTree = s.ruleTree :=
    (Graph.ruleTree_congr hrebuilds.nodes hrebuilds.incoming).trans hs.fresh.symm
  cases result with
  | error fault => cases hrebuilds.done
  | ok _ =>
      have hgraph : (s.adopt desk).recompile.graph = desk.graph := by
        change (s.adopt desk).desk.graph = desk.graph
        rw [desk_adopt]
        rfl
      unfold loadGraph
      rw [hload]
      refine ⟨_, rfl, ?_, ?_, ?_⟩
      · rw [hgraph, hrebuilds.nodes]
      · rw [hgraph, hrebuilds.edges]
      · exact (congrArg Graph.ruleTree hgraph).trans htree

/-- A session with a catalog of its own and an importer that lets no unknown variable in,
whatever is done with it: every variable of the store is in the catalog, so is everything that
the rule tree names as one, and the session can load its own graph document, with the same
nodes, edges and rule tree. -/
theorem strict_known {catalog : Catalog} (hentries : catalog.entries ≠ [])
    (bounds : ZoomBounds Double) (sensitivity : Double) {importer : Rule.Importer Double}
    (hcatalog : importer.context.catalog = catalog) (hstrict : importer.context.lenient = false)
    (jitter : Jitter) {journal : Journal Double} (hnames : Function.Injective journal.ids.name)
    (hnonempty : ∀ k, journal.ids.name k ≠ "") (actions : List Action)
    (hown : ∀ action ∈ actions, action.IsOwn) :
    let s := actions.foldl Session.act
      (Session.start catalog bounds sensitivity importer jitter journal)
    (∀ n ∈ s.graph.nodes, ∀ key, n.payload = .var key → key ∈ catalog.entries.map (·.key)) ∧
    (∀ v ∈ Rule.namedValues s.ruleTree, ∃ key ∈ catalog.entries.map (·.key), v = .str key) ∧
    ∃ s', s.loadGraph s.graph.toDocument = (.ok true, s') ∧ s'.graph.nodes = s.graph.nodes ∧
      s'.graph.edges = s.graph.edges ∧ s'.ruleTree = s.ruleTree := by
  intro s
  have hsame : catalog.orAttendance = catalog := orAttendance_of_ne hentries
  have hs : s.Strict :=
    (Strict.start bounds sensitivity (hcatalog.trans hsame.symm) hstrict jitter hnames
      hnonempty).foldl_act hown
  have hworks : s.WorksWith catalog :=
    (WorksWith.start hentries bounds sensitivity hcatalog jitter journal).foldl_act
      (.start _ _ _ _ _ _) actions
  have hknown : ∀ n ∈ s.graph.nodes, ∀ key, n.payload = .var key →
      key ∈ catalog.entries.map (·.key) := fun n hn key hkey =>
    (catalog.contains_iff_mem key).mp (hworks.store ▸ hs.known n hn key hkey)
  refine ⟨hknown, ?_, hs.loadGraph_own⟩
  rw [hs.fresh]
  exact Graph.variablesIn_ruleTree hknown

/-- A rule with an unknown variable, which becomes a text; the key of a variable changed to another
of the catalog; and one that is changed to an unknown key, which is refused. -/
theorem strict_known_shift :
    let catalog : Catalog := ⟨[⟨"Shift", "shift", .string, by decide, by decide⟩,
      ⟨"Team", "team", .string, by decide, by decide⟩], by simp⟩
    let importer : Rule.Importer Double := ⟨⟨catalog, false⟩, .usual⟩
    let actions : List Action := [
      .loadRules (.obj [("status_rules", .arr [
        .obj [("==", .arr [.obj [("var", .str "shift")], .obj [("var", .str "crew")]])]])]),
      .updatePayload (.str "n1") (.obj [("key", .str "team")]),
      .updatePayload (.str "n1") (.obj [("key", .str "crew")])]
    let s := actions.foldl Session.act (Session.start catalog usualBounds (Scalar.ratio 1 1000)
      importer ⟨fun _ => Double.zero false, 0⟩ ⟨.counting, []⟩)
    s.graph.nodes.map (·.payload) = [.var "team", .constant (.str "\x7b\"var\":\"crew\"\x7d"),
      .compare .equal, .result] ∧
    (∀ n ∈ s.graph.nodes, ∀ key, n.payload = .var key → key ∈ catalog.entries.map (·.key)) ∧
    (∀ v ∈ Rule.namedValues s.ruleTree, ∃ key ∈ catalog.entries.map (·.key), v = .str key) ∧
    ∃ s', s.loadGraph s.graph.toDocument = (.ok true, s') ∧ s'.graph.nodes = s.graph.nodes ∧
      s'.graph.edges = s.graph.edges ∧ s'.ruleTree = s.ruleTree := by
  intro catalog importer actions s
  have hentries : catalog.entries ≠ [] := List.cons_ne_nil _ _
  have hown : ∀ action ∈ actions, action.IsOwn := by simp [actions, Action.IsOwn]
  have hcatalog : importer.context.catalog = catalog := rfl
  have hstrict : importer.context.lenient = false := rfl
  refine ⟨by decide +kernel, ?_⟩
  exact strict_known hentries usualBounds (Scalar.ratio 1 1000) hcatalog hstrict
    ⟨fun _ => Double.zero false, 0⟩ Rule.Importer.counting_injective Desk.counting_ne_empty actions
    hown

end Session

end RuleCanvas
