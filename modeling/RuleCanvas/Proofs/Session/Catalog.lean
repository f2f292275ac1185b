import RuleCanvas.Proofs.Session.Contained
import RuleCanvas.Proofs.Store.Rebuilt

/-! # The catalog of a session

The catalog that a session is given reaches its store and its importer, and no action replaces it:
not even the store that a graph document brings has another one. So the palette adds a variable just
if that catalog has its key. An empty catalog counts as none and never gets that far.
-/

namespace RuleCanvas

open Scalar (ofInt)

/-! ## Adding a variable -/

theorem Catalog.contains_iff_mem (c : Catalog) (key : String) :
    c.contains key = true ↔ key ∈ c.entries.map (·.key) := by
  simp [contains, find?]

/-- The middle of a view is found unless the zoom is zero. -/
theorem Viewport.center_isOk_iff (v : Viewport Double) :
    (∃ center, v.center = .ok center) ↔ Scalar.isZero v.zoom = false := by
  unfold center Scalar.divide
  cases Scalar.isZero v.zoom with
  | true =>
      constructor
      · rintro ⟨center, hcenter⟩
        cases hcenter
      · intro hzoom
        cases hzoom
  | false => exact ⟨fun _ => rfl, fun _ => ⟨_, rfl⟩⟩

namespace Desk

variable {α : Type}

/-- Under a fresh id a checked payload is placed unless that id is taken. -/
theorem placeFresh_isOk_iff (d : Desk α) (payload : Payload) (position : Point α) :
    (∃ id, (d.placeNode payload (.ok position) .null).1 = .ok id) ↔
      d.graph.hasNode d.journal.draw.1 = false := by
  have hfind : ({ d with journal := d.journal.draw.2 } : Desk α).graph.containsNode
      (.str d.journal.draw.1) = .ok (d.graph.hasNode d.journal.draw.1) := rfl
  rw [placeNode, d.chooseId_missing rfl]
  dsimp only
  rw [hfind]
  cases d.graph.hasNode d.journal.draw.1 with
  | false => exact ⟨fun _ => rfl, fun _ => ⟨_, rfl⟩⟩
  | true =>
      constructor
      · rintro ⟨id, hid⟩
        cases hid
      · intro htaken
        cases htaken

/-- A variable is added just if the catalog has it and the id that is drawn is new. -/
theorem addVariable_isOk_iff (d : Desk α) (key : String) (position : Point α) :
    (∃ id, (d.addNode (.str "Variable") (.ok position) (.obj [("key", .str key)]) .null false).1 =
      .ok id) ↔ d.catalog.contains key = true ∧ d.graph.hasNode d.journal.draw.1 = false := by
  have hadd : d.addNode (.str "Variable") (.ok position) (.obj [("key", .str key)]) .null false =
      d.addNodeOfKind (Payload.var key).kind (.ok position) (Payload.var key).fields .null false :=
    rfl
  rw [hadd, ← addPayload_eq, addPayload]
  dsimp only [Store.accept]
  cases d.catalog.contains key with
  | false =>
      constructor
      · rintro ⟨id, hid⟩
        cases hid
      · rintro ⟨hknown, _⟩
        cases hknown
  | true =>
      rw [if_pos rfl]
      dsimp only
      rw [logOptional, placeFresh_isOk_iff]
      exact (and_iff_right rfl).symm

end Desk

namespace Session

theorem guarded_isSome_iff {β : Type} (s : Session) (action : String) (operation : Edit Double β) :
    (∃ b, (s.guarded action operation).1 = .ok (some b)) ↔
      ∃ b, (operation s.editDesk).1 = .ok b := by
  have hedit : (s.edit operation).1 = (operation s.editDesk).1 := rfl
  rw [← hedit]
  unfold guarded
  split
  next hresult =>
    rw [hresult]
    exact ⟨fun _ => ⟨_, rfl⟩, fun _ => ⟨_, rfl⟩⟩
  all_goals
    next hresult =>
      rw [hresult]
      constructor <;>
      · rintro ⟨_, hb⟩
        cases hb

/-- The palette adds a variable just if the catalog of the store has it, the middle of the view can
be found, and the id that is drawn is new. -/
theorem addVariable_isSome_iff (s : Session) (key : String) :
    (∃ id, (s.addNode (.str "Variable") (.obj [("key", .str key)])).1 = .ok (some id)) ↔
      s.desk.catalog.contains key = true ∧ Scalar.isZero s.canvas.viewport.zoom = false ∧
        s.graph.hasNode s.desk.journal.draw.1 = false := by
  rw [← Viewport.center_isOk_iff]
  unfold addNode
  cases s.canvas.viewport.center with
  | error fault =>
      constructor
      · rintro ⟨id, hid⟩
        cases hid
      · rintro ⟨_, ⟨center, hcenter⟩, _⟩
        cases hcenter
  | ok center =>
      dsimp only
      rw [guarded_isSome_iff, Desk.addVariable_isOk_iff]
      exact and_congr_right fun _ => (and_iff_right ⟨center, rfl⟩).symm

/-! ## What a session is given -/

/-- All three catalogs of a session are the given one. -/
structure WorksWith (s : Session) (catalog : Catalog) : Prop where
  session : s.catalog = catalog
  store : s.desk.catalog = catalog
  importer : s.importer.context.catalog = catalog

theorem WorksWith.act {s : Session} {catalog : Catalog} (hjoined : s.Joined)
    (hs : s.WorksWith catalog) (action : Action) : (s.act action).WorksWith catalog := by
  have hsetup := s.act_setup action
  have hcatalog : (s.act action).catalog = s.catalog := congrArg Prod.fst hsetup
  have himporter : (s.act action).importer = s.importer := congrArg Prod.snd hsetup
  refine ⟨hcatalog.trans hs.session, ?_, himporter ▸ hs.importer⟩
  -- A store that takes the place of another was made with the catalog of the session.
  exact act_keeps (P := fun d => d.catalog = catalog) (fun _ _ _ _ hd => hd) hjoined hs.store
    (action.keeps_of_step (fun _ _ hstep hd => hstep.settings.catalog.trans hd) hs.session)

theorem WorksWith.foldl_act {s : Session} {catalog : Catalog} (hjoined : s.Joined)
    (hs : s.WorksWith catalog) (actions : List Action) :
    (actions.foldl Session.act s).WorksWith catalog := by
  induction actions generalizing s with
  | nil => exact hs
  | cons action rest ih => exact ih (hjoined.act action) (hs.act hjoined action)

theorem orAttendance_of_ne {catalog : Catalog} (hentries : catalog.entries ≠ []) :
    catalog.orAttendance = catalog := by
  rw [Catalog.orAttendance, if_neg (by simpa using hentries)]

theorem WorksWith.start {catalog : Catalog} (hentries : catalog.entries ≠ [])
    (bounds : ZoomBounds Double) (sensitivity : Double) {importer : Rule.Importer Double}
    (himporter : importer.context.catalog = catalog) (jitter : Jitter) (journal : Journal Double) :
    (Session.start catalog bounds sensitivity importer jitter journal).WorksWith catalog :=
  ⟨orAttendance_of_ne hentries, orAttendance_of_ne hentries, himporter⟩

theorem ofCatalog_eq (catalog : Catalog) (jitter : Jitter) (journal : Journal Double) :
    ofCatalog catalog jitter journal = .ok (Session.start catalog usualBounds (Scalar.ratio 1 1000)
      (usualImporter catalog.orAttendance) jitter journal) := by
  rw [ofCatalog, ZoomBounds.ofReadings_ok _ usualBounds_min_pos usualBounds_min_below_max]
  rfl

/-- How a session with a catalog that has entries starts. -/
theorem start_cases {catalog : Catalog} (hentries : catalog.entries ≠ []) {settings : Settings}
    {contents : String → Option String} {jitter : Jitter} {journal : Journal Double}
    {start : Session}
    (hstart : ofCatalog catalog jitter journal = .ok start ∨
      ofSettings settings (some catalog) contents jitter journal = .ok start) :
    ∃ bounds sensitivity importer, importer.context.catalog = catalog ∧
      start = Session.start catalog bounds sensitivity importer jitter journal ∧
      (ofInt 0 < settings.zoomMin → ofInt 0 < settings.zoomMax →
        ofInt 0 < bounds.min ∧ ofInt 0 < bounds.max) := by
  rcases hstart with hstart | hstart
  · rw [ofCatalog_eq] at hstart
    refine ⟨usualBounds, _, _, orAttendance_of_ne hentries, (Except.ok.inj hstart).symm,
      fun _ _ => ⟨by decide +kernel, by decide +kernel⟩⟩
  · obtain ⟨chosen, hchosen, hrest⟩ := bind_eq_ok_iff.mp hstart
    obtain ⟨bounds, hbounds, hmade⟩ := bind_eq_ok_iff.mp hrest
    obtain ⟨hmin, hmax⟩ := ZoomBounds.ofReadings_eq_ok hbounds
    have hsame : chosen = catalog := by
      rw [chooseCatalog, Option.filter_some_pos (by simpa using hentries)] at hchosen
      exact (Except.ok.inj hchosen).symm
    subst hsame
    refine ⟨bounds, _, _, rfl, (Except.ok.inj hmade).symm, fun hminPos hmaxPos => ?_⟩
    rw [hmin, hmax]
    exact ⟨hminPos, hmaxPos⟩

/-- A session that is given a catalog with entries, by itself or along with settings, works with
that catalog whatever is done with it: so do its store and its importer, and the palette adds a
variable just if the catalog has the key. Besides the key it takes a zoom that is not zero, which
zoom bounds above zero ensure, and an id to draw that no node has. -/
theorem catalog_given {catalog : Catalog} (hentries : catalog.entries ≠ []) {settings : Settings}
    {contents : String → Option String} {jitter : Jitter} {journal : Journal Double}
    {start : Session}
    (hstart : ofCatalog catalog jitter journal = .ok start ∨
      ofSettings settings (some catalog) contents jitter journal = .ok start)
    (actions : List Action) :
    let s := actions.foldl Session.act start
    s.catalog = catalog ∧ s.desk.catalog = catalog ∧ s.importer.context.catalog = catalog ∧
    (ofInt 0 < settings.zoomMin → ofInt 0 < settings.zoomMax →
      Scalar.isZero s.canvas.viewport.zoom = false) ∧
    ∀ key, (∃ id, (s.addNode (.str "Variable") (.obj [("key", .str key)])).1 = .ok (some id)) ↔
      key ∈ catalog.entries.map (·.key) ∧ Scalar.isZero s.canvas.viewport.zoom = false ∧
        s.graph.hasNode s.desk.journal.draw.1 = false := by
  intro s
  obtain ⟨bounds, sensitivity, importer, himporter, rfl, hpositive⟩ := start_cases hentries hstart
  have hs : s.WorksWith catalog :=
    (WorksWith.start hentries bounds sensitivity himporter jitter journal).foldl_act
      (.start _ _ _ _ _ _) actions
  refine ⟨hs.session, hs.store, hs.importer, fun hmin hmax => ?_, fun key => ?_⟩
  · obtain ⟨hmin, hmax⟩ := hpositive hmin hmax
    have hstart := start_invertible catalog hmin hmax sensitivity importer jitter journal
    exact (foldl_act_invertible hstart actions).zoom_ne_zero
  · rw [addVariable_isSome_iff, hs.store, Catalog.contains_iff_mem]

/-- Shifts are the only variables of a session, also after its store was replaced. -/
theorem catalog_given_shift :
    let catalog : Catalog := ⟨[⟨"Shift", "shift", .string, by decide, by decide⟩], by simp⟩
    let jitter : Jitter := ⟨fun _ => Double.zero false, 0⟩
    ∃ start,
    ofSettings .defaults (some catalog) (fun _ => none) jitter ⟨.counting, []⟩ = .ok start ∧
    let s := [Action.loadGraph (.obj []), .zoomIn].foldl Session.act start
    s.catalog = catalog ∧ s.desk.catalog = catalog ∧ s.importer.context.catalog = catalog ∧
    (ofInt 0 < Settings.defaults.zoomMin → ofInt 0 < Settings.defaults.zoomMax →
      Scalar.isZero s.canvas.viewport.zoom = false) ∧
    ∀ key, (∃ id, (s.addNode (.str "Variable") (.obj [("key", .str key)])).1 = .ok (some id)) ↔
      key ∈ catalog.entries.map (·.key) ∧ Scalar.isZero s.canvas.viewport.zoom = false ∧
        s.graph.hasNode s.desk.journal.draw.1 = false := by
  intro catalog jitter
  have hbounds : ZoomBounds.ofReadings (.ok Settings.defaults.zoomMin)
      (.ok Settings.defaults.zoomMax) (.ok Settings.defaults.zoomStep) = .ok usualBounds :=
    ZoomBounds.ofReadings_ok _ usualBounds_min_pos usualBounds_min_below_max
  have hok : (ofSettings .defaults (some catalog) (fun _ => none) jitter
      ⟨.counting, []⟩).isOk = true := by
    rw [ofSettings, hbounds]
    rfl
  cases hmade : ofSettings .defaults (some catalog) (fun _ => none) jitter ⟨.counting, []⟩ with
  | error fault =>
      rw [hmade] at hok
      cases hok
  | ok start => exact ⟨start, rfl, catalog_given (List.cons_ne_nil _ _) (.inr hmade) _⟩

/-- An empty catalog is taken for none: in its place the session has the built-in one, with
variables that the given one has not. -/
theorem catalog_given_empty :
    let catalog : Catalog := ⟨[], .nil⟩
    let jitter : Jitter := ⟨fun _ => Double.zero false, 0⟩
    ∃ s, ofCatalog catalog jitter ⟨.counting, []⟩ = .ok s ∧ s.catalog.entries ≠ catalog.entries ∧
      s.desk.catalog.entries ≠ catalog.entries ∧
      s.importer.context.catalog.entries ≠ catalog.entries ∧
      catalog.contains "minutes_late" = false ∧
      ∃ id, (s.addNode (.str "Variable") (.obj [("key", .str "minutes_late")])).1 =
        .ok (some id) := by
  intro catalog jitter
  refine ⟨_, ofCatalog_eq catalog jitter _, List.cons_ne_nil _ _, List.cons_ne_nil _ _,
    List.cons_ne_nil _ _, rfl, ?_⟩
  rw [addVariable_isSome_iff]
  exact ⟨by decide +kernel, by decide +kernel, rfl⟩

end Session

end RuleCanvas
