import RuleCanvas.Canvas.Gesture
import RuleCanvas.Rule.Compile
import RuleCanvas.Rule.Import
import RuleCanvas.Settings
import RuleCanvas.Store.Document

/-! # Editing sessions

A session owns a graph under edit with its view, and the rule tree compiled from it. It refers to
its store, and so does its canvas; it subscribes to the store and compiles after every change that
it hears of, unless it is suspended. Refusals end here: the session turns each into a notice for the
user and leaves the graph as it was.
-/

namespace RuleCanvas

/-- A supply of numbers from zero to one: the number of each draw, and how many were drawn. -/
structure Jitter where
  number : Nat → Double
  drawn : Nat

/-- What the canvas of a session keeps between events, with a reference of its own to a store. -/
structure Interaction where
  store : Nat
  viewport : Viewport Double
  gesture : Gesture Double
  sensitivity : Double

structure Session where
  /-- The catalog under which graph documents are loaded; the store and the
  importer have their own. -/
  catalog : Catalog
  /-- All stores that the session has made, in order. A reference to a store is its place here. -/
  stores : List (Store Double)
  journal : Journal Double
  /-- The store under edit. -/
  store : Nat
  interaction : Interaction
  /-- The store to which the session subscribed last, where its way to unsubscribe leads. -/
  subscription : Nat
  /-- Whether the session lets the changes pass that it hears of. -/
  suspended : Bool
  importer : Rule.Importer Double
  ruleTree : Json
  /-- The notices that were not shown yet, the oldest first. -/
  notices : List Notice
  jitter : Jitter

/-! ## Compiling after changes -/

namespace Entry

variable {α : Type}

/-- Entries with the compilations of the session that owns the store: after each change that it
hears of, one of the graph that `reads` makes of the changed one, if any. -/
def attended (reads : Graph α → Option (Graph α)) : List (Entry α) → List (Entry α)
  | [] => []
  | .heard .owner change g :: rest =>
    .heard .owner change g ::
      (((reads g).map Graph.compileEntries).getD [] ++ attended reads rest)
  | e :: rest => e :: attended reads rest

/-- The rule tree after entries, of which `tree` is the one before. -/
def latestTree (reads : Graph α → Option (Graph α)) (tree : Json) : List (Entry α) → Json
  | [] => tree
  | .heard .owner _ g :: rest => latestTree reads (((reads g).map Graph.ruleTree).getD tree) rest
  | _ :: rest => latestTree reads tree rest

end Entry

namespace Catalog

/-- The catalog, or the built-in one in place of an empty one. -/
def orAttendance (c : Catalog) : Catalog := if c.entries.isEmpty then attendance else c

end Catalog

/-- A canvas is a desk with what is kept of the canvas between events. -/
def Interaction.on (i : Interaction) (desk : Desk Double) : Canvas Double :=
  ⟨desk, i.viewport, i.gesture, i.sensitivity⟩

/-- What is kept of a canvas after an event. -/
def Interaction.after (i : Interaction) (c : Canvas Double) : Interaction :=
  ⟨i.store, c.viewport, c.gesture, c.sensitivity⟩

namespace Session

/-- The store at a place, with the journal, which the stores share. -/
def deskAt (s : Session) (place : Nat) : Desk Double :=
  ⟨s.stores[place]?.getD (.new s.catalog), s.journal⟩

def desk (s : Session) : Desk Double := s.deskAt s.store

def graph (s : Session) : Graph Double := s.desk.graph

/-- The canvas, which shows the store that it refers to itself. -/
def canvas (s : Session) : Canvas Double := s.interaction.on (s.deskAt s.interaction.store)

/-- Unknown variables are let into a graph document if they are into an import. -/
def lenient (s : Session) : Bool := s.importer.context.lenient

def recompile (s : Session) : Session :=
  { s with journal := s.journal.addAll s.graph.compileEntries, ruleTree := s.graph.ruleTree }

/-- Keeps a notice for the user, and tells the log. -/
def notify (s : Session) (n : Notice) : Session :=
  { s with journal := s.journal.log n.line, notices := s.notices ++ [n] }

/-- The graph that the session compiles when it hears that the store at a place has come to a graph:
that of the store under edit, and none while the session is suspended. -/
def reads (s : Session) (place : Nat) (g : Graph Double) : Option (Graph Double) :=
  if s.suspended then none else some (if place = s.store then g else s.graph)

/-- The desk on which an operation on the store at a place starts, with a new
page in the journal. -/
def page (s : Session) (place : Nat) : Desk Double :=
  { s.deskAt place with journal := { s.journal with recent := [] } }

/-- Runs an operation on the store at a place, compiling after every change that is heard of. -/
def runAt {β : Type} (s : Session) (place : Nat) (operation : Desk Double → β × Desk Double) :
    β × Session :=
  let (result, desk) := operation (s.page place)
  let entries := desk.journal.entries
  (result, { s with
    stores := s.stores.set place desk.store
    journal := { desk.journal with recent := s.journal.recent }.addAll
      (Entry.attended (s.reads place) entries)
    ruleTree := Entry.latestTree (s.reads place) s.ruleTree entries })

/-- Runs an operation on the canvas. -/
def perform {β : Type} (s : Session) (operation : Canvas Double → β × Canvas Double) :
    β × Session :=
  let ((result, interaction), s) := s.runAt s.interaction.store fun d =>
    let (result, c) := operation (s.interaction.on d)
    ((result, s.interaction.after c), c.desk)
  (result, { s with interaction })

/-- Runs an operation on the store under edit. -/
def edit {β : Type} (s : Session) (operation : Edit Double β) : Except Fault β × Session :=
  s.runAt s.store operation

/-- Runs an operation on the store. A refusal becomes a notice, and there is no result. -/
def guarded {β : Type} (s : Session) (action : String) (operation : Edit Double β) :
    Except Fault (Option β) × Session :=
  match s.edit operation with
  | (.ok result, s) => (.ok (some result), s)
  | (.error (.refused refusal), s) => (.ok none, s.notify (.rejected action refusal))
  | (.error fault, s) => (.error fault, s)

/-! ## Subscribing -/

/-- Subscribes to the store under edit. -/
def subscribe (s : Session) : Session :=
  { s with stores := s.stores.modify s.store (·.subscribe .owner), subscription := s.store }

def unsubscribe (s : Session) : Session :=
  { s with stores := s.stores.modify s.subscription (·.unsubscribe .owner) }

def suspend (s : Session) : Session := { s with suspended := true }

def resume (s : Session) : Session := { s with suspended := false }

/-! ## Starting -/

/-- A session on an empty graph. An empty catalog stands for the built-in one. -/
def start (catalog : Catalog) (bounds : ZoomBounds Double) (sensitivity : Double)
    (importer : Rule.Importer Double) (jitter : Jitter) (journal : Journal Double) : Session :=
  let catalog := catalog.orAttendance
  let s : Session :=
    { catalog, stores := [.new catalog], journal, store := 0, subscription := 0, suspended := false
      interaction := ⟨0, .start bounds, .idle, sensitivity⟩
      importer, ruleTree := .null, notices := [], jitter }
  s.subscribe.recompile

/-- An importer with the usual layout that lets unknown variables in. -/
def usualImporter (catalog : Catalog) : Rule.Importer Double := ⟨⟨catalog, true⟩, .usual⟩

def ofCatalog (catalog : Catalog) (jitter : Jitter) (journal : Journal Double) :
    Except Fault Session := do
  let bounds ← ZoomBounds.ofReadings (.ok (Scalar.ratio 1 10)) (.ok (Scalar.ratio 3 1))
    (.ok (Scalar.ratio 1 10))
  return start catalog bounds (Scalar.ratio 1 1000) (usualImporter catalog.orAttendance) jitter
    journal

/-- The given catalog, or that of the file of the settings in place of an empty one or none;
`contents` looks up the text of a file. -/
def chooseCatalog (s : Settings) (given : Option Catalog) (contents : String → Option String) :
    Except Fault Catalog :=
  match given.filter fun c => !c.entries.isEmpty with
  | some c => .ok c
  | none => Catalog.load contents s.catalogFile

def ofSettings (s : Settings) (given : Option Catalog) (contents : String → Option String)
    (jitter : Jitter) (journal : Journal Double) : Except Fault Session := do
  let catalog ← chooseCatalog s given contents
  let bounds ← ZoomBounds.ofReadings (.ok s.zoomMin) (.ok s.zoomMax) (.ok s.zoomStep)
  let importer : Rule.Importer Double :=
    ⟨⟨catalog, s.lenientImport⟩, ⟨s.columnSpacing, s.rowSpacing, s.resultX⟩⟩
  return start catalog bounds s.wheelSensitivity importer jitter journal

/-! ## Output -/

def fingerprint (s : Session) : String := s.ruleTree.fingerprint

/-- The rule tree as the text that the editor shows. -/
def exportRules (s : Session) : String := s.ruleTree.prettyText

/-- The notices that were not shown yet, which are gone then. -/
def drain (s : Session) : List Notice × Session := (s.notices, { s with notices := [] })

/-! ## Palette and inspector -/

/-- The distance of a new node from the middle of the canvas, to the left and up. -/
def paletteOffset : Point Double := ⟨Scalar.ofInt 100, Scalar.ofInt 50⟩

/-- The range in which a new node is shifted at random. -/
def paletteRange : Double := Scalar.ofInt 50

def draws (s : Session) : (Double × Double) × Session :=
  let j := s.jitter
  ((j.number j.drawn, j.number (j.drawn + 1)), { s with jitter := { j with drawn := j.drawn + 2 } })

/-- Adds a node near the middle of the canvas; the answer is its id. -/
def addNode (s : Session) (kind payload : Json) : Except Fault (Option String) × Session :=
  match s.canvas.viewport.center with
  | .error fault => (.error fault, s)
  | .ok center =>
    let ((right, down), s) := s.draws
    let position : Point Double :=
      ⟨center.x - paletteOffset.x + right * paletteRange,
        center.y - paletteOffset.y + down * paletteRange⟩
    s.guarded "add_node" fun d => d.addNode kind (.ok position) payload .null false

def deleteNode (s : Session) (id : Json) : Except Fault Bool × Session :=
  let (result, s) := s.guarded "delete_node" fun d => d.removeNode id
  (result.map Option.isSome, s)

def updatePayload (s : Session) (id given : Json) : Except Fault Bool × Session :=
  let (result, s) := s.guarded "update_payload" fun d => d.updatePayload id given
  (result.map Option.isSome, s)

def disconnect (s : Session) (id : Json) : Except Fault Bool × Session :=
  let (result, s) := s.guarded "disconnect" fun d => d.disconnect id
  (result.map Option.isSome, s)

/-! ## View and pointer -/

def view {β : Type} (s : Session) (operation : Viewport Double → β × Viewport Double) :
    β × Session :=
  let (result, viewport) := operation s.canvas.viewport
  (result, { s with interaction := { s.interaction with viewport } })

def press (s : Session) (x y : Reading Double) : Except Fault Unit × Session :=
  s.perform fun c => c.press x y

def move (s : Session) (x y : Reading Double) : Except Fault Unit × Session :=
  s.perform fun c => c.move x y

/-- The pointer is released; a refused connection becomes a notice. -/
def release (s : Session) (x y : Reading Double) : Except Fault Unit × Session :=
  match s.perform fun c => c.release x y with
  | (.ok (some notice), s) => (.ok (), { s with notices := s.notices ++ [notice] })
  | (.ok none, s) => (.ok (), s)
  | (.error fault, s) => (.error fault, s)

def wheel (s : Session) (dx dy : Reading Double) (modifier : Bool) : Except Fault Unit × Session :=
  s.perform fun c => c.wheel dx dy modifier

/-- Gives up the gesture under way. -/
def resetGesture (s : Session) : Session :=
  { s with interaction := { s.interaction with gesture := .idle } }

/-! ## Loading -/

/-- Replaces the graph by one imported from a rule document; the answer is the fragments
that were not imported as written. The session is suspended meanwhile, and compiles
once, when all is placed. -/
def loadRules (s : Session) (document : Json) :
    Except Fault (List ImportIssue) × Session :=
  match s.resetGesture.suspend.edit (s.importer.run document) with
  | (.ok imported, s) =>
    let s := { s.resume with notices := s.notices ++ imported.notice.toList }
    (.ok imported.issues, s.recompile)
  | (.error (.refused refusal), s) =>
    (.ok [], (s.notify (.rejected "load_rule_tree" refusal)).resume)
  | (.error fault, s) => (.error fault, s.resume)

/-- The notice for a document that cannot be walked through, if the fault is of that kind. -/
def malformedNotice? (fault : Fault) : Option Notice :=
  let notice (error : String) : Option Notice :=
    some (.warning "load_graph_document_rejected" "Graph document is malformed"
      [("error", .str error)])
  match fault with
  | .missingMember name => notice (Text.shown (.str name))
  | .wrongKind => notice "?"
  | .notDocument => notice "?"
  | _ => none

/-- Takes up a new store in place of the one under edit, for the session as well
as for its canvas. -/
def adopt (s : Session) (desk : Desk Double) : Session :=
  let s := s.unsubscribe
  let place := s.stores.length
  let s := { s with
    stores := s.stores ++ [desk.store], journal := desk.journal, store := place
    interaction := { s.interaction with store := place } }
  s.resetGesture.subscribe

/-- Replaces the graph by that of a graph document; the answer is whether it was accepted. The
document is rebuilt in a store of its own first. -/
def loadGraph (s : Session) (document : Json) : Except Fault Bool × Session :=
  match Desk.load document s.lenient (Desk.fresh s.catalog s.journal) with
  | (.ok (), desk) => (.ok true, (s.adopt desk).recompile)
  | (.error fault, desk) =>
    let s := { s with journal := desk.journal }
    match fault with
    | .refused refusal => (.ok false, s.notify (.rejected "load_graph_document" refusal))
    | fault =>
      match malformedNotice? fault with
      | some notice => (.ok false, s.notify notice)
      | none => (.error fault, s)

end Session

end RuleCanvas
