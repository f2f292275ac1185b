import RuleCanvas.Graph.Basic

/-! # The journal

What an operation tells the outside beside its result: changes delivered to listeners, each with the
graph at that moment, lines for the log, and measures for the counters. The journal also holds the
source of fresh ids, so that an operation that fails after it drew one has used it up.
-/

namespace RuleCanvas

/-- A supply of fresh ids: the id of each draw, and how many were drawn. -/
structure IdSource where
  name : Nat → String
  drawn : Nat

/-- The ids `n1`, `n2`, and so on. -/
def IdSource.counting : IdSource := ⟨fun k => "n" ++ toString (k + 1), 0⟩

/-! ## Log lines -/

inductive Level where
  | info
  | warning
  | error
  deriving DecidableEq, Repr

def Level.name : Level → String
  | info => "INFO"
  | warning => "WARNING"
  | error => "ERROR"

structure LogLine where
  level : Level
  logger : String
  message : String
  event : Option String
  details : Option Json

/-! ## Measures -/

inductive WireOutcome where
  | connected
  | replaced
  | typeMismatch
  | cycle
  | invalid
  deriving DecidableEq, Repr

def WireOutcome.name : WireOutcome → String
  | connected => "connected"
  | replaced => "replaced"
  | typeMismatch => "type_mismatch"
  | cycle => "cycle"
  | invalid => "invalid"

/-- The outcome that a refusal of a connection counts as. -/
def WireOutcome.ofRefusal (r : Refusal) : WireOutcome :=
  match r.family with
  | .typeMismatch => typeMismatch
  | .cycleDetected => cycle
  | _ => invalid

inductive Measure where
  | wire (outcome : WireOutcome)
  /-- A compilation, by the number of its rules and the size of its text. -/
  | compiled (rules bytes : Nat)
  | imported
  | importRejected
  | importIssues (count : Nat)
  | request (method route : String) (status : Nat)
  deriving Repr

/-- The samples of a histogram without labels for one observation. -/
def Measure.histogram (name : String) (bounds : List Nat) (value : Nat) : List (String × Nat) :=
  let held :=
    (bounds.filter (value ≤ ·)).map fun b => (name ++ "_bucket|le=" ++ toString b ++ ".0", 1)
  held ++ [(name ++ "_bucket|le=+Inf", 1), (name ++ "_count|", 1), (name ++ "_sum|", value)]

/-- The counter samples that a measure adds to, and by how much. -/
def Measure.samples : Measure → List (String × Nat)
  | wire outcome => [("graph_connections_total|outcome=" ++ outcome.name, 1)]
  | compiled rules bytes =>
    [("compiler_compilations_total|status=success", 1), ("compiler_duration_seconds_count|", 1)] ++
      histogram "compiler_rules_count" [0, 1, 2, 5, 10, 25, 50] rules ++
      histogram "compiler_tree_bytes" [64, 256, 1024, 4096, 16384, 65536] bytes
  | imported => [("importer_imports_total|status=success", 1)]
  | importRejected => [("importer_imports_total|status=rejected", 1)]
  | importIssues count => [("importer_issues_total|", count)]
  | request method route status =>
    let labels := "method=" ++ method ++ ",route=" ++ route
    [("http_request_duration_seconds_count|" ++ labels, 1),
      ("http_requests_total|" ++ labels ++ ",status_code=" ++ toString status, 1)]

/-! ## Changes -/

inductive Change where
  | nodeAdded (node : String)
  | nodeRemoved (node : String)
  | nodeMoved (node : String)
  | payloadUpdated (node : String)
  | edgeAdded (edge : String)
  | edgeRemoved (edge : String)
  | cleared
  deriving DecidableEq, Repr

namespace Change

def event : Change → String
  | nodeAdded _ => "node_added"
  | nodeRemoved _ => "node_removed"
  | nodeMoved _ => "node_moved"
  | payloadUpdated _ => "payload_updated"
  | edgeAdded _ => "edge_added"
  | edgeRemoved _ => "edge_removed"
  | cleared => "cleared"

def node? : Change → Option String
  | nodeAdded n => some n
  | nodeRemoved n => some n
  | nodeMoved n => some n
  | payloadUpdated n => some n
  | _ => none

def edge? : Change → Option String
  | edgeAdded e => some e
  | edgeRemoved e => some e
  | _ => none

end Change

/-- Who hears of changes: the session that owns a store, or another listener. Listeners of one name
are told apart by the order in which they were made. -/
inductive Listener where
  | owner
  | named (name : String) (serial : Nat)
  deriving DecidableEq, Repr

/-! ## Entries -/

inductive Entry (α : Type) where
  | heard (listener : Listener) (change : Change) (graph : Graph α)
  | line (line : LogLine)
  | measure (measure : Measure)

/-- The supply of ids and the entries so far, the latest first. -/
structure Journal (α : Type) where
  ids : IdSource
  recent : List (Entry α)

namespace Journal

variable {α : Type}

/-- The entries in the order in which they were made. -/
def entries (j : Journal α) : List (Entry α) := j.recent.reverse

def add (j : Journal α) (e : Entry α) : Journal α := { j with recent := e :: j.recent }

def addAll (j : Journal α) (es : List (Entry α)) : Journal α :=
  { j with recent := es.reverse ++ j.recent }

def log (j : Journal α) (l : LogLine) : Journal α := j.add (.line l)

def count (j : Journal α) (m : Measure) : Journal α := j.add (.measure m)

/-- A fresh id, which is used up. -/
def draw (j : Journal α) : String × Journal α :=
  (j.ids.name j.ids.drawn, { j with ids := { j.ids with drawn := j.ids.drawn + 1 } })

/-- The given id, or a fresh one where the given value counts as missing. -/
def choose (j : Journal α) (given : Json) : Json × Journal α :=
  if given.isTruthy then (given, j) else (.str j.draw.1, j.draw.2)

end Journal

def Entry.lines {α : Type} (entries : List (Entry α)) : List LogLine :=
  entries.filterMap fun
    | .line l => some l
    | _ => none

/-- The sum of all samples among entries, by name, without those that did not move. -/
def Entry.tally {α : Type} (entries : List (Entry α)) : List (String × Nat) :=
  let samples := entries.flatMap fun
    | .measure m => m.samples
    | _ => []
  let add (acc : List (String × Nat)) (sample : String × Nat) : List (String × Nat) :=
    if acc.any fun a => a.1 == sample.1 then
      acc.map fun a => if a.1 == sample.1 then (a.1, a.2 + sample.2) else a
    else acc ++ [sample]
  (samples.foldl add []).filter fun s => s.2 != 0

/-! ## Notices -/

/-- A short message for the user of the editor. Every notice is also a line of the log, as a warning
if its level is `warning`. -/
structure Notice where
  event : String
  message : String
  level : String
  details : Json.Members

namespace Notice

/-- A notice of the usual level. -/
def warning (event message : String) (details : Json.Members) : Notice :=
  ⟨event, message, "warning", details⟩

def rejected (action : String) (refusal : Refusal) : Notice :=
  warning (action ++ "_rejected") refusal.message refusal.details

def toJson (n : Notice) : Json :=
  .obj [("event", .str n.event), ("message", .str n.message), ("level", .str n.level),
    ("details", .obj n.details)]

def line (n : Notice) : LogLine where
  level := if n.level = "warning" then .warning else .info
  logger := "policy_graph.core.notifications"
  message := "notify:" ++ n.event ++ " " ++ n.message
  event := some n.event
  details := some (.obj n.details)

end Notice

end RuleCanvas
