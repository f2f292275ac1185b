import RuleCanvas.Service.Document
import RuleCanvas.Service.Exchange
import RuleCanvas.Rule.Check
import RuleCanvas.Rule.Compile
import RuleCanvas.Rule.Import
import RuleCanvas.Settings
import RuleCanvas.Store.Document

/-! # Endpoints

What the service can be asked for. Every endpoint is stateless: it builds a graph or a rule document
from its body, does one thing with it and answers with the result.
-/

namespace RuleCanvas.Service

inductive Ending where
  | answer (response : Response)
  /-- A refusal by the rules of the editor. -/
  | refused (statement : Statement)
  /-- A failure with a status of its own. -/
  | failed (status : Nat) (detail : Json)
  /-- A failure that nobody foresaw. -/
  | crashed (message : String)

/-- An answer or an early ending, with the journal. -/
abbrev Served := Ending × Journal Double

namespace Ending

def ok (value : Json) : Ending := .answer (.json 200 value)

def ofFault : Fault → Ending
  | .refused refusal => .refused refusal.statement
  | .badValue message => .crashed message
  | _ => .crashed ""

end Ending

def readBody {β : Type} (reader : Form.Reader β) (r : Request) (serve : β → Served)
    (j : Journal Double) : Served :=
  let unreadable (issues : List Form.Issue) : Served :=
    (.answer (.detail 422 (Form.report issues)), j)
  match r.content with
  | .error issue => unreadable [issue]
  | .ok none => unreadable [⟨[.name "body"], .missing⟩]
  | .ok (some v) =>
    match Form.within (.name "body") (reader v) with
    | .error issues => unreadable issues
    | .ok b => serve b

def listVariables (catalog : Catalog) : Json :=
  .arr <| catalog.entries.map fun e =>
    .obj [("label", .str e.label), ("key", .str e.key), ("type", .str e.type.name)]

def compile (catalog : Catalog) (r : Request) (j : Journal Double) : Served :=
  readBody readGraph r (fun document =>
    match Desk.load document false (.fresh catalog j) with
    | (.error fault, d) => (.ofFault fault, d.journal)
    | (.ok (), d) =>
      let tree := d.graph.ruleTree
      (.ok (.obj [("rule_tree", tree), ("fingerprint", .str tree.fingerprint)]),
        d.journal.addAll d.graph.compileEntries)) j

def limits (s : Settings) : Rule.Limits := ⟨s.maxDepth, s.maxNodes⟩

/-- An importer with the layout of the settings. -/
def importer (s : Settings) (catalog : Catalog) : Rule.Importer Double :=
  ⟨⟨catalog, s.lenientImport⟩, ⟨s.columnSpacing, s.rowSpacing, s.resultX⟩⟩

def importRules (s : Settings) (catalog : Catalog) (r : Request) (j : Journal Double) : Served :=
  readBody (readRuleDocument (limits s)) r (fun document =>
    match (importer s catalog).run document (.fresh catalog j) with
    | (.error fault, d) => (.ofFault fault, d.journal)
    | (.ok imported, d) =>
      let issue (i : ImportIssue) : Json :=
        .obj [("path", .str i.path), ("message", .str i.message)]
      (.ok (.obj [("graph", d.graph.toDocument), ("issues", .arr (imported.issues.map issue))]),
        d.journal)) j

def validate (s : Settings) (catalog : Catalog) (r : Request) (j : Journal Double) : Served :=
  let context : Rule.Context := ⟨catalog, false⟩
  readBody (readRuleDocument (limits s)) r (fun document =>
    let j := j.addAll ((Rule.checkLines context document).map .line)
    match Rule.check context document with
    | .error cause => (.ofFault (.refused (.malformed cause)), j)
    | .ok types =>
      (.ok (.obj [("valid", .bool true),
        ("rule_types", .arr (types.map fun t => .str t.name))]), j)) j

/-- The counters that are kept, in the order of their names. -/
def counterNames : List (String × String) := [
  ("compiler_compilations_total", "Total graph compilations"),
  ("compiler_duration_seconds", "Graph compilation duration in seconds"),
  ("compiler_rules_count", "Number of status rules in a compiled rule tree"),
  ("compiler_tree_bytes", "Size of the compiled rule tree in bytes"),
  ("graph_connections_total", "Connection attempts by outcome"),
  ("http_request_duration_seconds", "HTTP request latency in seconds"),
  ("http_requests_in_progress", "HTTP requests currently in progress"),
  ("http_requests_total", "Total HTTP requests"),
  ("importer_imports_total", "Total rule tree imports"),
  ("importer_issues_total", "Rule tree fragments recovered during import")]

def logger : String := "policy_graph.main"

/-- The counters, for a reader who sends the token of the settings if they have one. -/
def counters (s : Settings) (r : Request) (j : Journal Double) : Served :=
  let given := (r.header? "X-Metrics-Token").getD ""
  let shown : Served := (.answer ⟨200, .counters counterNames, none, none⟩, j)
  let isPlain (s : String) : Bool := s.toList.all fun c => c.toNat < 128
  match s.metricsToken with
  | none => shown
  | some token =>
    if token = "" then shown
    else if !isPlain given || !isPlain token then
      (.crashed "comparing strings with non-ASCII characters is not supported", j)
    else if given = token then shown
    else
      let line : LogLine :=
        ⟨.warning, logger, "Unauthorized metrics access attempt", none, none⟩
      (.answer (.error 403 "HTTPException" "Invalid metrics token" []), j.log line)

end RuleCanvas.Service
