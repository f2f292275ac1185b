import RuleCanvas.Service.Endpoint

/-! # The service

The service finds the endpoint of a request, and turns however it ends into a response: a refusal
into one with the status of its family and the details that may be shown, a failure that nobody
foresaw into one without details. Requests are followed and counted if the settings say so.
-/

namespace RuleCanvas.Service

inductive Endpoint where
  | health
  | catalog
  | compile
  | importRules
  | validate
  | counters
  | fixed (ending : Ending)

/-- An endpoint at a path, for one method. -/
structure Route where
  method : String
  path : String
  endpoint : Endpoint

structure App where
  settings : Settings
  /-- The catalog, or what is wrong with its file. -/
  catalog : Except Fault Catalog
  /-- Routes beside those of the editor. -/
  more : List Route

namespace App

/-- The routes, the first of which that fits is taken. -/
def routes (a : App) : List Route :=
  [⟨"GET", "/api/v1/health", .health⟩, ⟨"GET", "/api/v1/variables", .catalog⟩,
    ⟨"POST", "/api/v1/graph/compile", .compile⟩, ⟨"POST", "/api/v1/rules/import", .importRules⟩,
    ⟨"POST", "/api/v1/rules/validate", .validate⟩] ++
  (if a.settings.observed then
    [⟨"GET", "/metrics", .counters⟩, ⟨"HEAD", "/metrics", .counters⟩] else []) ++
  a.more

def serve (a : App) (e : Endpoint) (r : Request) (j : Journal Double) : Served :=
  let withCatalog (serve : Catalog → Served) : Served :=
    match a.catalog with
    | .ok catalog => serve catalog
    | .error fault => (.ofFault fault, j)
  match e with
  | .health => (.ok (.obj [("ok", .bool true)]), j)
  | .catalog => withCatalog fun catalog => (.ok (listVariables catalog), j)
  | .compile => withCatalog fun catalog => Service.compile catalog r j
  | .importRules => withCatalog fun catalog => Service.importRules a.settings catalog r j
  | .validate => withCatalog fun catalog => Service.validate a.settings catalog r j
  | .counters => Service.counters a.settings r j
  | .fixed ending => (ending, j)

/-- The same path with a slash at its end, or without it. -/
def otherSlash (path : String) : String :=
  match path.toList.reverse with
  | '/' :: rest => String.ofList (rest.dropWhile (· == '/')).reverse
  | _ => path ++ "/"

/-- Finds the endpoint of a request and serves it. A path that is known but for its last slash is
answered with the known one. -/
def dispatch (a : App) (r : Request) (j : Journal Double) : Served :=
  let here := a.routes.filter fun route => route.path == r.path
  match here.find? fun route => route.method == r.method with
  | some route => a.serve route.endpoint r j
  | none =>
    if !here.isEmpty then (.answer (.detail 405 (.str "Method Not Allowed")), j)
    else
      let other := otherSlash r.path
      if r.path != "/" && a.routes.any fun route => route.path == other then
        (.answer ⟨307, .empty, none, some other⟩, j)
      else (.answer (.detail 404 (.str "Not Found")), j)

/-- The names of details that are shown in production. -/
def publicDetails : List String :=
  ["path", "node_id", "edge_id", "from", "to", "kind", "key", "operator", "errors"]

/-- The details of a refusal that are shown. -/
def shownDetails (a : App) (details : Json.Members) : Json.Members :=
  if a.settings.environment = .production then details.filter fun m => publicDetails.contains m.1
  else details

/-- The response to an ending, with what the log hears of it. -/
def respond (a : App) : Ending → Response × List LogLine
  | .answer response => (response, [])
  | .refused s =>
    let level : Level := if s.family.status < 500 then .warning else .error
    (.error s.family.status s.family.name s.message (a.shownDetails s.details),
      [⟨level, logger, s.family.name ++ ": " ++ s.message, none, some (.obj s.details)⟩])
  | .failed status detail =>
    let body : Json :=
      .obj [("error", .str "HTTPException"), ("message", detail), ("details", .obj [])]
    (.json status body,
      if status < 500 then []
      else [⟨.error, logger, "HTTP " ++ toString status ++ ": " ++ Text.bare detail, none, none⟩])
  | .crashed message =>
    (.error 500 "InternalServerError" "An unexpected error occurred" [],
      [⟨.error, logger, "Unhandled exception: " ++ message, none, none⟩])

def requestId (a : App) (r : Request) : RequestId :=
  match r.header? a.settings.requestIdHeader with
  | some id => if id = "" then .generated else .sent id
  | none => .generated

/-- Answers a request. The response to a failure that nobody foresaw is made outside of the part
that follows requests, and carries no id. -/
def handle (a : App) (r : Request) (j : Journal Double) : Response × Journal Double :=
  let (ending, j) := a.dispatch r j
  let (response, lines) := a.respond ending
  let response := if r.method == "HEAD" then response.bare else response
  let j := j.addAll (lines.map .line)
  if a.settings.observed then
    let crashed :=
      match ending with
      | .crashed _ => true
      | _ => false
    ({ response with requestId := if crashed then none else some (a.requestId r) },
      j.count (.request r.method r.path response.status))
  else (response, j)

end App

end RuleCanvas.Service
