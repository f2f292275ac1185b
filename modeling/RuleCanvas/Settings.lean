import RuleCanvas.Fault
import RuleCanvas.Form.Reader
import RuleCanvas.Number.Double
import RuleCanvas.Text.Character

/-! # Settings

The settings of the program, each under a name. They are given as values or found in the
environment, where the case of names does not matter; a given value goes first. A setting that is
neither given nor found has its default. `Settings.table` lists every setting with its reader.
-/

namespace RuleCanvas

inductive Environment where
  | development
  | test
  | production
  deriving DecidableEq, Repr

namespace Environment

def name : Environment → String
  | development => "local"
  | test => "test"
  | production => "prod"

def ofName? : String → Option Environment
  | "local" => some development
  | "test" => some test
  | "prod" => some production
  | _ => none

end Environment

structure Settings where
  environment : Environment
  appName : String
  logLevel : String
  observed : Bool
  structuredLogs : Bool
  requestIdHeader : String
  /-- What a reader of the counters has to send, if anything. -/
  metricsToken : Option String
  /-- The allowed origins, with commas between them. -/
  origins : String
  zoomMin : Double
  zoomMax : Double
  zoomStep : Double
  wheelSensitivity : Double
  columnSpacing : Double
  rowSpacing : Double
  resultX : Double
  catalogFile : Option String
  lenientImport : Bool
  maxDepth : Int
  maxNodes : Int

namespace Settings

open Scalar (ratio)

def defaults : Settings where
  environment := .development
  appName := "attendance-policy-graph"
  logLevel := "INFO"
  observed := true
  structuredLogs := true
  requestIdHeader := "X-Request-ID"
  metricsToken := none
  origins := "http://localhost:3000,http://localhost:5173"
  zoomMin := ratio 1 10
  zoomMax := ratio 3 1
  zoomStep := ratio 1 10
  wheelSensitivity := ratio 1 1000
  columnSpacing := ratio 250 1
  rowSpacing := ratio 100 1
  resultX := ratio 900 1
  catalogFile := none
  lenientImport := true
  maxDepth := 32
  maxNodes := 2000

/-- The allowed origins one by one, without blanks around them. -/
def originList (s : Settings) : List String :=
  (s.origins.splitOn ",").map fun origin =>
    String.ofList (Text.trim Text.isBlank origin.toList)

/-! ## The table of settings -/

open Form

/-- One setting: its name, how a value is put in its place, and the value that is there. -/
structure Setting where
  name : String
  put : Json → Settings → Checked Settings
  value : Settings → Json

def setting {β : Type} (name : String) (reader : Reader β) (toJson : β → Json)
    (get : Settings → β) (set : β → Settings → Settings) : Setting where
  name := name
  put v s := (reader v).map fun b => set b s
  value s := toJson (get s)

/-- An environment by its name in any case. -/
def readEnvironment : Reader Environment
  | .str s =>
    match Environment.ofName? (Text.lower s) with
    | some e => .ok e
    | none => fail <| .ruleBroken <|
        "app_env must be one of ['local', 'test', 'prod'], got '" ++ s ++ "'"
  | _ => fail .stringType

def readPositive : Reader Double := fun v =>
  match number v with
  | .ok x => if x ≤ ratio 0 1 then fail (.ruleBroken "must be greater than 0") else .ok x
  | .error issues => .error issues

def table : List Setting := [
  setting "app_env" readEnvironment (fun e => .str e.name)
    (·.environment) (fun v s => { s with environment := v }),
  setting "app_name" string .str (·.appName) (fun v s => { s with appName := v }),
  setting "app_log_level" string .str (·.logLevel) (fun v s => { s with logLevel := v }),
  setting "observability_enabled" switch .bool (·.observed) (fun v s => { s with observed := v }),
  setting "observability_structured_logs" switch .bool
    (·.structuredLogs) (fun v s => { s with structuredLogs := v }),
  setting "observability_request_id_header" string .str
    (·.requestIdHeader) (fun v s => { s with requestIdHeader := v }),
  setting "metrics_token" (optional string) (Json.ofOption .str)
    (·.metricsToken) (fun v s => { s with metricsToken := v }),
  setting "cors_origins" string .str (·.origins) (fun v s => { s with origins := v }),
  setting "canvas_zoom_min" readPositive .float (·.zoomMin) (fun v s => { s with zoomMin := v }),
  setting "canvas_zoom_max" number .float (·.zoomMax) (fun v s => { s with zoomMax := v }),
  setting "canvas_zoom_step" readPositive .float (·.zoomStep) (fun v s => { s with zoomStep := v }),
  setting "canvas_wheel_zoom_sensitivity" readPositive .float
    (·.wheelSensitivity) (fun v s => { s with wheelSensitivity := v }),
  setting "import_column_spacing" number .float
    (·.columnSpacing) (fun v s => { s with columnSpacing := v }),
  setting "import_row_spacing" number .float (·.rowSpacing) (fun v s => { s with rowSpacing := v }),
  setting "import_result_x" number .float (·.resultX) (fun v s => { s with resultX := v }),
  setting "variable_catalog_file" (optional string) (Json.ofOption .str)
    (·.catalogFile) (fun v s => { s with catalogFile := v }),
  setting "allow_unknown_variables_on_import" switch .bool
    (·.lenientImport) (fun v s => { s with lenientImport := v }),
  setting "max_rule_tree_depth" integer .int (·.maxDepth) (fun v s => { s with maxDepth := v }),
  setting "max_rule_tree_nodes" integer .int (·.maxNodes) (fun v s => { s with maxNodes := v })]

def toJson (s : Settings) : Json := .obj (table.map fun entry => (entry.name, entry.value s))

/-! ## Reading -/

/-- The member whose name is `name` in lower case, the last if there are several. -/
def findFolded? (name : String) (members : Json.Members) : Option Json :=
  (members.reverse.find? fun m => Text.lower m.1 == name).map (·.2)

def given? (values surroundings : Json.Members) (name : String) : Option Json :=
  Json.find? name values <|> findFolded? name values <|> findFolded? name surroundings

/-- Puts what is given in the place of defaults, with all that is wrong on the way. -/
def fill (given? : String → Option Json) : List Setting → Settings → List Issue × Settings
  | [], s => ([], s)
  | entry :: rest, s =>
    match given? entry.name with
    | none => fill given? rest s
    | some v =>
      match within (.name entry.name) (entry.put v s) with
      | .ok s => fill given? rest s
      | .error issues =>
        let (more, s) := fill given? rest s
        (issues ++ more, s)

/-- Whether `part` stands somewhere in `cs`. -/
def holds (part : List Char) : List Char → Bool
  | [] => part.isEmpty
  | c :: rest => part.isPrefixOf (c :: rest) || holds part rest

def isLocal (origin : String) : Bool :=
  holds "localhost".toList origin.toList || holds "127.0.0.1".toList origin.toList

/-- The first rule that the settings break together, in its own words: the zoom has to have room,
and production needs a token and origins on other machines. -/
def conflict? (s : Settings) : Option String :=
  let shown (x : Double) : String := String.ofList (DecimalStyle.plain.write x)
  if s.zoomMax ≤ s.zoomMin then
    some ("canvas_zoom_min (" ++ shown s.zoomMin ++ ") must be lower than canvas_zoom_max (" ++
      shown s.zoomMax ++ ")")
  else if s.environment = .production then
    if s.metricsToken = none ∨ s.metricsToken = some "" then
      some "METRICS_TOKEN must be set in production"
    else (s.originList.find? isLocal).map fun origin =>
      "CORS origins must not contain localhost in production: " ++ origin
  else none

/-- The settings with the given values and environment variables. An environment that is no text
is a fault of its own. -/
def read (values surroundings : Json.Members) : Except Fault Settings :=
  match given? values surroundings "app_env" with
  | some v =>
    if v.text?.isNone then .error .notDocument else finish
  | none => finish
where
  finish : Except Fault Settings :=
    match fill (given? values surroundings) table defaults with
    | ([], s) =>
      match s.conflict? with
      | some text => .error (.invalid [⟨[], .ruleBroken text⟩])
      | none => .ok s
    | (issues, _) => .error (.invalid issues)

/-- The defaults with single settings replaced. Nothing is compared, and a value that cannot be read
is passed over. -/
def withValues (values : Json.Members) : Settings := (fill (given? values []) table defaults).2

end Settings

end RuleCanvas
