import RuleCanvas.Log.Timestamp
import RuleCanvas.Text.Template

/-! # Log records

A record of the log and the object that is written for it: when and where it was made, its message
with the arguments filled in, and whatever else it carries.
-/

namespace RuleCanvas

structure Thrown where
  type : String
  message : String

structure LogRecord where
  logger : Json
  level : Int
  path : Json
  line : Json
  function : Json
  template : Json
  args : List Json
  /-- When it was made, in seconds since the first of January 1970. -/
  created : Double
  thrown : Option Thrown
  extra : Json.Members

namespace LogRecord

def levelName (level : Int) : String :=
  if level = 0 then "NOTSET"
  else if level = 10 then "DEBUG"
  else if level = 20 then "INFO"
  else if level = 30 then "WARNING"
  else if level = 40 then "ERROR"
  else if level = 50 then "CRITICAL"
  else "Level " ++ toString level

/-- The names of a record's own parts, which are not written again as something extra. -/
def reserved : List String := [
  "name", "msg", "args", "levelname", "levelno", "pathname", "filename", "module", "lineno",
  "funcName", "created", "msecs", "relativeCreated", "thread", "threadName", "processName",
  "process", "taskName", "getMessage", "exc_info", "exc_text", "stack_info"]

/-- The message. A template without arguments stands for itself. -/
def message (r : LogRecord) : Except Fault String :=
  if r.args.isEmpty then .ok (Text.bare r.template)
  else Text.Template.fill (Text.bare r.template) r.args

/-- The object that is written for a record; `requestId` is that of the request under way. -/
def write (r : LogRecord) (requestId : String) : Except Fault Json := do
  let timestamp ← (Timestamp.ofDouble r.created).write
  let message ← r.message
  let request : Json.Members :=
    if requestId = "" then [] else [("request_id", .str requestId)]
  let thrown : Json.Members :=
    match r.thrown with
    | some e => [("exception", .obj [("type", .str e.type), ("message", .str e.message)])]
    | none => []
  let extra := r.extra.filter fun m => !reserved.contains m.1
  return .obj ([("timestamp", .str timestamp), ("level", .str (levelName r.level)),
    ("logger", r.logger), ("message", .str message)] ++ request ++ thrown ++
    [("file", r.path), ("line", r.line), ("function", r.function)] ++
    (if extra.isEmpty then [] else [("extra", .obj extra)]))

end LogRecord

end RuleCanvas
