import RuleCanvas.Form.Issue
import RuleCanvas.Json.Parser
import RuleCanvas.Text.Character

/-! # Requests and responses

What the service takes and answers. Names of headers have no case. A body is read as JSON only if
its content type says so.
-/

namespace RuleCanvas.Service

inductive Body where
  | empty
  /-- A value, sent as JSON. -/
  | json (value : Json)
  | text (text : String)

structure Request where
  method : String
  path : String
  headers : List (String × String)
  body : Body

namespace Request

def header? (r : Request) (name : String) : Option String :=
  (r.headers.find? fun h => Text.lower h.1 == Text.lower name).map (·.2)

def isJsonType (type : String) : Bool :=
  let kind := (Text.trim Text.isBlank (type.toList.takeWhile (· != ';'))).map Char.toLower
  kind == "application/json".toList ||
    ("application/".toList.isPrefixOf kind && "+json".toList.isSuffixOf kind)

/-- The content type; a value that is sent as JSON says so by itself. -/
def contentType? (r : Request) : Option String :=
  match r.header? "content-type", r.body with
  | some type, _ => some type
  | none, .json _ => some "application/json"
  | none, _ => none

/-- A value sent as text that is no JSON stands for itself. -/
def bodyText : Body → String
  | .empty => ""
  | .json v => v.render Json.Layout.compact
  | .text s => s

/-- The value of the body: none if there is no body or it is `null`. -/
def content (r : Request) : Except Form.Issue (Option Json) :=
  let present (v : Json) : Option Json :=
    match v with
    | .null => none
    | v => some v
  match r.body with
  | .empty => .ok none
  | .text "" => .ok none
  | body =>
    if r.contentType?.any isJsonType then
      match body with
      | .json v => .ok (present v)
      | body =>
        match Json.parse (bodyText body) with
        | .ok v => .ok (present v)
        | .error place => .error ⟨[.name "body", .item place], .jsonInvalid⟩
    else .ok (some (.str (bodyText body)))

end Request

inductive Content where
  | json (value : Json)
  /-- The counters, by name and meaning. -/
  | counters (names : List (String × String))
  | empty

/-- The id under which a request is followed: the one that came with it, or a fresh one. -/
inductive RequestId where
  | sent (id : String)
  | generated
  deriving DecidableEq, Repr

structure Response where
  status : Nat
  content : Content
  requestId : Option RequestId
  /-- Where the client is sent instead. -/
  location : Option String

namespace Response

def json (status : Nat) (value : Json) : Response := ⟨status, .json value, none, none⟩

def detail (status : Nat) (detail : Json) : Response := json status (.obj [("detail", detail)])

/-- A response to something that went wrong. -/
def error (status : Nat) (name message : String) (details : Json.Members) : Response :=
  json status (.obj [("error", .str name), ("message", .str message), ("details", .obj details)])

def bare (r : Response) : Response :=
  match r.content with
  | .counters _ => { r with content := .counters [] }
  | _ => { r with content := .empty }

end Response

end RuleCanvas.Service
