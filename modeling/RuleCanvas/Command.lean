import RuleCanvas.Text.Character

/-! # Developer commands

The commands that start the service, test, lint and format it and write its interface description.
Each is a command line of an interpreter; arguments of the user come last.
-/

namespace RuleCanvas

inductive Command where
  | dev
  | test
  | lint
  | format
  | openapi
  deriving DecidableEq, Repr

namespace Command

def name : Command → String
  | dev => "dev"
  | test => "test"
  | lint => "lint"
  | format => "format"
  | openapi => "openapi"

def ofName? : String → Option Command
  | "dev" => some dev
  | "test" => some test
  | "lint" => some lint
  | "format" => some format
  | "openapi" => some openapi
  | _ => none

def sources : List String := ["policy_graph", "cli", "tests", "scripts"]

/-- The arguments of the interpreter for a command; `setIn` looks up an environment variable. -/
def arguments (setIn : String → Option String) : Command → List String
  | dev => ["-m", "uvicorn", "policy_graph.main:app", "--reload", "--reload-dir", "policy_graph",
      "--port", (setIn "PORT").getD "8000",
      "--log-level", Text.lower ((setIn "APP_LOG_LEVEL").getD "info")]
  | test => ["-m", "pytest", "-q"]
  | lint => ["-m", "ruff", "check"] ++ sources
  | format => ["-m", "ruff", "format"] ++ sources
  | openapi => ["scripts/generate_openapi.py", "--output", "docs/openapi.json"]

/-- The command line, with the arguments of the user at its end. -/
def line (interpreter : String) (setIn : String → Option String) (c : Command)
    (args : List String) : List String :=
  interpreter :: c.arguments setIn ++ args

end Command

end RuleCanvas
