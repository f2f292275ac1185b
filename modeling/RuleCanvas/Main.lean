import RuleCanvas.Command

/-! # The command line

Prints the line of a developer command, a word on every line: the first argument is the interpreter,
the second the command, and the others are handed on.
-/

namespace RuleCanvas

/-- The environment variables that commands look at, with what they are set to. -/
def readEnvironment : IO (List (String × String)) := do
  let found ← ["PORT", "APP_LOG_LEVEL"].mapM fun name => do
    return (← IO.getEnv name).map fun value => (name, value)
  return found.filterMap id

end RuleCanvas

open RuleCanvas in
def main (args : List String) : IO UInt32 := do
  let usage : IO UInt32 := do
    IO.eprintln "usage: INTERPRETER (dev | test | lint | format | openapi) ARGUMENT..."
    return 2
  match args with
  | interpreter :: name :: rest =>
    match Command.ofName? name with
    | some command =>
      let found ← readEnvironment
      for word in command.line interpreter (fun name => found.lookup name) rest do
        IO.println word
      return 0
    | none => usage
  | _ => usage
