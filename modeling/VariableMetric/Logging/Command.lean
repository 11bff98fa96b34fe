import VariableMetric.Logging.Registry

/-!
# Commands to a registry

What callers do to the loggers of the package, command by command, with the values that they hand
over and what comes back.

* `Command`: the three operations, with what a caller passes.
* `Registry.perform`: one command. A registry comes back from a failure, too.
* `Registry.performAll`: one command after the other, and what came back from each.
-/

namespace VariableMetric.Logging

/-- An operation of the package, with what a caller passes. -/
inductive Command where
  /-- Hand out the logger of a name. -/
  | get (name : Datum)
  | setLevel (level : Datum)
  /-- No stream stands for standard error. -/
  | configure (level template : Datum) (stream : Option Stream)

/-- What comes back from a command: the name of the logger that is handed out, if one is. -/
abbrev Outcome := Except Fault (Option String)

/-- Commands, each with what came back from it. -/
abbrev History := List (Command × Outcome)

namespace Registry

/-- **One command.** -/
def perform (r : Registry) : Command → Registry × Outcome
  | .get name =>
    match nameOf name with
    | .error e => (r, .error e)
    | .ok name =>
      let (r, outcome) := r.get name
      (r, outcome.map some)
  | .setLevel level =>
    let (r, outcome) := r.setLevel level
    (r, outcome.map fun _ => none)
  | .configure level template stream =>
    let (r, outcome) := r.configure level template (stream.getD standardError)
    (r, outcome.map fun _ => none)

/-- **One command after the other**, failed or not. -/
def performAll (r : Registry) : List Command → Registry × History
  | [] => (r, [])
  | c :: cs =>
    let (r, outcome) := r.perform c
    let (r, history) := performAll r cs
    (r, (c, outcome) :: history)

end Registry

end VariableMetric.Logging
