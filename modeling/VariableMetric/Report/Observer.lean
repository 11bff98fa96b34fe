import VariableMetric.Options
import VariableMetric.Report.Figures
import VariableMetric.Report.Remarks

/-!
# Observers

An observer is told of every iteration and of the result. It never influences the run, unless it
fails.

* `Observer`: a table, a log, an observer of the caller's own, or a value in place of one.
* `Observer.hearIteration`, `Observer.hearFinish`: what an observer makes of an iteration and of the
  end.
* `Observer.ofDisplay`: the observers of a level of display.
-/

namespace VariableMetric.Report

/-- What an observer is told of. -/
inductive Notice where
  /-- An iteration, by its number if that is a whole one. -/
  | iteration (k : Option Int)
  | finish
  deriving DecidableEq, Repr

/-- An observer. -/
inductive Observer where
  /-- Prints a table, or its last line only. The headings are printed once. -/
  | table (showRows headerShown : Bool)
  /-- Sends every row to the log. The level is a value as the caller gave it. -/
  | log (level : Datum)
  /-- One of the caller's own, by its tag: it takes a notice or fails. -/
  | own (tag : Nat) (take : Notice → Except Fault Unit)
  /-- A value that is no observer, and cannot be told of anything. -/
  | value (d : Datum)

/-- What comes of an observer's work. -/
inductive Output where
  /-- A line on standard output. -/
  | printed (line : String)
  /-- An entry sent to the log. -/
  | logged (entry : Logging.Record)
  /-- A notice to an observer of the caller's own. -/
  | noted (tag : Nat) (notice : Notice)

/-- What an observer makes of a notice: the observer after it, what came of it, and whether it
failed. -/
structure Reaction where
  observer : Observer
  outputs : List Output
  outcome : Except Fault Unit

namespace Observer

/-- What a log comes to when it is sent a message. A message that cannot be written is lost. -/
def sendLog (level : Datum) (message : Option String) : Reaction :=
  match Logging.sentLevel? level with
  | none => ⟨.log level, [], .error .levelNotInteger⟩
  | some l =>
    let entry (message : String) : Logging.Record :=
      { name := progressLogger, level := l, message := .text message, truth := level.isTruth }
    ⟨.log level, (message.map fun text => .logged (entry text)).toList, .ok ()⟩

/-- **An iteration.** Its number and its figures may be unreadable; a table shows its headings all
the same. -/
def hearIteration (iteration : Except Fault (Option Int)) (figures : Except Fault Figures) :
    Observer → Reaction
  | .table false shown => ⟨.table false shown, [], .ok ()⟩
  | .table true shown =>
    let headings := if shown then [] else [Output.printed header]
    match figures with
    | .ok f => ⟨.table true true, headings ++ [.printed f.row], .ok ()⟩
    | .error e => ⟨.table true true, headings, .error e⟩
  | .log level => sendLog level (figures.toOption.map Figures.sentence)
  | .own tag take => match iteration with
    | .ok k => ⟨.own tag take, [.noted tag (.iteration k)], take (.iteration k)⟩
    | .error e => ⟨.own tag take, [], .error e⟩
  | .value d => ⟨.value d, [], .error (.noAttribute d.fullTypeName "iteration")⟩

/-- **The end of a run.** -/
def hearFinish (status : ExitStatus) (message : String) : Observer → Reaction
  | .table rows shown => ⟨.table rows shown, [.printed (closing status)], .ok ()⟩
  | .log level => sendLog level (some (closing status ++ ": " ++ message))
  | .own tag take => ⟨.own tag take, [.noted tag .finish], take .finish⟩
  | .value d => ⟨.value d, [], .error (.noAttribute d.fullTypeName "finish")⟩

/-- The observers of a level of display. -/
def ofDisplay : Display → List Observer
  | .silent => []
  | .final => [.table false false]
  | .iter => [.table true false]

end Observer

end VariableMetric.Report
