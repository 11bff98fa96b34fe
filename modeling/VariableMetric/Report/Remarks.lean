import VariableMetric.Decimal.Printer
import VariableMetric.Descent.Basic
import VariableMetric.Logging.Registry
import VariableMetric.Text.Lines

/-!
# Remarks in the log

What a run says of itself goes to two loggers: one for the method, one for the algebra beneath it.

* `methodLogger`, `algebraLogger`, `progressLogger`: the loggers of a run.
* `ridgeEntry`, `skippedEntry`: what the algebra says.
* `remarkEntry`: the log entry of a remark.
* `heard`: the lines that come of log entries at a level.
-/

namespace VariableMetric.Report

open Logging (Registry)

/-- The logger of the method. -/
def methodLogger : String := "bfgsmin.optimize.quasi_newton"

/-- The logger of the algebra. -/
def algebraLogger : String := "bfgsmin.optimize.utils"

/-- The logger of observers. -/
def progressLogger : String := "bfgsmin.optimize.progress"

/-- A matrix is singular, and is solved with a ridge. -/
def ridgeEntry (ridge : Float) : Logging.Record where
  name := algebraLogger
  level := Logging.debug
  message := .text ("Singular curvature matrix, retrying with ridge " ++ Decimal.general 6 ridge)

/-- A secant update is left out: its two denominators and their threshold. -/
def skippedEntry (along model threshold : Float) : Logging.Record where
  name := algebraLogger
  level := Logging.debug
  message := .text ("Skipping secant update: y.dx=" ++ Decimal.general 6 along ++
    ", dx.H.dx=" ++ Decimal.general 6 model ++
    " (threshold " ++ Decimal.general 6 threshold ++ ")")

/-- An entry of the method. -/
def methodEntry (level : Logging.Level) (message : String) : Logging.Record where
  name := methodLogger
  level := level
  message := .text message

/-- **The log entry of a remark**; `threshold` is that of the secant update. -/
def remarkEntry (threshold : Float) : Remark Float → Logging.Record
  | .starting n value maxiter => methodEntry Logging.info
      (s!"Starting BFGS: dim={n}, fval=" ++ Decimal.general 6 value ++ s!", maxiter={maxiter}")
  | .ridged ridge => ridgeEntry ridge
  | .updateSkipped along model => skippedEntry along model threshold
  | .noDecrease iteration backtracks => methodEntry Logging.debug
      s!"Iteration {iteration}: no decrease after {backtracks} backtracks"
  | .finished iterations ending => methodEntry Logging.info
      (s!"BFGS finished after {iterations} iterations: " ++ ending.message)

/-- The three loggers, writing to one stream from a level on. -/
def loggersAt (level : Datum) : Except Fault Registry :=
  let loggers := [methodLogger, algebraLogger, progressLogger]
  let fresh := loggers.foldl (fun r name => (r.get (some name)).1) (Registry.start none)
  let (configured, outcome) := fresh.configure level .nothing Logging.standardError
  outcome.map fun _ => configured

/-- The lines that come of log entries. -/
def heard (loggers : Registry) (entries : List Logging.Record) : List String :=
  Text.lines (String.join ((loggers.sendAll entries).map (·.text)))

end VariableMetric.Report
