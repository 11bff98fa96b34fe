import VariableMetric.Datum.Number
import VariableMetric.Decimal.Printer
import VariableMetric.Descent.Basic

/-!
# The figures of an iteration, in text

* `Figures`: the five figures that are reported of an iteration.
* `header`, `Figures.row`: the table, a line each, every column ending under its heading.
* `Figures.sentence`: the figures as a log message.
* `closing`: the line at the end of a run.
-/

namespace VariableMetric.Report

/-- What is reported of an iteration. -/
structure Figures where
  iteration : Int
  value : Float
  /-- The value less the one before. -/
  change : Float
  gradNorm : Float
  backtracks : Int

/-- The figures of a record; the change is not a number at the starting point. -/
def Figures.ofRecord {n : Nat} (r : Record Float n) : Figures :=
  ⟨r.iteration, r.value, r.change.getD Binary.nan, r.gradNorm, r.backtracks⟩

/-- Six significant digits. -/
def sixDigits (x : Float) : String := Decimal.general 6 x

/-- A line of the table, from the texts of its five columns. -/
def columns (iteration value change gradNorm backtracks : String) : String :=
  "  ".intercalate
    [Decimal.padLeft 7 iteration, Decimal.padLeft 15 value, Decimal.padLeft 15 change,
      Decimal.padLeft 15 gradNorm, Decimal.padLeft 10 backtracks]

/-- The headings of the table. -/
def header : String := columns "Iters" "Fval" "Fval.ch" "1st-ord norm" "backtracks"

/-- **A row of the table.** -/
def Figures.row (f : Figures) : String :=
  columns (toString f.iteration) (sixDigits f.value) (sixDigits f.change) (sixDigits f.gradNorm)
    (toString f.backtracks)

/-- The figures as a log message. -/
def Figures.sentence (f : Figures) : String :=
  s!"iter {f.iteration}: fval=" ++ sixDigits f.value ++ " change=" ++ sixDigits f.change ++
    " grad_norm=" ++ sixDigits f.gradNorm ++ s!" backtracks={f.backtracks}"

/-- The line at the end of a run. -/
def closing (s : ExitStatus) : String :=
  s!"bfgs terminated with exit status {s.code} (" ++
    String.ofList (s.name.toList.map Char.toLower) ++ ")"

/-- The figures of an iteration as a caller gives them. -/
structure RawFigures where
  iteration : Datum
  value : Datum
  change : Datum
  gradNorm : Datum
  backtracks : Datum

/-- The figures that a caller means, read from left to right: counts lose their fractions. -/
def RawFigures.read (f : RawFigures) : Except Fault Figures := do
  let iteration ← f.iteration.toInt .integerFormat
  let value ← (← f.value.real).toFloat
  let change ← (← f.change.real).toFloat
  let gradNorm ← (← f.gradNorm.real).toFloat
  let backtracks ← f.backtracks.toInt .integerFormat
  return { iteration, value, change, gradNorm, backtracks }

/-- The number of an iteration as a caller gives it, if it is a whole one; it has to be a number. -/
def RawFigures.whole? (f : RawFigures) : Except Fault (Option Int) := do
  let _ ← f.iteration.toInt .integerFormat
  return f.iteration.exactInt?

/-- The status of a code, given as a number of any make. -/
def statusOfCode (d : Datum) : Except Fault ExitStatus :=
  match [ExitStatus.notConverged, .converged, .stepUnderflow].find? fun s =>
      d.number?.any (·.same (.int s.code)) with
  | some s => .ok s
  | none => .error (.unknownStatus d)

end VariableMetric.Report
