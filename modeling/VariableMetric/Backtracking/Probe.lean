import VariableMetric.Backtracking
import VariableMetric.Datum.Reader
import VariableMetric.Objective.Basic

/-!
# Backtracking on what a caller hands over

* `Probe`: a search as a caller asks for it, nothing of it checked.
* `Probe.search`: the checks and the search. Every point is noted before the objective is called.
-/

namespace VariableMetric

/-- A search as a caller asks for it. -/
structure Probe where
  /-- The value of the objective; its answer is converted to a number. -/
  f : Callable Float Datum
  x : NdArray Float
  direction : NdArray Float
  /-- The value at `x`. -/
  value : Datum
  factor : Datum
  minStep : Datum
  /-- The value of the full step, or nothing. -/
  full : Datum

/-- A search over and done with, at points of some shape. -/
structure Probed where
  shape : Shape
  found : Searched Float shape.cells

namespace Probe

variable {σ : Type}

/-- The factor of a search: strictly between zero and one, hence a double. -/
def checkFactor (d : Datum) : Except Fault Float :=
  match d.number? with
  | some a =>
    let x := a.nearest
    if Float.lt 0 x && x.lt 1 then .ok x else .error .shrinkOutside
  | none => .error (.unorderable .below (.int 0) d)

/-- The limit of a search: not at or below zero. -/
def checkMinStep (d : Datum) : Except Fault Float :=
  match d.number? with
  | some a =>
    if a.isNaN || (Number.int 0).lt a then .ok a.floor else .error .minStepNotPositive
  | none => .error (.unorderable .atMost d (.int 0))

/-- The value of the full step, if it is given. -/
def readFull : Datum → Except Fault (Option Float)
  | .nothing => .ok none
  | d => do return some (← d.toFloat)

/-- **The search**, its arguments checked in the order in which they are needed. -/
def search (p : Probe) (note : Shape → List Float → Talk σ Unit) : Talk σ Probed := do
  let factor ← Talk.ofExcept (checkFactor p.factor)
  let minStep ← Talk.ofExcept (checkMinStep p.minStep)
  let some shape := broadcastShape? p.x.shape p.direction.shape
    | throw (.shapesApart p.x.shape p.direction.shape)
  let origin : Vec Float shape.cells := (p.x.stretch shape).entries
  let direction : Vec Float shape.cells := (p.direction.stretch shape).entries
  let f (x : Vec Float shape.cells) : Talk σ Float := do
    note shape x.toList
    Talk.ofExcept ((p.f ⟨shape, x⟩).bind Datum.toFloat)
  let full ← Talk.ofExcept (readFull p.full)
  match p.value.number? with
  | none =>
    let first ← match full with
      | some v => pure v
      | none => f (origin + direction)
    throw (.unorderable .below (.float first) p.value)
  | some value =>
    let ray : Ray Float shape.cells := ⟨origin, direction, value.ceiling, factor, minStep⟩
    match ← ray.search f full trialLimit with
    | some found => return ⟨shape, found⟩
    | none => throw .searchUnfinished

end Probe

end VariableMetric
