import VariableMetric.Algebra.LinearSystem
import VariableMetric.Algebra.Secant
import VariableMetric.Backtracking
import VariableMetric.Descent.Basic
import VariableMetric.Dialogue

/-!
# Descent with a variable metric

The method: solve the curvature matrix for a direction, try the full step, shrink it if it does not
decrease the value, correct the matrix by the secant update, and go on until value and step both
change little.

* `State`: what is carried from iteration to iteration.
* `iterate`: one iteration.
* `iterateUpTo`: iterations until one ends the run, the caller stops it, or the limit is reached.
* `minimize`: a run from its starting point to its result.
-/

namespace VariableMetric

/-- What is carried from iteration to iteration. -/
structure State (α : Type) (n : Nat) where
  /-- The last accepted point. -/
  x : Vec α n
  /-- The value there. -/
  value : α
  /-- The gradient there. -/
  gradient : Vec α n
  /-- The curvature matrix. -/
  hessian : Mat α n n
  /-- Iterations begun. -/
  nit : Nat
  /-- Evaluations of the objective. -/
  nfev : Nat
  /-- Evaluations with the gradient. -/
  njev : Nat
  /-- The accepted points, if they are kept. -/
  history : List (Vec α n)

variable {α : Type} [Scalar α] {n : Nat}

/-- A run, as a dialogue with those who answer its requests. -/
abbrev Descent (α : Type) (n : Nat) (β : Type) := Dialogue (Request α n) Request.Answer β

namespace Descent

/-- Ask for a value. -/
def value (x : Vec α n) : Descent α n α := .ask (.value x) .done

/-- Ask for a value and a gradient. -/
def gradient (x : Vec α n) : Descent α n (α × Vec α n) := .ask (.gradient x) .done

/-- Ask whether to stop. -/
def stop : Descent α n Bool := .ask .stop .done

/-- Note a remark. -/
def remark (r : Remark α) : Descent α n Unit := .ask (.remark r) .done

/-- Report an iteration. -/
def record (r : Record α n) : Descent α n Unit := .ask (.record r) .done

/-- Report the result. -/
def finish (r : Result α n) : Descent α n Unit := .ask (.finish r) .done

end Descent

namespace State

/-- The record of an iteration that leads from `st` to `next`. -/
def recordTo (st next : State α n) (backtracks : Nat) (step : α) : Record α n where
  iteration := next.nit
  value := next.value
  change := some (next.value - st.value)
  gradNorm := normInf next.gradient
  backtracks := backtracks
  step := step
  x := next.x

/-- The state with evaluations counted: some of values alone, some with the gradient. -/
def counted (st : State α n) (values gradients : Nat) : State α n :=
  { st with nfev := st.nfev + values + gradients, njev := st.njev + gradients }

/-- The result of a run that ends in this state. -/
def result (st : State α n) (ending : Ending) : Result α n where
  x := st.x
  value := st.value
  ending := ending
  nit := st.nit
  nfev := st.nfev
  njev := st.njev
  gradient := st.gradient
  gradNorm := normInf st.gradient
  hessian := st.hessian
  history := st.history

end State

/-- The direction of a full step: minus the solution of the curvature matrix for the gradient. -/
def searchDirection [Solver α] (s : Settings α) (st : State α n) : Descent α n (Vec α n) := do
  let solved := solveRidged st.hessian st.gradient s.ridge
  if solved.ridged then Descent.remark (.ridged s.ridge)
  match solved.solution with
  | some p => return -p
  | none => .fail .singular

/-- A change of the value and a step are both small. -/
def withinTolerance (s : Settings α) (change : α) (step : Vec α n) : Bool :=
  Scalar.lt (Scalar.abs change) s.tolfun && Scalar.lt (normInf step) s.tolx

/-- Go on to an accepted point: correct the curvature matrix, test for convergence, report. -/
def accept (s : Settings α) (st : State α n) (x : Vec α n) (value : α) (gradient : Vec α n)
    (backtracks : Nat) (step : α) : Descent α n (State α n × Option Ending) := do
  let dx := x - st.x
  let updated := secantUpdate st.hessian dx (gradient - st.gradient) s.curvatureTol
  if !updated.applied then
    Descent.remark (.updateSkipped updated.curvature.along updated.curvature.model)
  let next : State α n :=
    { st with
      x, value, gradient
      hessian := updated.matrix
      history := if s.history then st.history ++ [x] else st.history }
  Descent.record (st.recordTo next backtracks step)
  return (next, if withinTolerance s (value - st.value) dx then some .converged else none)

/-- Stay at the last accepted point and end the run. -/
def halt (st : State α n) (backtracks : Nat) (ending : Ending) :
    Descent α n (State α n × Option Ending) := do
  Descent.record (st.recordTo st backtracks 0)
  return (st, some ending)

/-- **One iteration**: the state after it, and the ending if it is the last. -/
def iterate [Solver α] (s : Settings α) (st : State α n) :
    Descent α n (State α n × Option Ending) := do
  let st := { st with nit := st.nit + 1 }
  let direction ← searchDirection s st
  let candidate := st.x + direction
  let (value, gradient) ← Descent.gradient candidate
  let st := st.counted 0 1
  if Scalar.lt value st.value then
    accept s st candidate value gradient 0 1
  else if withinTolerance s (value - st.value) direction then
    halt st 0 .converged
  else
    let ray : Ray α n := ⟨st.x, direction, st.value, s.backtrack, s.minStep⟩
    match ← ray.search Descent.value (some value) s.trialLimit with
    | none => .fail .searchUnfinished
    | some found =>
      let st := st.counted found.nfev 0
      if found.success then
        let (value, gradient) ← Descent.gradient found.x
        accept s (st.counted 0 1) found.x value gradient found.backtracks found.step
      else
        Descent.remark (.noDecrease st.nit found.backtracks)
        halt st found.backtracks .stepUnderflow

/-- Iterations, at most `budget` of them, until one ends the run or the caller stops it. -/
def iterateUpTo [Solver α] (s : Settings α) (budget : Nat) (st : State α n) :
    Descent α n (State α n × Ending) :=
  match budget with
  | 0 => return (st, .iterationLimit)
  | budget + 1 => do
    if ← Descent.stop then return (st, .stoppedByCaller)
    match ← iterate s st with
    | (st, some ending) => return (st, ending)
    | (st, none) => iterateUpTo s budget st

/-- The record of the starting point. -/
def startRecord (st : State α n) : Record α n where
  iteration := 0
  value := st.value
  change := none
  gradNorm := normInf st.gradient
  backtracks := 0
  step := 0
  x := st.x

/-- **A run** from a starting point. Value and gradient have to be finite there. -/
def minimize [Solver α] (s : Settings α) (x0 : Vec α n) : Descent α n (Result α n) := do
  let (value, gradient) ← Descent.gradient x0
  if !(Scalar.isFinite value && allFinite gradient) then .fail .valuesInfinite
  else
    let st : State α n :=
      ⟨x0, value, gradient, Mat.identity n, 0, 1, 1, if s.history then [x0] else []⟩
    Descent.remark (.starting n value s.maxiter)
    Descent.record (startRecord st)
    let (st, ending) ← iterateUpTo s s.maxiter st
    Descent.remark (.finished st.nit ending)
    let result := st.result ending
    Descent.finish result
    return result

end VariableMetric
