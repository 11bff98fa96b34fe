import VariableMetric.Algebra.Vec

/-!
# The vocabulary of a run

* `ExitStatus`, `Ending`: why a run stopped, and the sentence that says so.
* `Settings`: what a run is told.
* `Record`: what is known after an iteration.
* `Result`: what is known at the end.
* `Remark`: what a run says of itself on the way.
* `Request`: what a run asks of others, and `Request.Answer`, what it is answered.
-/

namespace VariableMetric

/-- Why a run stopped, in the three classes that callers tell apart. -/
inductive ExitStatus where
  | notConverged
  | converged
  | stepUnderflow
  deriving DecidableEq, Repr

namespace ExitStatus

/-- The code of a status. -/
def code : ExitStatus → Nat
  | .notConverged => 0
  | .converged => 1
  | .stepUnderflow => 2

/-- The name of a status in capitals. -/
def name : ExitStatus → String
  | .notConverged => "NOT_CONVERGED"
  | .converged => "CONVERGED"
  | .stepUnderflow => "STEP_UNDERFLOW"

/-- The sentence for a status. -/
def message : ExitStatus → String
  | .notConverged => "Maximum iterations reached."
  | .converged => "Function and step tolerances satisfied."
  | .stepUnderflow => "Line search step fell below the minimum step size."

end ExitStatus

/-- Why a run stopped. -/
inductive Ending where
  | iterationLimit
  | stoppedByCaller
  | converged
  | stepUnderflow
  deriving DecidableEq, Repr

namespace Ending

/-- The class of an ending. -/
def status : Ending → ExitStatus
  | .iterationLimit | .stoppedByCaller => .notConverged
  | .converged => .converged
  | .stepUnderflow => .stepUnderflow

/-- The sentence for an ending: that of its status, unless the caller stopped the run. -/
def message : Ending → String
  | .stoppedByCaller => "Stopped by caller."
  | e => e.status.message

end Ending

/-- What a run is told. -/
structure Settings (α : Type) where
  /-- The largest number of iterations. -/
  maxiter : Nat
  /-- Steps whose largest entry is below this are small. -/
  tolx : α
  /-- Changes of the value below this are small. -/
  tolfun : α
  /-- The factor by which the line search shrinks its step. -/
  backtrack : α
  /-- The line search gives up once its step is not above this. -/
  minStep : α
  /-- Denominators of the secant update have to be above this. -/
  curvatureTol : α
  /-- What is added to the diagonal of a singular curvature matrix. -/
  ridge : α
  /-- The most trials of one line search. -/
  trialLimit : Nat
  /-- The accepted points are kept. -/
  history : Bool

/-- What is known after an iteration; iteration 0 is the starting point. -/
structure Record (α : Type) (n : Nat) where
  iteration : Nat
  value : α
  /-- The value less the one before; nothing at the starting point. -/
  change : Option α
  gradNorm : α
  backtracks : Nat
  /-- The accepted step: one for a full step, zero when none was accepted. -/
  step : α
  x : Vec α n

/-- What is known at the end. -/
structure Result (α : Type) (n : Nat) where
  x : Vec α n
  value : α
  ending : Ending
  nit : Nat
  /-- How many times the objective was evaluated. -/
  nfev : Nat
  /-- How many of these were with the gradient. -/
  njev : Nat
  gradient : Vec α n
  gradNorm : α
  hessian : Mat α n n
  /-- The accepted points from the starting point on, if they were to be kept. -/
  history : List (Vec α n)

/-- What a run says of itself on the way. -/
inductive Remark (α : Type) where
  /-- A run starts: its dimension, first value and iteration limit. -/
  | starting (n : Nat) (value : α) (maxiter : Nat)
  /-- The curvature matrix is singular, and is solved with a ridge. -/
  | ridged (ridge : α)
  /-- The secant update is left out: its two denominators. -/
  | updateSkipped (along model : α)
  /-- The line search of an iteration found no decrease. -/
  | noDecrease (iteration backtracks : Nat)
  /-- The run is over. -/
  | finished (iterations : Nat) (ending : Ending)

/-- What a run asks of others. -/
inductive Request (α : Type) (n : Nat) where
  /-- The value of the objective at a point. -/
  | value (x : Vec α n)
  /-- The value and the gradient at a point. -/
  | gradient (x : Vec α n)
  /-- Whether to stop before the next iteration. -/
  | stop
  /-- Note a remark. -/
  | remark (r : Remark α)
  /-- Take note of an iteration. -/
  | record (r : Record α n)
  /-- Take note of the result. -/
  | finish (r : Result α n)

/-- What a request is answered with. -/
abbrev Request.Answer {α : Type} {n : Nat} : Request α n → Type
  | .value _ => α
  | .gradient _ => α × Vec α n
  | .stop => Bool
  | .remark _ | .record _ | .finish _ => Unit

end VariableMetric
