import VariableMetric.Descent.Run
import VariableMetric.Objective.Basic

/-!
# The partners of a run

A run talks to an objective, to observers, to a callback and to whoever may stop it. They share a
state, which outlives a fault.

* `Listener`: takes note of iterations and of the result.
* `Partners`: all those whom a run talks to.
* `Partners.answer`: how each request is answered, and by whom.
* `Partners.play`: a run with its partners.
-/

namespace VariableMetric

/-- Takes note of iterations and of the result. -/
structure Listener (σ α : Type) where
  record : (n : Nat) → Record α n → Talk σ Unit
  finish : (n : Nat) → Result α n → Talk σ Unit

/-- Those whom a run talks to. -/
structure Partners (σ α ν : Type) where
  objective : Objective α ν
  /-- Every call of a callable is noted before it is made. -/
  note : Call → Talk σ Unit
  /-- Observers, in the order in which they are told. -/
  observers : List (Listener σ α)
  /-- Told of iterations after all observers. -/
  callback : (n : Nat) → Record α n → Talk σ Unit
  /-- Whether to stop. -/
  stop : Talk σ Bool
  /-- Takes down remarks. -/
  remark : Remark α → Talk σ Unit

namespace Partners

variable {σ α ν : Type} {n : Nat} [Elementary α] [Reading ν α]

/-- Tell everyone in turn; the first who fails ends it. -/
def tell {β : Type} (action : β → Talk σ Unit) : List β → Talk σ Unit
  | [] => pure ()
  | b :: bs => do
    action b
    tell action bs

/-- **How requests are answered.** -/
def answer (p : Partners σ α ν) : (q : Request α n) → Talk σ q.Answer
  | .value x => p.objective.measure p.note x
  | .gradient x => p.objective.measureBoth p.note x
  | .stop => p.stop
  | .remark r => p.remark r
  | .record r => do
    tell (fun o => o.record n r) p.observers
    p.callback n r
  | .finish r => tell (fun o => o.finish n r) p.observers

/-- **A run** from a starting point. -/
def play [Solver α] (p : Partners σ α ν) (s : Settings α) (x0 : Vec α n) : Talk σ (Result α n) :=
  (minimize s x0).conduct p.answer

end Partners

end VariableMetric
