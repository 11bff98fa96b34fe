import VariableMetric.Algebra.Vec

/-!
# Backtracking

A search along a ray on values only: the step is shrunk by a constant factor until the value is
below that of the starting point, or until the step is no longer above a limit.

* `Ray`: where a search starts, where it looks, and when it stops.
* `Ray.settled`: the search goes no further from a trial.
* `Ray.shrink`: the trials from one on.
* `Ray.search`: the search from the full step, whose value may be known already.
-/

namespace VariableMetric

/-- A search along a ray. -/
structure Ray (α : Type) (n : Nat) where
  /-- The starting point. -/
  origin : Vec α n
  /-- The direction of the full step. -/
  direction : Vec α n
  /-- The value that a trial has to be below. -/
  value : α
  /-- The factor by which the step shrinks. -/
  factor : α
  /-- The search gives up once the step is not above this. -/
  minStep : α

/-- A trial point of a search. -/
structure Trial (α : Type) (n : Nat) where
  /-- The point. -/
  point : Vec α n
  /-- The value there. -/
  value : α
  /-- The step that leads there. -/
  scale : α
  /-- How often the step was shrunk. -/
  backtracks : Nat

/-- What a search came to: the last trial, the accepted step (zero if there was none), and how many
values were asked for. -/
structure Searched (α : Type) (n : Nat) where
  x : Vec α n
  value : α
  step : α
  backtracks : Nat
  nfev : Nat

/-- The most trials of a search. A step can be so short that its product with the factor is rounded
back to it; a search that has come there would never end. -/
def trialLimit : Nat := 1000000000000000000

variable {α : Type} [Scalar α] {n : Nat} {m : Type → Type} [Monad m]

/-- A step was accepted. -/
def Searched.success (s : Searched α n) : Bool := Scalar.lt 0 s.step

namespace Ray

/-- The value is a decrease. -/
def accepts (r : Ray α n) (value : α) : Bool := Scalar.lt value r.value

/-- The search goes no further from this trial. -/
def settled (r : Ray α n) (t : Trial α n) : Bool :=
  r.accepts t.value || !Scalar.lt r.minStep t.scale

/-- The point at a step. -/
def pointAt (r : Ray α n) (scale : α) : Vec α n := r.origin + scale * r.direction

/-- The trials from `t` on, each with a shorter step, up to the first that settles the search.
`none` if `limit` more trials do not. -/
def shrink (r : Ray α n) (f : Vec α n → m α) (limit : Nat) (t : Trial α n) :
    m (Option (Trial α n)) :=
  if r.settled t then pure (some t)
  else
    match limit with
    | 0 => pure none
    | limit + 1 => do
      let scale := t.scale * r.factor
      let point := r.pointAt scale
      let value ← f point
      r.shrink f limit ⟨point, value, scale, t.backtracks + 1⟩

/-- What a trial that settles the search comes to. -/
def conclude (r : Ray α n) (asked : Nat) (t : Trial α n) : Searched α n :=
  ⟨t.point, t.value, if r.accepts t.value then t.scale else 0, t.backtracks, asked + t.backtracks⟩

/-- **The search**, from the full step on. `full` is the value there, if it is known. `none` if
`limit` trials do not settle it. -/
def search (r : Ray α n) (f : Vec α n → m α) (full : Option α) (limit : Nat) :
    m (Option (Searched α n)) := do
  let point := r.origin + r.direction
  let value ← match full with
    | some v => pure v
    | none => f point
  let asked := if full.isSome then 0 else 1
  return (← r.shrink f limit ⟨point, value, 1, 0⟩).map (r.conclude asked)

end Ray

end VariableMetric
