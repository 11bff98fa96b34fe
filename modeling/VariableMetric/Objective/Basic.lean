import VariableMetric.Dialogue
import VariableMetric.Expression.Graph

/-!
# Objectives

An objective is asked for its value, or for its value and gradient together. It is made of the
callables of a caller, whose answers are values of no particular type.

* `Reading`: how the answers of callables are read as numbers.
* `Objective`: the four makes of objectives.
* `Objective.value`, `Objective.both`: the two ways to ask; every call of a callable is noted before
  it is made.
* `Objective.measure`, `Objective.measureBoth`: the same with every answer read and its shape
  checked.
-/

namespace VariableMetric

/-- How the answers of callables, values of type `ν`, are read. -/
class Reading (ν : Type) (α : outParam Type) where
  /-- One number, whatever the axes around it. -/
  scalar : ν → Except Fault α
  /-- Numbers in a shape. -/
  array : ν → Except Fault (NdArray α)
  /-- Two values. -/
  unpack : ν → Except Fault (ν × ν)

/-- A callable: its answer at a point, which may have any shape. -/
abbrev Callable (α ν : Type) := NdArray α → Except Fault ν

/-- A callable whose computation is recorded, from the cells of a point. -/
abbrev Recording (α : Type) := (x : NdArray α) → Except Fault (Recorded α x.shape.cells)

/-- **An objective.** -/
inductive Objective (α ν : Type) where
  /-- Value and gradient have a callable each. -/
  | apart (f g : Callable α ν)
  /-- One callable gives value and gradient; another may give the value alone. -/
  | joint (fg : Callable α ν) (f : Option (Callable α ν))
  /-- The same, but the answers are handed over as they are. -/
  | custom (fg : Callable α ν) (f : Option (Callable α ν))
  /-- The gradient is swept out of a recorded computation. -/
  | tracked (record : Recording α) (p : Precision α)

/-- The callables of a run, by what they are called for. -/
inductive Call where
  /-- The value alone. -/
  | value
  /-- The gradient alone. -/
  | gradient
  /-- Value and gradient. -/
  | joint
  /-- Whether to stop. -/
  | poll
  /-- The value of a computation that need not be recorded. -/
  | untracked
  /-- The value of a computation that is recorded. -/
  | tracked
  deriving DecidableEq, Repr

/-- An answer read as `β`, or still a `γ` as the caller gave it. -/
inductive Handed (β γ : Type) where
  | read (b : β)
  | raw (c : γ)

/-- An array as a gradient at a point of dimension `n`. -/
def asGradient {α : Type} (n : Nat) (a : NdArray α) : Except Fault (Vec α n) :=
  match a.toVec? n with
  | some g => .ok g
  | none => .error (.gradientShape a.shape n)

namespace Handed

variable {α ν : Type} [Reading ν α]

/-- The answer as a number. -/
def toScalar : Handed α ν → Except Fault α
  | .read a => .ok a
  | .raw v => Reading.scalar v

/-- The answer as value and gradient. Of an answer as it was given the gradient is read first. -/
def toJet (n : Nat) : Handed (α × NdArray α) (ν × ν) → Except Fault (α × Vec α n)
  | .read (a, g) => do return (a, ← asGradient n g)
  | .raw (v, w) => do
    let g ← asGradient n (← Reading.array w)
    return (← Reading.scalar v, g)

end Handed

/-- The recorded computation of one tracked number. -/
def Recorded.toScalar {α : Type} {n : Nat} (r : Recorded α n) : Except Fault (Graph α n) :=
  if r.graph.isNumber then .error (.notTensor "float")
  else if r.shape.cells = 1 then .ok r.graph
  else .error (.notScalarTensor r.shape)

namespace Objective

variable {α ν σ : Type} {n : Nat}

/-- Call a callable, noting it first. -/
def invoke {β : Type} (note : Call → Talk σ Unit) (c : Call) (answer : Except Fault β) :
    Talk σ β := do
  note c
  Talk.ofExcept answer

/-- Value and gradient from one callable, as they were given. -/
def invokeJoint [Reading ν α] (note : Call → Talk σ Unit) (fg : Callable α ν) (x : NdArray α) :
    Talk σ (ν × ν) := do
  let v ← invoke note .joint (fg x)
  Talk.ofExcept (Reading.unpack v)

/-- Value and gradient from one callable, the value read first. -/
def readJoint [Reading ν α] (note : Call → Talk σ Unit) (fg : Callable α ν) (x : NdArray α) :
    Talk σ (α × NdArray α) := do
  let (v, w) ← invokeJoint note fg x
  let a ← Talk.ofExcept (Reading.scalar v)
  let g ← Talk.ofExcept (Reading.array w)
  return (a, g)

/-- The recorded computation at a point, which is rounded first. -/
def recordAt (note : Call → Talk σ Unit) (c : Call) (record : Recording α) (p : Precision α)
    (x : NdArray α) : Talk σ (Graph α x.shape.cells) := do
  let r ← invoke note c (record (x.map p.round))
  Talk.ofExcept r.toScalar

/-- **The value at a point.** -/
def value [Reading ν α] (note : Call → Talk σ Unit) (x : NdArray α) :
    Objective α ν → Talk σ (Handed α ν)
  | .apart f _ | .joint _ (some f) => do
    let v ← invoke note .value (f x)
    return .read (← Talk.ofExcept (Reading.scalar v))
  | .joint fg none => do return .read (← readJoint note fg x).1
  | .custom _ (some f) => do return .raw (← invoke note .value (f x))
  | .custom fg none => do return .raw (← invokeJoint note fg x).1
  | .tracked record p => do return .read (← recordAt note .untracked record p x).value

/-- **Value and gradient at a point.** A caller's gradient may have any shape; that of a recorded
computation has the shape of the point. -/
def both [Elementary α] [Reading ν α] (note : Call → Talk σ Unit) (x : NdArray α) :
    Objective α ν → Talk σ (Handed (α × NdArray α) (ν × ν))
  | .apart f g => do
    let v ← invoke note .value (f x)
    let a ← Talk.ofExcept (Reading.scalar v)
    let w ← invoke note .gradient (g x)
    return .read (a, ← Talk.ofExcept (Reading.array w))
  | .joint fg _ => do return .read (← readJoint note fg x)
  | .custom fg _ => do return .raw (← invokeJoint note fg x)
  | .tracked record p => do
    let graph ← recordAt note .tracked record p x
    if p.arrayForm then return .read (graph.value, ⟨x.shape, graph.gradient p⟩)
    else throw (.noArrayForm p.name)

/-- The value at a point as a number. -/
def measure [Reading ν α] (note : Call → Talk σ Unit) (x : Vec α n) (o : Objective α ν) :
    Talk σ α := do
  let answer ← o.value note (.ofVec x)
  Talk.ofExcept answer.toScalar

/-- Value and gradient at a point, the gradient as a vector of the same dimension. -/
def measureBoth [Elementary α] [Reading ν α] (note : Call → Talk σ Unit) (x : Vec α n)
    (o : Objective α ν) : Talk σ (α × Vec α n) := do
  let answer ← o.both note (.ofVec x)
  Talk.ofExcept (answer.toJet n)

end Objective

end VariableMetric
