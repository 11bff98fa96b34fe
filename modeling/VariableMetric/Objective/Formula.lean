import VariableMetric.Datum.Reader
import VariableMetric.Expression.Precision
import VariableMetric.Objective.Basic

/-!
# Objectives from formulas

Formulas say what a callable answers at a point; objectives are made from them, and from arguments
that should have been callables and are not.

* `Formula.answer`: the answer of a formula at a point.
* `Expr.converting`: an expression with a value in it that has to be a number.
* `Argument`: a callable, or what was passed in its place.
* `Objective.ofApart`, `Objective.ofJoint`, `Objective.ofTracked`: the objectives that check their
  arguments.
* `Subject.toObjective`: what a run accepts as its objective.
-/

namespace VariableMetric

instance : Reading Datum Float where
  scalar := Datum.scalar
  array := Datum.toArray
  unpack := Datum.unpack

/-- What a callable answers, as a function of the point. -/
inductive Formula where
  /-- A number. -/
  | number (e : Expr Float)
  /-- An array with one axis. -/
  | vector (entries : List (Expr Float))
  /-- An array with two axes. -/
  | matrix (rows : List (List (Expr Float)))
  /-- An array with an entry for each coordinate. -/
  | each (e : Expr Float)
  /-- A pair, as value and gradient are. -/
  | pair (first second : Formula)
  /-- The same value at every point. -/
  | literal (d : Datum)

namespace Formula

/-- The numbers of several expressions, as a list. -/
def row (x : View Float) (es : List (Expr Float)) : Except Fault Datum := do
  return .list (← es.mapM fun e => do return .float (← e.eval x none))

/-- **The answer at a point.** -/
def answer (x : View Float) : Formula → Except Fault Datum
  | .number e => do return .float (← e.eval x none)
  | .vector es => do return .array (← (← row x es).toArray)
  | .matrix rows => do return .array (← (Datum.list (← rows.mapM (row x))).toArray)
  | .each e => do
    let entries ← (List.range (← x.size)).mapM fun i => do
      return Datum.float (← e.eval x (some i))
    return .array (← (Datum.list entries).toArray)
  | .pair a b => do return .tuple [← answer x a, ← answer x b]
  | .literal d => .ok d

/-- The callable that answers by a formula; `make` is what it is handed when there are no axes. -/
def callable (make : Axisless) (f : Formula) : Callable Float Datum :=
  fun x => f.answer (.ofArray make x)

end Formula

/-- The expression that goes on with the number that a value is converted to, and fails where it
stands if there is none. -/
def Expr.converting (d : Datum) (next : Float → Expr Float) : Expr Float :=
  match d.toFloat with
  | .ok x => next x
  | .error e => .raise e.kind e.message

/-- An expression recorded at a point. -/
def Expr.recording {α : Type} [Elementary α] (e : Expr α) (p : Precision α) : Recording α :=
  fun x => e.trace p (Recorded.view x) none

/-- A callable of type `F`, or what was passed in its place. -/
inductive Argument (F : Type) where
  | callable (f : F)
  | value (d : Datum)

namespace Argument

variable {F : Type}

/-- The callable of an argument that has to be one. -/
def get (role : String) : Argument F → Except Fault F
  | .callable f => .ok f
  | .value d => .error (.notCallable role d)

/-- The callable of an argument that may be left out. -/
def get? (role : String) : Argument F → Except Fault (Option F)
  | .value .nothing => .ok none
  | a => do return some (← a.get role)

end Argument

namespace Objective

variable {α ν : Type}

/-- An objective with a callable each for value and gradient. -/
def ofApart (f g : Argument (Callable α ν)) : Except Fault (Objective α ν) := do
  let f ← f.get "fun"
  let some g ← g.get? "grad" | throw .gradientMissing
  return .apart f g

/-- An objective with one callable for both, and perhaps another for the value alone. -/
def ofJoint (fg f : Argument (Callable α ν)) : Except Fault (Objective α ν) := do
  let fg ← fg.get "fun_and_grad"
  return .joint fg (← f.get? "fun")

/-- An objective that is recorded in the precision of a name. That the name stands for a format is
settled first, which format it is last. -/
def ofTracked (f : Argument (Precision Float → Recording Float)) (precision : String) :
    Except Fault (Objective Float ν) := do
  let some format := Precision.formatName? precision | throw (.unknownFormat precision)
  let record ← f.get "fun"
  let p ← Precision.ofFormat format
  return .tracked (record p) p

end Objective

/-- What a caller passes as an objective. -/
inductive Subject (α ν : Type) where
  | objective (o : Objective α ν)
  /-- A callable that gives value and gradient. -/
  | callable (fg : Callable α ν)
  | value (d : Datum)

/-- The objective that a caller means. -/
def Subject.toObjective {α ν : Type} : Subject α ν → Except Fault (Objective α ν)
  | .objective o => .ok o
  | .callable fg => .ok (.joint fg none)
  | .value d => .error (.notObjective d)

end VariableMetric
