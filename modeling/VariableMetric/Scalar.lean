/-!
# The arithmetic of a run

Everything numerical in the library is written over a `Scalar`: the same text runs on doubles and is
reasoned about over the reals, or over the reals extended by infinities and an incomparable value.

* `Scalar`: the field operations, absolute value, and two *Boolean* comparisons. An incomparable
  value answers `false` to every comparison, so `!lt a b` is weaker than `le b a`.
* `Elementary`: the same with the elementary functions.
* `Reliance`: how far the arithmetic can be relied on.
* `Scalar.larger`: the larger of two values, incomparable as soon as one of them is.
* `Scalar.total`: terms added from the left.
-/

namespace VariableMetric

/-- **The arithmetic of a run.** Nothing is assumed of the operations here; theorems choose an
instance, or state the laws that they need. -/
class Scalar (α : Type) extends Zero α, One α, Add α, Sub α, Mul α, Div α, Neg α where
  /-- Absolute value. -/
  abs : α → α
  /-- Strictly below. -/
  lt : α → α → Bool
  /-- Below or equal. -/
  le : α → α → Bool
  /-- Neither infinite nor incomparable. -/
  isFinite : α → Bool

namespace Scalar

variable {α : Type} [Scalar α]

/-- Equal to zero of either sign; false of an incomparable value. -/
def isZero (a : α) : Bool := le a 0 && le 0 a

/-- The larger of two values. Where the two cannot be compared the sum stands in, which is
incomparable again. -/
def larger (a b : α) : α :=
  if lt a b then b else if le b a then a else a + b

/-- Terms added from the left, starting at zero. A lone term is returned as it is, so that it keeps
the sign of a zero. -/
def total : List α → α
  | [a] => a
  | as => as.foldl (· + ·) 0

end Scalar

/-- Doubles, with comparisons that are false as soon as a NaN takes part. -/
instance : Scalar Float where
  zero := 0.0
  one := 1.0
  abs := Float.abs
  lt := Float.lt
  le := Float.le
  isFinite := Float.isFinite

/-- Arithmetic with the elementary functions. -/
class Elementary (α : Type) extends Scalar α where
  sqrt : α → α
  exp : α → α
  log : α → α
  sin : α → α
  cos : α → α
  tanh : α → α
  sinh : α → α
  cosh : α → α
  /-- A count as a number. -/
  ofNat : Nat → α

instance : Elementary Float where
  sqrt := Float.sqrt
  exp := Float.exp
  log := Float.log
  sin := Float.sin
  cos := Float.cos
  tanh := Float.tanh
  sinh := Float.sinh
  cosh := Float.cosh
  ofNat := Float.ofNat

/-- How far an arithmetic can be relied on. In exact arithmetic both numbers are zero. -/
structure Reliance (α : Type) where
  /-- The rounding error of one. -/
  unit : α
  /-- The smallest number that has no larger rounding error in proportion. -/
  least : α

end VariableMetric
