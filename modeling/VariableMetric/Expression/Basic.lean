import VariableMetric.Algebra.Vec
import VariableMetric.Fault

/-!
# Expressions in the coordinates of a point

The language in which objectives are written down: constants, coordinates, arithmetic, elementary
functions, sums over the coordinates and choices between two branches.

* `Expr`: the language.
* `View`: what an expression can see of a point; `View.ofVec` and `View.ofArray` show points.
* `Expr.eval`: the value of an expression at a point.
-/

namespace VariableMetric

/-- Functions of one number. -/
inductive UnaryOp where
  | neg | abs | sqrt | exp | log | sin | cos | tanh | sinh | cosh
  /-- One over the number. -/
  | reciprocal
  deriving DecidableEq, Repr

/-- Functions of two numbers. -/
inductive BinaryOp where
  | add | sub | mul | div
  deriving DecidableEq, Repr

/-- Comparisons of two numbers. -/
inductive Comparison where
  | lt | le | eq
  deriving DecidableEq, Repr

/-- An expression in the coordinates of a point. -/
inductive Expr (α : Type) where
  | number (c : α)
  /-- The coordinate of an index. -/
  | coordinate (k : Nat)
  /-- How many coordinates there are. -/
  | dimension
  /-- The coordinate that the loop around is at. -/
  | entry
  /-- The index that the loop around is at. -/
  | position
  | unary (op : UnaryOp) (a : Expr α)
  | binary (op : BinaryOp) (a b : Expr α)
  /-- A product of `k` equal factors, from the left; `k` is at least one. -/
  | power (a : Expr α) (k : Nat)
  /-- One of two branches; the other is not looked at. -/
  | choose (cmp : Comparison) (a b yes no : Expr α)
  /-- The sum over all coordinates, starting at zero. -/
  | sum (e : Expr α)
  /-- A failure. -/
  | raise (kind : FaultKind) (text : String)
  /-- A number that takes part in tracking but has no derivative. -/
  | constant (v : α)
  /-- Twice a number, tracked on its own and independent of the point. -/
  | leaf (v : α)
  /-- The value of an expression, its derivative taken as zero. -/
  | detach (a : Expr α)
  /-- Expressions along a new axis. -/
  | stack (items : List (Expr α))

variable {α : Type}

section Scalar

variable [Scalar α]

/-- The function that a two-place operation stands for. -/
def BinaryOp.apply : BinaryOp → α → α → α
  | .add, a, b => a + b
  | .sub, a, b => a - b
  | .mul, a, b => a * b
  | .div, a, b => a / b

/-- The outcome of a comparison. -/
def Comparison.holds : Comparison → α → α → Bool
  | .lt, a, b => Scalar.lt a b
  | .le, a, b => Scalar.le a b
  | .eq, a, b => Scalar.le a b && Scalar.le b a

end Scalar

variable [Elementary α] {n : Nat}

/-- The function that a one-place operation stands for. -/
def UnaryOp.apply : UnaryOp → α → α
  | .neg, a => -a
  | .abs, a => Scalar.abs a
  | .sqrt, a => Elementary.sqrt a
  | .exp, a => Elementary.exp a
  | .log, a => Elementary.log a
  | .sin, a => Elementary.sin a
  | .cos, a => Elementary.cos a
  | .tanh, a => Elementary.tanh a
  | .sinh, a => Elementary.sinh a
  | .cosh, a => Elementary.cosh a
  | .reciprocal, a => 1 / a

/-- A product of `k` equal factors, from the left. -/
def powerOf (a : α) (k : Nat) : α :=
  (List.replicate (k - 1) a).foldl (· * ·) a

/-- What an expression can see of a point: how many coordinates there are, and each by its index. -/
structure View (β : Type) where
  size : Except Fault Nat
  entry : Nat → Except Fault β

/-- A coordinate of a vector by its index. -/
def coordinateOf (x : Vec α n) (k : Nat) : Except Fault α :=
  match x[k]? with
  | some a => .ok a
  | none => .error (.coordinateMissing k n)

/-- A vector as a point. -/
def View.ofVec (x : Vec α n) : View α := ⟨.ok n, coordinateOf x⟩

/-- An array as a point. Without axes it has no coordinates, and `make` tells what it is; with more
than one axis there are rows where numbers should be. -/
def View.ofArray (make : Axisless) (x : NdArray α) : View α :=
  match x.shape with
  | [] => ⟨.error (.axislessCounted make), fun _ => .error (.axislessIndexed make)⟩
  | [_] => .ofVec x.entries
  | m :: _ => ⟨.ok m, fun k => .error (if k < m then .arrayAsScalar else .coordinateMissing k m)⟩

/-- What the loop around is at. -/
def loopIndex (loop : Option Nat) : Except Fault Nat :=
  match loop with
  | some i => .ok i
  | none => .error .outsideLoop

namespace Expr

mutual

/-- **The value of an expression at a point**, operands from left to right. `loop` is where the loop
around it is at. -/
def eval (x : View α) (loop : Option Nat) : Expr α → Except Fault α
  | number c => .ok c
  | coordinate k => x.entry k
  | dimension => do return Elementary.ofNat (← x.size)
  | entry => do x.entry (← loopIndex loop)
  | position => do return Elementary.ofNat (← loopIndex loop)
  | unary op a => do return op.apply (← eval x loop a)
  | binary op a b => do
    let u ← eval x loop a
    let v ← eval x loop b
    return op.apply u v
  | power a k => do return powerOf (← eval x loop a) k
  | choose cmp a b yes no => do
    let u ← eval x loop a
    let v ← eval x loop b
    if cmp.holds u v then eval x loop yes else eval x loop no
  | sum e => do
    (List.range (← x.size)).foldlM (fun s i => do return s + (← eval x (some i) e)) 0
  | raise kind text => .error (.raised kind text)
  | constant v => .ok v
  | leaf v => .ok ((1 + 1) * v)
  | detach a => eval x loop a
  | stack items => do
    match ← evalAll x loop items with
    | [v] => return v
    | vs => throw (.notScalarTensor [vs.length])

/-- The values of several expressions. -/
def evalAll (x : View α) (loop : Option Nat) : List (Expr α) → Except Fault (List α)
  | [] => .ok []
  | e :: es => do return (← eval x loop e) :: (← evalAll x loop es)

end

end Expr

end VariableMetric
