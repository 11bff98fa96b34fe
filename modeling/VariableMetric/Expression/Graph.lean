import VariableMetric.Algebra.NdArray
import VariableMetric.Expression.Basic

/-!
# Recorded computations and their gradients

An expression is evaluated once while every step is recorded; the gradient is then swept back from
the value to the coordinates. Every step is rounded to the precision of the computation.

* `Precision`: the rounding of every step.
* `Graph`: a recorded computation, each node with its value.
* `Graph.takesGradient`: a gradient can be passed back to something that enters the computation.
* `Graph.sweep`: the gradient of a recorded computation, added to what has been collected.
* `Recorded.view`: a point whose coordinates are recorded.
* `Expr.trace`: an expression recorded at a point, with the shape of its value.
-/

namespace VariableMetric

/-- The precision of a recorded computation. -/
structure Precision (α : Type) where
  /-- The name that messages use. -/
  name : String
  /-- The rounding of every recorded value. -/
  round : α → α
  /-- The rounding of plain numbers that meet recorded values. -/
  number : α → α
  /-- Gradients can be handed out as arrays. -/
  arrayForm : Bool

/-- A recorded computation from the coordinates of a point. -/
inductive Graph (α : Type) (n : Nat) where
  /-- A plain number, which is not tracked at all. -/
  | number (v : α)
  /-- A tracked value that no gradient is passed back to. -/
  | fixed (v : α)
  /-- A tracked value that takes a gradient, though not for the point. -/
  | leaf (v : α)
  /-- A coordinate. -/
  | coordinate (i : Fin n) (v : α)
  | unary (op : UnaryOp) (v : α) (a : Graph α n)
  | binary (op : BinaryOp) (v : α) (a b : Graph α n)
  /-- A power by repeated products: the partial products, the last one first. -/
  | power (v : α) (partials : List α) (a : Graph α n)

namespace Graph

variable {α : Type} {n : Nat}

/-- The value of a recorded computation. -/
def value : Graph α n → α
  | number v | fixed v | leaf v | coordinate _ v => v
  | unary _ v _ | binary _ v _ _ | power v _ _ => v

/-- The computation is a plain number. -/
def isNumber : Graph α n → Bool
  | number _ => true
  | _ => false

/-- Something that takes a gradient enters the computation. -/
def takesGradient : Graph α n → Bool
  | number _ | fixed _ => false
  | leaf _ | coordinate _ _ => true
  | unary _ _ a | power _ _ a => a.takesGradient
  | binary _ _ a b => a.takesGradient || b.takesGradient

/-- What the sweep has collected for the coordinates; nothing as long as none was reached. -/
abbrev Collected (α : Type) (n : Nat) := Option (Vec α n)

variable [Elementary α] (p : Precision α)

/-- The value as a factor: plain numbers in the precision in which they meet recorded values. -/
def factor : Graph α n → α
  | number v => p.number v
  | g => g.value

/-- The value as a term: plain numbers are rounded as recorded values are. -/
def term : Graph α n → α
  | number v => p.round v
  | g => g.value

/-- The value as an operand of a two-place step. -/
def operand (op : BinaryOp) : Graph α n → α :=
  match op with
  | .add | .sub => term p
  | .mul | .div => factor p

/-- A one-place step. A plain number stays one. -/
def applyUnary (op : UnaryOp) : Graph α n → Graph α n
  | number v => number (op.apply v)
  | a => unary op (p.round (op.apply a.value)) a

/-- A two-place step. Two plain numbers give one; a plain number over a recorded value is the number
times the reciprocal. -/
def applyBinary (op : BinaryOp) (a b : Graph α n) : Graph α n :=
  match op, a, b with
  | op, number u, number v => number (op.apply u v)
  | .div, number u, b =>
    let inverse := b.applyUnary p .reciprocal
    binary .mul (p.round (inverse.value * p.number u)) inverse (number u)
  | op, a, b => binary op (p.round (op.apply (a.operand p op) (b.operand p op))) a b

/-- A power by repeated products. -/
def applyPower (a : Graph α n) (k : Nat) : Graph α n :=
  match a with
  | number v => number (powerOf v k)
  | a =>
    let step : List α → α → List α := fun done v => match done with
      | w :: rest => p.round (w * v) :: w :: rest
      | [] => [v]
    let partials := (List.replicate k a.value).foldl step []
    match partials with
    | v :: _ :: _ => power v partials a
    | _ => a

/-- A share of one coordinate, added to what has been collected. -/
def collect (acc : Collected α n) (i : Fin n) (share : α) : Collected α n :=
  let alone : Vec α n := Vector.ofFn fun j => if j = i then share else 0
  match acc with
  | none => some alone
  | some v => some (Vector.zipWith (fun a b => p.round (a + b)) v alone)

/-- The sign of a number, zero for zero. -/
def sign (u : α) : α := if Scalar.lt 0 u then 1 else if Scalar.lt u 0 then -1 else 0

/-- What a one-place step passes back: `g` came in, `u` is the operand and `v` the value. -/
def passUnary (op : UnaryOp) (g u v : α) : α :=
  match op with
  | .neg => -g
  | .abs => p.round (g * sign u)
  | .sqrt => p.round (g / p.round ((1 + 1) * v))
  | .exp => p.round (g * v)
  | .log => p.round (g / u)
  | .sin => p.round (g * p.round (Elementary.cos u))
  | .cos => p.round (g * -p.round (Elementary.sin u))
  | .tanh => p.round (g * (1 - v * v))
  | .sinh => p.round (g * p.round (Elementary.cosh u))
  | .cosh => p.round (g * p.round (Elementary.sinh u))
  | .reciprocal => p.round (-g * p.round (v * v))

/-- What a two-place step passes back to its first operand. -/
def passFirst (op : BinaryOp) (g v : α) : α :=
  match op with
  | .add | .sub => g
  | .mul => p.round (g * v)
  | .div => p.round (g / v)

/-- What a two-place step passes back to its second operand. -/
def passSecond (op : BinaryOp) (g u v : α) : α :=
  match op with
  | .add => g
  | .sub => -g
  | .mul => p.round (g * u)
  | .div => p.round (-g * p.round (p.round (u / v) / v))

/-- What a power passes back to its base, given the partial products below the last: every product
passes the base's share on to what stands before it. -/
def passPower (base : α) : (g : α) → (below : List α) → (acc : Option α) → Option α
  | _, [], acc => acc
  | g, [w], acc =>
    let acc := add acc (p.round (g * base))
    add acc (p.round (g * w))
  | g, w :: below, acc =>
    passPower base (p.round (g * base)) below (add acc (p.round (g * w)))
where
  /-- A share added to those collected before. -/
  add (acc : Option α) (share : α) : Option α :=
    match acc with
    | none => some share
    | some a => some (p.round (a + share))

/-- **The sweep**: `g` comes in at the value, and every coordinate reached collects its share. The
operands that were recorded last are swept first. -/
def sweep : Graph α n → (g : α) → Collected α n → Collected α n
  | number _, _, acc | fixed _, _, acc | leaf _, _, acc => acc
  | coordinate i _, g, acc => collect p acc i g
  | unary op v a, g, acc => sweep a (passUnary p op g a.value v) acc
  | binary op _ a b, g, acc =>
    let acc := sweep b (passSecond p op g (a.factor p) (b.factor p)) acc
    sweep a (passFirst p op g (b.factor p)) acc
  | power _ partials a, g, acc =>
    match passPower p a.value g (partials.drop 1) none with
    | some share => sweep a share acc
    | none => acc

/-- **The gradient of a recorded computation.** It is swept only if something takes it, and is zero
where no coordinate was reached. -/
def gradient (a : Graph α n) : Vec α n :=
  let swept := if a.takesGradient then a.sweep p 1 none else none
  swept.getD (Vector.ofFn fun _ => 0)

end Graph

/-- A recorded computation and the shape of its value. For a shape of more than one cell the
computation stands for one cell only: no such value has a use. -/
structure Recorded (α : Type) (n : Nat) where
  shape : Shape
  graph : Graph α n

namespace Recorded

variable {α : Type} {n : Nat} [Elementary α] (p : Precision α)

/-- The common extents of two values, the last axis first; `axis` is the place of that axis. -/
def commonShape (axis : Nat) : (a b : List Nat) → Except Fault (List Nat)
  | [], bs => .ok bs
  | as, [] => .ok as
  | a :: as, b :: bs => do
    let some c := broadcastExtent? a b | throw (.tensorSizes a b axis)
    return c :: (← commonShape (axis - 1) as bs)

/-- A two-place step. -/
def binary (op : BinaryOp) (a b : Recorded α n) : Except Fault (Recorded α n) := do
  let axes := max a.shape.length b.shape.length
  let shape ← commonShape (axes - 1) a.shape.reverse b.shape.reverse
  return ⟨shape.reverse, a.graph.applyBinary p op b.graph⟩

/-- The value as a plain number, for a choice to be based on. -/
def toNumber (a : Recorded α n) : Except Fault α :=
  if a.shape.cells = 1 then .ok a.graph.value else .error .tensorAsNumber

/-- The cell of a place among those of a point; a point without cells has none to offer. -/
def cell (x : Vec α n) (k : Nat) : Graph α n :=
  if h : k < n then .coordinate ⟨k, h⟩ (x.get ⟨k, h⟩) else .fixed 0

/-- A recorded point: its rows, each with the shape that one axis less leaves. -/
def view : (x : NdArray α) → View (Recorded α x.shape.cells)
  | ⟨[], _⟩ => ⟨.error (.axislessCounted .tensor), fun _ => .error (.axislessIndexed .tensor)⟩
  | ⟨m :: rest, x⟩ => ⟨.ok m, fun k =>
    if k < m then .ok ⟨rest, cell x (k * Shape.cells rest)⟩
    else .error (.tensorCoordinateMissing k m)⟩

/-- Values along a new axis: tracked values of one shape. -/
def stack (items : List (Recorded α n)) : Except Fault (Recorded α n) :=
  match items.findIdx? (·.graph.isNumber) with
  | some i => .error (.stackedNumber i)
  | none =>
    match items with
    | [] => .error (.raised .runtime "stack expects a non-empty TensorList")
    | a :: rest =>
      match rest.findIdx? (·.shape != a.shape) with
      | some i => .error (.stackedShapes a.shape (i + 1) ((rest[i]?.map (·.shape)).getD []))
      | none => .ok ⟨items.length :: a.shape, a.graph⟩

end Recorded

namespace Expr

variable {α : Type} [Elementary α] {n : Nat} (p : Precision α)

mutual

/-- **An expression recorded at a point.** -/
def trace (x : View (Recorded α n)) (loop : Option Nat) : Expr α → Except Fault (Recorded α n)
  | number c => .ok ⟨[], .number c⟩
  | coordinate k => x.entry k
  | dimension => do return ⟨[], .number (Elementary.ofNat (← x.size))⟩
  | entry => do x.entry (← loopIndex loop)
  | position => do return ⟨[], .number (Elementary.ofNat (← loopIndex loop))⟩
  | unary op a => do
    let u ← trace x loop a
    return ⟨u.shape, u.graph.applyUnary p op⟩
  | binary op a b => do
    let u ← trace x loop a
    let v ← trace x loop b
    Recorded.binary p op u v
  | power a k => do
    let u ← trace x loop a
    return ⟨u.shape, u.graph.applyPower p k⟩
  | choose cmp a b yes no => do
    let u ← (← trace x loop a).toNumber
    let v ← (← trace x loop b).toNumber
    if cmp.holds u v then trace x loop yes else trace x loop no
  | sum e => do
    (List.range (← x.size)).foldlM (fun s i => do Recorded.binary p .add s (← trace x (some i) e))
      ⟨[], .number 0⟩
  | raise kind text => .error (.raised kind text)
  | constant v => .ok ⟨[], .fixed (p.round v)⟩
  | leaf v => .ok ⟨[], .leaf (p.round ((1 + 1) * p.round v))⟩
  | detach a => do
    let u ← trace x loop a
    if u.graph.isNumber then throw (.noAttribute "float" "detach")
    return ⟨u.shape, .fixed u.graph.value⟩
  | stack items => do Recorded.stack (← traceAll x loop items)

/-- Several expressions recorded at a point. -/
def traceAll (x : View (Recorded α n)) (loop : Option Nat) :
    List (Expr α) → Except Fault (List (Recorded α n))
  | [] => .ok []
  | e :: es => do return (← trace x loop e) :: (← traceAll x loop es)

end

end Expr

end VariableMetric
