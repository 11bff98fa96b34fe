import VariableMetric.Algebra.Definite
import VariableMetric.Algebra.LinearSystem
import VariableMetric.Algebra.Secant
import VariableMetric.Algebra.Stack
import VariableMetric.Datum.Operand

/-!
# Linear algebra on arrays of any shape

The operations of a run on arrays as a caller hands them over: the shapes are checked, arrays are
read as stacks of matrices, and stretched where two of them can be brought to one shape.

* `NdArray.solve`: linear systems with one right-hand side or several.
* `NdArray.solveRidged`: the same with a ridge for matrices that cannot be solved.
* `NdArray.eigenvalues`, `NdArray.isPosDef`: the eigenvalues of symmetric matrices, and the test for
  positive definite ones.
* `productShape`, `dotShape`: the shapes of products.
* `NdArray.secantUpdate`: the secant update.
-/

namespace VariableMetric

namespace NdArray

section Systems

variable {α : Type} [Scalar α] {n : Nat}

/-- The systems of two stacks, place by place; a singular matrix spoils them all. -/
def solveStack [Solver α] {c : Nat} (a : Stack α n n) (b : Stack α n c) :
    Except Fault (Stack α n c) :=
  match broadcastShape? a.loop b.loop with
  | none => .error (.stacksApart (a.loop ++ [n, n]) (b.loop ++ [n, c]) n c)
  | some loop =>
    let systems := (a.stretch loop).items.zip (b.stretch loop).items
    match systems.mapM fun s => Solver.solveAll? s.1 s.2.transpose with
    | some items => .ok ⟨loop, items.map Mat.transpose⟩
    | none => .error .singular

/-- The systems of a stack of square matrices. The right-hand side is a vector for all of them, or a
stack of matrices of columns. -/
def solveSquare [Solver α] (a : Stack α n n) (b : NdArray α) : Except Fault (NdArray α) :=
  match b.shape with
  | [] => .error .systemAxes
  | [k] =>
    if k = n then do
      let x ← solveStack a (b.toStack [] n 1)
      return .ofList (x.loop ++ [n]) x.entries
    else .error (.systemLengths k n)
  | shape => match shape.split? with
    | none => .error .systemAxes
    | some (loop, k, c) =>
      if k = n then do return (← solveStack a (b.toStack loop n c)).toArray
      else .error (.systemRows k n)

/-- **Linear systems.** The matrices have to be square. -/
def solve [Solver α] (a b : NdArray α) : Except Fault (NdArray α) :=
  match a.shape.split? with
  | none => .error (.tooFewAxes a.shape.length)
  | some (loop, m, n) => if m = n then solveSquare (a.toStack loop n n) b else .error .notSquare

/-- The identity matrix as an array, multiplied by factors. -/
def ridge (n : Nat) (reg : NdArray α) : Except Fault (NdArray α) :=
  match zipWith? (· * ·) reg (ofMat (Mat.identity n)) with
  | some r => .ok r
  | none => .error (.shapesApart reg.shape [n, n])

/-- What came of a system that may need a ridge. -/
structure Attempt (α : Type) where
  /-- The ridge was added. -/
  ridged : Bool
  outcome : Except Fault (NdArray α)

/-- **Ridge fallback on arrays.** Whatever keeps the matrix from being solved as it is, the ridge is
added and the sum solved once more. What is wrong with `reg` shows only then. -/
def solveRidged [Solver α] (a b : NdArray α) (reg : Except Fault (NdArray α)) : Attempt α :=
  match solve a b with
  | .ok x => ⟨false, .ok x⟩
  | .error e => if e.kind = .linearAlgebra then ⟨true, retried⟩ else ⟨false, .error e⟩
where
  /-- The system with the ridge. -/
  retried : Except Fault (NdArray α) :=
    match a.shape with
    | [] => .error .noAxis
    | n :: _ => do
      let r ← ridge n (← reg)
      match zipWith? (· + ·) a r with
      | none => .error (.shapesApart a.shape r.shape)
      | some c => solve c b

end Systems

section Eigenvalues

variable {α : Type} [Scalar α]

/-- The eigenvalues of a stack of symmetric matrices. The matrices have to be square. -/
def eigenvalues [Spectrum α] (a : NdArray α) : Except Fault (NdArray α) :=
  match a.shape.split? with
  | none => .error (.tooFewAxes a.shape.length)
  | some (loop, m, n) =>
    if m ≠ n then .error .notSquare
    else match (a.toStack loop n n).items.mapM Spectrum.eigenvalues? with
      | some roots => .ok (.ofList (loop ++ [n]) (roots.toList.flatMap Vector.toList))
      | none => .error .eigenvaluesUnsettled

/-- All numbers of an array pass the tests that come to stand beside them. -/
def passes (a : NdArray α) (tests : Bound α) : Except Fault Bool :=
  match broadcastShape? a.shape tests.shape with
  | none => .error (.shapesApart a.shape tests.shape)
  | some shape => do
    let tests := (tests.stretchWith (fun _ => .ok true) shape).entries.toList
    let outcomes ← (tests.zip (a.stretch shape).entries.toList).mapM fun (test, x) => test x
    return outcomes.all id

/-- **The test for positive definite matrices** on an array, whose mean with its transpose counts:
all eigenvalues have to pass the tests of `bound`. -/
def isPosDef [Spectrum α] (a : NdArray α) (bound : Except Fault (Bound α)) : Except Fault Bool :=
  match zipWith? (fun u v => (u + v) / (1 + 1)) a a.transpose with
  | none => .error (.shapesApart a.shape a.shape.reverse)
  | some mean => do
    let roots ← mean.eigenvalues
    roots.passes (← bound)

end Eigenvalues

end NdArray

/-- The shape of a matrix product: the last axis of the first factor meets the last but one of the
second, or its only one. -/
def productShape (a b : Shape) : Except Fault Shape :=
  match a.reverse, b.reverse with
  | [], _ => .error .productFirstAxes
  | _, [] => .error .productAxes
  | [k], [l] => if l = k then .ok [] else .error (.productLengths l k)
  | k :: rest, [l] => if l = k then .ok rest.reverse else .error (.productLengths l k)
  | [k], m :: l :: loop => if l = k then .ok (loop.reverse ++ [m]) else .error (.productLengths l k)
  | k :: n :: loop, m :: l :: loop' =>
    if l = k then
      match broadcastShape? loop.reverse loop'.reverse with
      | some common => .ok (common ++ [n, m])
      | none => .error (.stacksApart a b n m)
    else .error (.productLengths l k)

/-- The shape of a product in which a number multiplies every entry, and otherwise the last axis of
the first factor meets the last but one of the second, or its only one. -/
def dotShape (a b : Shape) : Except Fault Shape :=
  match a.reverse, b.reverse with
  | [], _ => .ok b
  | _, [] => .ok a
  | k :: rest, [l] => if k = l then .ok rest.reverse else .error (.dotShapes a b)
  | k :: rest, m :: l :: loop =>
    if k = l then .ok (rest.reverse ++ loop.reverse ++ [m]) else .error (.dotShapes a b)

/-- A shape without axes, as that of a number is. -/
def checkNumberShape (s : Shape) : Except Fault Unit :=
  if s.isEmpty then .ok () else .error .arrayAsScalar

namespace NdArray

/-- What came of a secant update on arrays. -/
structure Update where
  matrix : NdArray Float
  /-- The correction was made. -/
  applied : Bool
  /-- Gradient change times step. -/
  along : Float
  /-- Step times its image. -/
  model : Float

/-- **The secant update** on arrays. The products must come to numbers, which they do for a square
matrix and two vectors only. The threshold is a value as the caller gave it. -/
def secantUpdate (h dx y : NdArray Float) (tol : Datum) : Except Fault Update := do
  let image ← productShape h.shape dx.shape
  checkNumberShape (← dotShape y.shape dx.shape)
  checkNumberShape (← dotShape dx.shape image)
  let n := dx.shape.cells
  match h.toMat? n n, dx.toVec? n, y.toVec? n with
  | some m, some u, some v => match tol.number? with
    | some t =>
      let updated := VariableMetric.secantUpdate m u v t.floor
      return ⟨ofMat updated.matrix, updated.applied, updated.curvature.along,
        updated.curvature.model⟩
    | none => throw (.unorderable .above (.float (Curvature.of m u v).along) tol)
  | _, _, _ => throw .arrayAsScalar

end NdArray

end VariableMetric
