import VariableMetric.Algebra.Vec

/-!
# Linear systems

How linear systems are solved is left open: a method depends on its arithmetic. What is common to
all of them is the fallback that adds a small multiple of the identity to a singular matrix.

* `Solver`: what solves linear systems.
* `solve?`: the solution of one system, or `none` when its matrix is singular.
* `solveRidged`: `solve?`, and on failure `solve?` once more on the matrix plus a ridge.
-/

namespace VariableMetric

/-- **What solves linear systems** over an arithmetic. Nothing is assumed of the solutions here;
theorems choose an instance, or state the laws that they need. -/
class Solver (α : Type) where
  /-- The solutions of `a x = b` for several right-hand sides `b`, or `none` when `a` is singular,
  even if there is no right-hand side. -/
  solveAll? {n c : Nat} (a : Mat α n n) (sides : Vector (Vec α n) c) : Option (Vector (Vec α n) c)

variable {α : Type} {n : Nat}

/-- The solution of `a x = b`, or `none` when `a` is singular. -/
def solve? [Solver α] (a : Mat α n n) (b : Vec α n) : Option (Vec α n) :=
  (Solver.solveAll? a #v[b]).map (·.get lead)

/-- The matrix plus `reg` times the identity. -/
def addRidge [Scalar α] (a : Mat α n n) (reg : α) : Mat α n n :=
  Mat.ofFn fun i j => a.entry i j + reg * (if i = j then 1 else 0)

/-- What came of a system: whether the ridge was needed, and the solution if there is one. -/
structure Solved (β : Type) where
  /-- The matrix itself had no solution, so the ridge was added. -/
  ridged : Bool
  /-- The solution, `none` if the matrix with its ridge was singular too. -/
  solution : Option β

/-- **Ridge fallback.** Solve the system; if the matrix is singular, solve it once more with
`reg` added on the diagonal. -/
def solveRidged [Scalar α] [Solver α] (a : Mat α n n) (b : Vec α n) (reg : α) : Solved (Vec α n) :=
  match solve? a b with
  | some x => ⟨false, some x⟩
  | none => ⟨true, solve? (addRidge a reg) b⟩

end VariableMetric
