import VariableMetric.Algebra.Vec

/-!
# Positive definite matrices

A symmetric matrix is positive definite when all its eigenvalues are above zero. How eigenvalues are
found is left open: a method depends on its arithmetic.

* `Spectrum`: what finds the eigenvalues of symmetric matrices.
* `mirrorLower`: the symmetric matrix of a lower triangle.
-/

namespace VariableMetric

/-- **What finds eigenvalues** over an arithmetic. Nothing is assumed of them here; theorems choose
an instance, or state the laws that they need. -/
class Spectrum (α : Type) where
  /-- The eigenvalues of a symmetric matrix in ascending order, or `none` when they are not found.
  Of the matrix only the lower triangle counts. -/
  eigenvalues? {n : Nat} (a : Mat α n n) : Option (Vec α n)

/-- The symmetric matrix that has the same entries on and below the diagonal. -/
def mirrorLower {α : Type} [Scalar α] {n : Nat} (a : Mat α n n) : Mat α n n :=
  Mat.ofFn fun i j => if j ≤ i then a.entry i j else a.entry j i

end VariableMetric
