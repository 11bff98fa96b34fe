import VariableMetric.Algebra.Vec

/-!
# The secant update

The curvature matrix `H` is corrected by two rank-one terms so that it maps the last step to the
last change of the gradient. The correction is left out when one of its denominators is not above a
threshold, which also covers denominators that cannot be compared.

* `Curvature.of`: the two denominators of a step.
* `secantUpdate`: the corrected matrix, or the matrix itself when the correction is left out.
-/

namespace VariableMetric

variable {α : Type} [Scalar α] {n : Nat}

/-- The two denominators of a secant update, with the image of the step that they share. -/
structure Curvature (α : Type) (n : Nat) where
  /-- The matrix applied to the step. -/
  image : Vec α n
  /-- Gradient change times step. -/
  along : α
  /-- Step times image. -/
  model : α

/-- The denominators for matrix `h`, step `dx` and gradient change `y`. -/
def Curvature.of (h : Mat α n n) (dx y : Vec α n) : Curvature α n :=
  let image := h.mulVec dx
  ⟨image, dot y dx, dot dx image⟩

/-- Both denominators are above the threshold. -/
def Curvature.usable (c : Curvature α n) (tol : α) : Bool :=
  Scalar.lt tol c.along && Scalar.lt tol c.model

/-- The matrix with both rank-one terms. -/
def Curvature.correct (c : Curvature α n) (h : Mat α n n) (y : Vec α n) : Mat α n n :=
  Mat.ofFn fun i j =>
    h.entry i j + y.get i * y.get j / c.along - c.image.get i * c.image.get j / c.model

/-- The outcome of a secant update. -/
structure Updated (α : Type) (n : Nat) where
  /-- The matrix to go on with. -/
  matrix : Mat α n n
  /-- The correction was made. -/
  applied : Bool
  /-- The denominators it was decided on. -/
  curvature : Curvature α n

/-- **The secant update** of `h` for step `dx` and gradient change `y`. -/
def secantUpdate (h : Mat α n n) (dx y : Vec α n) (tol : α) : Updated α n :=
  let c := Curvature.of h dx y
  if c.usable tol then ⟨c.correct h y, true, c⟩ else ⟨h, false, c⟩

end VariableMetric
