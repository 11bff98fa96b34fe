import Mathlib.LinearAlgebra.Matrix.PosDef
import Mathlib.LinearAlgebra.Matrix.NonsingularInverse
import Mathlib.Data.Real.Basic
import VariableMetric.Algebra.LinearSystem
import VariableMetric.Algebra.Secant
import VariableMetric.Proofs.Comparison

/-!
# Exact arithmetic

The real numbers as the arithmetic of a run, and what the vectors and matrices of a run are over
them.

* `Mat.toMatrix`: a matrix of a run as a matrix of the algebra; `Vector.get` does this for vectors.
* `dot_eq`, `get_mulVec`, `toMatrix_correct`: inner products, images and secant corrections there.
* `ExactSolver`: the assumption on what solves linear systems. It finds the solution of every
  nonsingular system and refuses the singular ones.
* `solveByInverse`: a solver that meets it.
-/

namespace VariableMetric

open Matrix

/-- The real numbers, with their comparisons decided classically. -/
noncomputable instance : Scalar ℝ where
  abs a := |a|
  lt a b := decide (a < b)
  le a b := decide (a ≤ b)
  isFinite _ := true

section Entries

variable {α : Type} {m n : ℕ}

theorem vec_ext {u v : Vec α n} (h : ∀ i, u.get i = v.get i) : u = v :=
  Vector.ext fun i hi => h ⟨i, hi⟩

@[simp] theorem get_ofFn (f : Fin n → α) (i : Fin n) : (Vector.ofFn f).get i = f i :=
  Vector.getElem_ofFn i.isLt

@[simp] theorem entry_ofFn (f : Fin m → Fin n → α) (i : Fin m) (j : Fin n) :
    (Mat.ofFn f).entry i j = f i j := by
  simp only [Mat.entry, Mat.ofFn, get_ofFn]

/-- **A matrix of a run** as a matrix of the algebra. -/
def Mat.toMatrix (a : Mat α m n) : Matrix (Fin m) (Fin n) α := Matrix.of a.entry

@[simp] theorem toMatrix_apply (a : Mat α m n) (i : Fin m) (j : Fin n) :
    a.toMatrix i j = a.entry i j := rfl

theorem toMatrix_ofFn (f : Fin m → Fin n → α) : (Mat.ofFn f).toMatrix = Matrix.of f := by
  ext i j
  simp

end Entries

variable {m n : ℕ}

@[simp] theorem real_lt (a b : ℝ) : Scalar.lt a b = decide (a < b) := rfl

instance : Scalar.Ordered ℝ :=
  .of_place some (fun a b => by simp [Scalar.le]) (fun a b => by simp) (fun _ _ => rfl) (by simp)

/-- Over the reals everything is finite. -/
theorem allFinite_real (v : Vec ℝ n) : allFinite v = true := by
  simp [allFinite, Scalar.isFinite]

@[simp] theorem get_neg (v : Vec ℝ n) (i : Fin n) : (-v).get i = -v.get i :=
  Vector.getElem_neg v i i.isLt

@[simp] theorem get_add (u v : Vec ℝ n) (i : Fin n) : (u + v).get i = u.get i + v.get i :=
  Vector.getElem_add u v i i.isLt

@[simp] theorem get_sub (u v : Vec ℝ n) (i : Fin n) : (u - v).get i = u.get i - v.get i :=
  Vector.getElem_sub u v i i.isLt

@[simp] theorem get_smul (r : ℝ) (v : Vec ℝ n) (i : Fin n) : (r * v).get i = r * v.get i :=
  Vector.getElem_hmul r v i i.isLt

@[simp] theorem get_zero (i : Fin n) : (0 : Vec ℝ n).get i = 0 :=
  Vector.getElem_zero i i.isLt

theorem neg_get (v : Vec ℝ n) : (-v).get = -v.get := funext (get_neg v)

theorem sub_get (u v : Vec ℝ n) : (u - v).get = u.get - v.get := funext (get_sub u v)

theorem smul_get (r : ℝ) (v : Vec ℝ n) : (r * v).get = r • v.get := funext (get_smul r v)

theorem zero_get : (0 : Vec ℝ n).get = 0 := funext get_zero

theorem ofFn_get (f : Fin n → ℝ) : Vector.get (Vector.ofFn f) = f := funext (get_ofFn f)

theorem get_singleton (b : ℝ) (i : Fin 1) : (#v[b] : Vec ℝ 1).get i = b := by
  rw [Subsingleton.elim i 0]
  rfl

theorem get_pair (a b : ℝ) : (#v[a, b] : Vec ℝ 2).get = ![a, b] :=
  funext <| Fin.forall_fin_two.2 ⟨rfl, rfl⟩

/-- A matrix with two rows and columns, as a matrix of the algebra. -/
theorem toMatrix_pair (a b c d : ℝ) :
    Mat.toMatrix #v[#v[a, b], #v[c, d]] = !![a, b; c, d] := by
  ext i j
  fin_cases i <;> fin_cases j <;> rfl

/-- A vector is zero when its entries are. -/
theorem get_eq_zero_iff (v : Vec ℝ n) : v.get = 0 ↔ v = 0 := by
  constructor
  · intro h
    exact vec_ext fun i => by rw [h, get_zero, Pi.zero_apply]
  · rintro rfl
    exact funext get_zero

/-- Over the reals a total is a sum, for a lone term too. -/
theorem total_eq_sum (l : List ℝ) : Scalar.total l = l.sum := by
  unfold Scalar.total
  split
  · simp
  · exact List.sum_eq_foldl.symm

theorem toList_zipWith_mul (u v : Vec ℝ n) :
    (Vector.zipWith (· * ·) u v).toList = List.ofFn fun i => u.get i * v.get i := by
  rw [← Vector.toList_ofFn]
  congr 1
  refine Vector.ext fun i hi => ?_
  rw [Vector.getElem_zipWith, Vector.getElem_ofFn]
  rfl

/-- **The inner product** is that of the algebra. -/
theorem dot_eq (u v : Vec ℝ n) : dot u v = u.get ⬝ᵥ v.get := by
  unfold dot
  rw [total_eq_sum, toList_zipWith_mul, List.sum_ofFn]
  rfl

/-- **The image of a vector** is that of the algebra. -/
theorem get_mulVec (a : Mat ℝ m n) (v : Vec ℝ n) : (a.mulVec v).get = a.toMatrix *ᵥ v.get := by
  funext i
  unfold Mat.mulVec
  rw [get_ofFn, ← Vector.foldl_toList, toList_zipWith_mul, ← List.sum_eq_foldl, List.sum_ofFn]
  rfl

/-- What has an image other than zero is not zero. -/
theorem get_ne_zero_of_mulVec {a : Mat ℝ m n} {v : Vec ℝ n} {w : Vec ℝ m} (hv : a.mulVec v = w)
    (hw : w ≠ 0) : v.get ≠ 0 := by
  intro hzero
  refine hw ((get_eq_zero_iff w).1 ?_)
  rw [← hv, get_mulVec, hzero, mulVec_zero]

theorem toMatrix_identity : (Mat.identity n : Mat ℝ n n).toMatrix = 1 := by
  rw [Mat.identity, toMatrix_ofFn]
  ext i j
  simp [Matrix.one_apply]

/-- **The secant correction** adds one rank-one term and takes another away. -/
theorem toMatrix_correct (c : Curvature ℝ n) (h : Mat ℝ n n) (y : Vec ℝ n) :
    (c.correct h y).toMatrix =
      h.toMatrix + c.along⁻¹ • vecMulVec y.get y.get -
        c.model⁻¹ • vecMulVec c.image.get c.image.get := by
  rw [Curvature.correct, toMatrix_ofFn]
  ext i j
  simp only [Matrix.of_apply, Matrix.sub_apply, Matrix.add_apply, Matrix.smul_apply, toMatrix_apply,
    vecMulVec_apply, smul_eq_mul]
  ring

/-- **What is assumed of a solver**: it finds the solutions of every nonsingular system, and refuses
the singular ones. -/
class ExactSolver [Solver ℝ] : Prop where
  solves {n c : ℕ} (a : Mat ℝ n n) (sides : Vector (Vec ℝ n) c) : a.toMatrix.det ≠ 0 →
    ∃ xs, Solver.solveAll? a sides = some xs ∧ ∀ i, a.mulVec (xs.get i) = sides.get i
  refuses {n c : ℕ} (a : Mat ℝ n n) (sides : Vector (Vec ℝ n) c) : a.toMatrix.det = 0 →
    Solver.solveAll? a sides = none

/-- The one system with an invertible matrix is solved. -/
theorem solve?_eq_some [Solver ℝ] [ExactSolver] {a : Mat ℝ n n} (ha : a.toMatrix.det ≠ 0)
    (b : Vec ℝ n) : ∃ x, solve? a b = some x ∧ a.mulVec x = b := by
  obtain ⟨xs, hxs, hall⟩ := ExactSolver.solves a #v[b] ha
  refine ⟨xs.get lead, ?_, hall lead⟩
  rw [solve?, hxs]
  rfl

/-- A system with a singular matrix is refused. -/
theorem solve?_eq_none [Solver ℝ] [ExactSolver] {a : Mat ℝ n n} (ha : a.toMatrix.det = 0)
    (b : Vec ℝ n) : solve? a b = none := by
  rw [solve?, ExactSolver.refuses a _ ha]
  rfl

/-- The identity needs no ridge, and its system is solved by the right-hand side. -/
theorem solveRidged_identity [Solver ℝ] [ExactSolver] (b : Vec ℝ n) (reg : ℝ) :
    solveRidged (Mat.identity n) b reg = ⟨false, some b⟩ := by
  have hdet : (Mat.identity n : Mat ℝ n n).toMatrix.det ≠ 0 := by
    rw [toMatrix_identity, det_one]
    exact one_ne_zero
  obtain ⟨x, hx, hsol⟩ := solve?_eq_some hdet b
  have hget : x.get = b.get := by
    rw [← hsol, get_mulVec, toMatrix_identity, one_mulVec]
  rw [solveRidged, hx, vec_ext (congrFun hget)]

/-- The solution of a system by the inverse of its matrix. -/
noncomputable def inverseSolution (a : Mat ℝ n n) (b : Vec ℝ n) : Vec ℝ n :=
  Vector.ofFn (a.toMatrix⁻¹ *ᵥ b.get)

theorem mulVec_inverseSolution {a : Mat ℝ n n} (ha : a.toMatrix.det ≠ 0) (b : Vec ℝ n) :
    a.mulVec (inverseSolution a b) = b := by
  have hget : (inverseSolution a b).get = a.toMatrix⁻¹ *ᵥ b.get := funext fun i => get_ofFn _ i
  refine vec_ext fun i => ?_
  rw [get_mulVec, hget, mulVec_mulVec, mul_nonsing_inv _ (isUnit_iff_ne_zero.2 ha), one_mulVec]

/-- **The solver by inverses.** -/
@[reducible] noncomputable def solveByInverse : Solver ℝ where
  solveAll? a sides := if a.toMatrix.det = 0 then none else some (sides.map (inverseSolution a))

theorem solveByInverse_exact : @ExactSolver solveByInverse := by
  refine @ExactSolver.mk solveByInverse ?_ ?_
  · intro n c a sides ha
    refine ⟨sides.map (inverseSolution a), ?_, ?_⟩
    · exact if_neg ha
    · intro i
      have hget : (sides.map (inverseSolution a)).get i = inverseSolution a (sides.get i) :=
        Vector.getElem_map _ i.isLt
      rw [hget]
      exact mulVec_inverseSolution ha _
  · intro n c a sides ha
    exact if_pos ha

end VariableMetric
