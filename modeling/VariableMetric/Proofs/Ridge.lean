import Mathlib.Analysis.InnerProductSpace.PiL2
import VariableMetric.Proofs.Definite
import VariableMetric.Proofs.Shaped

/-!
# What a ridge does to a singular system

A singular matrix that is positive semidefinite becomes positive definite with any ridge, so the
second attempt never fails. A solution `z` of the system that was given bounds what is missing then:
the ridge takes the solution no further out than `z`, and the residual is the ridge times it.

* `posDef_ridge`: **the ridge makes the matrix definite**.
* `residual_ridge`, `dot_self_le_of_ridge`: the residual, and how far out the solution is.
* `norm_residual_ridge_le`: **the residual** is at most the ridge times the norm of `z`.
* `ridged_systems`: **every system is solved** whose matrix is positive semidefinite.
-/

namespace VariableMetric

open Matrix

variable {n : ℕ}

section Ridges

variable {M : Matrix (Fin n) (Fin n) ℝ} {r : ℝ} {p z : Fin n → ℝ}

/-- The form of a positive semidefinite matrix is not negative. -/
theorem form_nonneg (hM : M.PosSemidef) (x : Fin n → ℝ) : 0 ≤ x ⬝ᵥ M *ᵥ x := by
  have hform := hM.dotProduct_mulVec_nonneg x
  rwa [star_trivial] at hform

/-- **A ridge makes a positive semidefinite matrix definite.** -/
theorem posDef_ridge (hM : M.PosSemidef) (hr : 0 < r) : (M + r • 1).PosDef :=
  PosDef.posSemidef_add hM (PosDef.one.smul hr)

/-- **The residual** of a system solved with a ridge. -/
theorem residual_ridge (h : (M + r • 1) *ᵥ p = M *ᵥ z) : M *ᵥ p - M *ᵥ z = -(r • p) := by
  rw [← h, add_mulVec, smul_mulVec, one_mulVec]
  abel

/-- The solution with the ridge is no further out than its component along `z`. The difference
`z - p` has `r • p` as its image, so its form is `r` times `(z - p) ⬝ᵥ p`. -/
theorem dot_self_le_of_ridge (hM : M.PosSemidef) (hr : 0 < r)
    (h : (M + r • 1) *ᵥ p = M *ᵥ z) : p ⬝ᵥ p ≤ z ⬝ᵥ p := by
  have himage : M *ᵥ (z - p) = r • p := by
    rw [mulVec_sub, ← neg_sub, residual_ridge h, neg_neg]
  have hform : 0 ≤ r * ((z - p) ⬝ᵥ p) := by
    have hnn := form_nonneg hM (z - p)
    rwa [himage, dotProduct_smul, smul_eq_mul] at hnn
  have hdot : 0 ≤ (z - p) ⬝ᵥ p := nonneg_of_mul_nonneg_right hform hr
  rw [sub_dotProduct] at hdot
  linarith

theorem norm_le_of_ridge (hM : M.PosSemidef) (hr : 0 < r) (h : (M + r • 1) *ᵥ p = M *ᵥ z) :
    ‖WithLp.toLp 2 p‖ ≤ ‖WithLp.toLp 2 z‖ := by
  have hinner (u v : Fin n → ℝ) : inner ℝ (WithLp.toLp 2 u) (WithLp.toLp 2 v) = v ⬝ᵥ u := by
    rw [EuclideanSpace.inner_toLp_toLp, star_trivial]
  have hsq : ‖WithLp.toLp 2 p‖ * ‖WithLp.toLp 2 p‖ ≤ ‖WithLp.toLp 2 p‖ * ‖WithLp.toLp 2 z‖ :=
    calc ‖WithLp.toLp 2 p‖ * ‖WithLp.toLp 2 p‖ = p ⬝ᵥ p := by
          rw [← real_inner_self_eq_norm_mul_norm, hinner]
      _ ≤ z ⬝ᵥ p := dot_self_le_of_ridge hM hr h
      _ = inner ℝ (WithLp.toLp 2 p) (WithLp.toLp 2 z) := (hinner p z).symm
      _ ≤ ‖WithLp.toLp 2 p‖ * ‖WithLp.toLp 2 z‖ := real_inner_le_norm _ _
  by_cases hp : ‖WithLp.toLp 2 p‖ = 0
  · rw [hp]
    exact norm_nonneg _
  · exact le_of_mul_le_mul_left hsq (lt_of_le_of_ne (norm_nonneg _) (Ne.symm hp))

/-- **The residual is small** if the system has a solution at all: at most the ridge times its
norm. -/
theorem norm_residual_ridge_le (hM : M.PosSemidef) (hr : 0 < r)
    (h : (M + r • 1) *ᵥ p = M *ᵥ z) :
    ‖WithLp.toLp 2 (M *ᵥ p - M *ᵥ z)‖ ≤ r * ‖WithLp.toLp 2 z‖ := by
  rw [residual_ridge h, WithLp.toLp_neg, WithLp.toLp_smul, norm_neg, norm_smul, Real.norm_eq_abs,
    abs_of_pos hr]
  exact mul_le_mul_of_nonneg_left (norm_le_of_ridge hM hr h) hr.le

end Ridges

/-- The matrix of a run with its ridge. -/
theorem toMatrix_addRidge (a : Mat ℝ n n) (r : ℝ) :
    (addRidge a r).toMatrix = a.toMatrix + r • 1 := by
  rw [addRidge, toMatrix_ofFn]
  ext i j
  simp [Matrix.one_apply]

section Systems

variable [Solver ℝ] [ExactSolver] {a : Mat ℝ n n} {b : Vec ℝ n} {r : ℝ}

/-- The one solution of a system with a nonsingular matrix. -/
theorem solve?_eq_iff (ha : a.toMatrix.det ≠ 0) :
    ∃ p, solve? a b = some p ∧ ∀ q : Vec ℝ n, a.toMatrix *ᵥ q.get = b.get ↔ q = p := by
  obtain ⟨p, hp, hsol⟩ := solve?_eq_some ha b
  have himage : a.toMatrix *ᵥ p.get = b.get := by rw [← get_mulVec, hsol]
  refine ⟨p, hp, fun q => ⟨fun hq => ?_, ?_⟩⟩
  · exact vec_ext (congrFun (mulVec_injective_of_det_ne_zero ha (hq.trans himage.symm)))
  · rintro rfl
    exact himage

/-- A nonsingular system needs no ridge. -/
theorem solveRidged_of_det_ne_zero (ha : a.toMatrix.det ≠ 0) :
    ∃ p, solveRidged a b r = ⟨false, some p⟩ ∧
      ∀ q : Vec ℝ n, a.toMatrix *ᵥ q.get = b.get ↔ q = p := by
  obtain ⟨p, hp, hunique⟩ := solve?_eq_iff (b := b) ha
  exact ⟨p, by rw [solveRidged, hp], hunique⟩

/-- A singular system with a positive semidefinite matrix has a solution with the ridge. -/
theorem solveRidged_of_det_eq_zero (hM : a.toMatrix.PosSemidef) (hr : 0 < r)
    (ha : a.toMatrix.det = 0) :
    ∃ p, solveRidged a b r = ⟨true, some p⟩ ∧
      ∀ q : Vec ℝ n, (a.toMatrix + r • 1) *ᵥ q.get = b.get ↔ q = p := by
  have hdet : (addRidge a r).toMatrix.det ≠ 0 := by
    rw [toMatrix_addRidge]
    exact ((isUnit_iff_isUnit_det _).1 (posDef_ridge hM hr).isUnit).ne_zero
  obtain ⟨p, hp, hunique⟩ := solve?_eq_iff (b := b) hdet
  rw [toMatrix_addRidge] at hunique
  refine ⟨p, ?_, hunique⟩
  rw [solveRidged, solve?_eq_none ha b, hp]

/-- **Every system with a positive semidefinite matrix is solved**: a nonsingular one by its only
solution, a singular one by the only solution of the system with the ridge. If the singular system
has a solution `z`, the residual is at most the ridge times the norm of `z`. -/
theorem ridged_systems (hM : a.toMatrix.PosSemidef) (b : Vec ℝ n) (hr : 0 < r) :
    (a.toMatrix.det ≠ 0 →
      ∃ p, NdArray.solveRidged (.ofMat a) (.ofVec b) (.ok (.ofScalar r)) =
          ⟨false, .ok (.ofVec p)⟩ ∧
        ∀ q : Vec ℝ n, a.toMatrix *ᵥ q.get = b.get ↔ q = p) ∧
    (a.toMatrix.det = 0 →
      ∃ p, NdArray.solveRidged (.ofMat a) (.ofVec b) (.ok (.ofScalar r)) =
          ⟨true, .ok (.ofVec p)⟩ ∧
        (∀ q : Vec ℝ n, (a.toMatrix + r • 1) *ᵥ q.get = b.get ↔ q = p) ∧
        ∀ z : Vec ℝ n, a.toMatrix *ᵥ z.get = b.get →
          ‖WithLp.toLp 2 (a.toMatrix *ᵥ p.get - b.get)‖ ≤ r * ‖WithLp.toLp 2 z.get‖) := by
  refine ⟨fun ha => ?_, fun ha => ?_⟩
  · obtain ⟨p, hp, hunique⟩ := solveRidged_of_det_ne_zero (b := b) (r := r) ha
    exact ⟨p, by rw [NdArray.solveRidged_ofMat, hp], hunique⟩
  · obtain ⟨p, hp, hunique⟩ := solveRidged_of_det_eq_zero (b := b) hM hr ha
    refine ⟨p, by rw [NdArray.solveRidged_ofMat, hp], hunique, fun z hz => ?_⟩
    have hridge : (a.toMatrix + r • 1) *ᵥ p.get = a.toMatrix *ᵥ z.get :=
      ((hunique p).2 rfl).trans hz.symm
    rw [← hz]
    exact norm_residual_ridge_le hM hr hridge

end Systems

/-- A singular matrix of ones. The ridge gives `4/5` in both entries, where `1` would be right. -/
theorem ridged_systems_ones :
    letI := solveByInverse
    (Mat.toMatrix #v[#v[1, 1], #v[1, 1]] : Matrix (Fin 2) (Fin 2) ℝ).PosSemidef ∧
      (Mat.toMatrix #v[#v[1, 1], #v[1, 1]] : Matrix (Fin 2) (Fin 2) ℝ).det = 0 ∧
      NdArray.solveRidged (.ofMat #v[#v[1, 1], #v[1, 1]]) (.ofVec (#v[2, 2] : Vec ℝ 2))
          (.ok (.ofScalar (1 / 2))) = ⟨true, .ok (.ofVec #v[4 / 5, 4 / 5])⟩ ∧
      ‖WithLp.toLp 2 (!![1, 1; 1, 1] *ᵥ ![4 / 5, 4 / 5] - ![2, 2] : Fin 2 → ℝ)‖ ≤
        1 / 2 * ‖WithLp.toLp 2 (![1, 1] : Fin 2 → ℝ)‖ := by
  let := solveByInverse
  have : ExactSolver := solveByInverse_exact
  have hones : Mat.toMatrix #v[#v[1, 1], #v[1, 1]] = (!![1, 1; 1, 1] : Matrix (Fin 2) (Fin 2) ℝ) :=
    toMatrix_pair 1 1 1 1
  have hsemi : (Mat.toMatrix #v[#v[1, 1], #v[1, 1]] : Matrix (Fin 2) (Fin 2) ℝ).PosSemidef := by
    have hsq := posSemidef_vecMulVec_self_star (![1, 1] : Fin 2 → ℝ)
    rw [hones]
    convert hsq using 1
    ext i j
    fin_cases i <;> fin_cases j <;> simp [vecMulVec_apply]
  have hdet : (Mat.toMatrix #v[#v[1, 1], #v[1, 1]] : Matrix (Fin 2) (Fin 2) ℝ).det = 0 := by
    rw [hones, det_fin_two_of]
    norm_num
  obtain ⟨p, hp, hunique, hbound⟩ := (ridged_systems hsemi #v[2, 2] one_half_pos).2 hdet
  have hsol : #v[4 / 5, 4 / 5] = p := by
    refine (hunique #v[4 / 5, 4 / 5]).1 ?_
    rw [hones, get_pair, get_pair]
    ext i
    fin_cases i <;> simp [mulVec, dotProduct, Fin.sum_univ_two] <;> norm_num
  subst hsol
  refine ⟨hsemi, hdet, hp, ?_⟩
  have hz := hbound #v[1, 1] (by
    rw [hones, get_pair, get_pair]
    ext i
    fin_cases i <;> simp [mulVec, dotProduct, Fin.sum_univ_two] <;> norm_num)
  rwa [hones, get_pair, get_pair, get_pair] at hz

end VariableMetric
