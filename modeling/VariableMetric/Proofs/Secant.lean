import Mathlib.Analysis.Real.Sqrt
import Mathlib.LinearAlgebra.Matrix.SchurComplement
import Mathlib.Tactic.LinearCombination
import VariableMetric.Proofs.Definite

/-!
# What a secant update does

Over the reals, for any matrix, step and change of the gradient along it.

* `secantUpdate_applied_iff`, `toMatrix_secantUpdate`: when an update is made, and the matrix that
  it gives.
* `secantUpdate_secant`, `secantUpdate_self`: what it makes of the step that it is made for.
* `correct_eq_factored`: **a correction of a symmetric matrix is a change of variables**, by the
  factor `secantFactor`, so that determinants are multiplied by the ratio of the denominators.
* `secantUpdate_one`, `secantUpdate_first`: with one variable an update recovers the curvature
  from any step.
* `secant_update`: **what is true of every update**.
-/

namespace VariableMetric

open Matrix

/-! ### The factor of a correction -/

section Factor

variable {n : ℕ} {M : Matrix (Fin n) (Fin n) ℝ} {s y : Fin n → ℝ}

/-- The row that is added to the identity, along `s`, in the factor of a correction. -/
noncomputable def factorRow (M : Matrix (Fin n) (Fin n) ℝ) (s y : Fin n → ℝ) : Fin n → ℝ :=
  (√((y ⬝ᵥ s) * (s ⬝ᵥ M *ᵥ s)))⁻¹ • y - (s ⬝ᵥ M *ᵥ s)⁻¹ • (M *ᵥ s)

/-- **The factor of a correction** of `M` for step `s` and gradient change `y`. -/
noncomputable def secantFactor (M : Matrix (Fin n) (Fin n) ℝ) (s y : Fin n → ℝ) :
    Matrix (Fin n) (Fin n) ℝ :=
  1 + vecMulVec s (factorRow M s y)

/-- A symmetric matrix between two rank-one changes of variables. -/
theorem conj_one_add_rankOne (hM : M.IsSymm) (s w : Fin n → ℝ) :
    (1 + vecMulVec s w)ᵀ * M * (1 + vecMulVec s w) =
      M + vecMulVec (M *ᵥ s) w + vecMulVec w (M *ᵥ s) + (s ⬝ᵥ M *ᵥ s) • vecMulVec w w := by
  have hrow : s ᵥ* M = M *ᵥ s := by rw [← mulVec_transpose, hM.eq]
  have hleft : vecMulVec w s * M = vecMulVec w (M *ᵥ s) := by rw [vecMulVec_mul, hrow]
  have hright : M * vecMulVec s w = vecMulVec (M *ᵥ s) w := mul_vecMulVec M s w
  have hboth : vecMulVec w (M *ᵥ s) * vecMulVec s w = (s ⬝ᵥ M *ᵥ s) • vecMulVec w w := by
    rw [vecMulVec_mul_vecMulVec, vecMulVec_smul, dotProduct_comm]
  rw [transpose_add, transpose_one, transpose_vecMulVec, add_mul, one_mul, hleft, mul_add, mul_one,
    add_mul, hright, hboth]
  abel

variable (hy : 0 < y ⬝ᵥ s) (hs : 0 < s ⬝ᵥ M *ᵥ s)
include hy hs

/-- **A correction is a change of variables** by its factor. -/
theorem correct_eq_factored (hM : M.IsSymm) :
    M + (y ⬝ᵥ s)⁻¹ • vecMulVec y y - (s ⬝ᵥ M *ᵥ s)⁻¹ • vecMulVec (M *ᵥ s) (M *ᵥ s) =
      (secantFactor M s y)ᵀ * M * secantFactor M s y := by
  rw [secantFactor, conj_one_add_rankOne hM]
  set p := y ⬝ᵥ s
  set q := s ⬝ᵥ M *ᵥ s
  set t := (√(p * q))⁻¹ with ht
  have hsq : t ^ 2 * q = p⁻¹ := by
    rw [ht, inv_pow, Real.sq_sqrt (mul_pos hy hs).le]
    field_simp
  have hq : q⁻¹ * q = 1 := inv_mul_cancel₀ hs.ne'
  ext i j
  simp only [factorRow, Matrix.add_apply, Matrix.sub_apply, Matrix.smul_apply, vecMulVec_apply,
    Pi.sub_apply, Pi.smul_apply, smul_eq_mul]
  set z := M *ᵥ s
  linear_combination (-(y i * y j)) * hsq +
    (t * (y i * z j + z i * y j) - q⁻¹ * (z i * z j)) * hq

/-- The determinant of the factor is positive, and its square the ratio of the denominators. -/
theorem det_secantFactor_sq :
    (secantFactor M s y).det ^ 2 = (y ⬝ᵥ s) / (s ⬝ᵥ M *ᵥ s) := by
  have hdet : (secantFactor M s y).det = 1 + factorRow M s y ⬝ᵥ s := by
    rw [secantFactor, vecMulVec_eq Unit, det_one_add_replicateCol_mul_replicateRow]
  have hrow : factorRow M s y ⬝ᵥ s =
      (√((y ⬝ᵥ s) * (s ⬝ᵥ M *ᵥ s)))⁻¹ * (y ⬝ᵥ s) - 1 := by
    rw [factorRow, sub_dotProduct, smul_dotProduct, smul_dotProduct, dotProduct_comm (M *ᵥ s) s,
      smul_eq_mul, smul_eq_mul, inv_mul_cancel₀ hs.ne']
  rw [hdet, hrow, add_sub_cancel, mul_pow, inv_pow, Real.sq_sqrt (mul_pos hy hs).le]
  field_simp

/-- **The determinant of a corrected matrix**: that of the matrix, times the ratio of the
denominators. -/
theorem det_correct (hM : M.IsSymm) :
    (M + (y ⬝ᵥ s)⁻¹ • vecMulVec y y -
      (s ⬝ᵥ M *ᵥ s)⁻¹ • vecMulVec (M *ᵥ s) (M *ᵥ s)).det =
      M.det * (y ⬝ᵥ s) / (s ⬝ᵥ M *ᵥ s) := by
  rw [correct_eq_factored hy hs hM, det_mul, det_mul, det_transpose, mul_div_assoc,
    ← det_secantFactor_sq hy hs]
  ring

end Factor

/-! ### Updates -/

variable {n : ℕ} {H : Mat ℝ n n} {dx y : Vec ℝ n} {tol : ℝ}

theorem toMatrix_injective {H H' : Mat ℝ n n} (h : H.toMatrix = H'.toMatrix) : H = H' := by
  refine vec_ext fun i => vec_ext fun j => ?_
  exact congrFun (congrFun h i) j

/-- An update is made when both of its denominators are above the threshold. -/
theorem secantUpdate_applied_iff :
    (secantUpdate H dx y tol).applied = true ↔
      tol < y.get ⬝ᵥ dx.get ∧ tol < dx.get ⬝ᵥ H.toMatrix *ᵥ dx.get := by
  obtain ⟨halong, hmodel, -⟩ := curvature_of H dx y
  unfold secantUpdate Curvature.usable
  dsimp only
  rw [halong, hmodel]
  split
  · rename_i huse
    simpa using huse
  · rename_i hnot
    simpa using hnot

/-- An update that is left out changes nothing. -/
theorem secantUpdate_of_not_applied (h : (secantUpdate H dx y tol).applied = false) :
    (secantUpdate H dx y tol).matrix = H := by
  unfold secantUpdate at h ⊢
  dsimp only at h ⊢
  split at h
  · cases h
  · rename_i hnot
    rw [if_neg hnot]

/-- The matrix after an update that is made. -/
theorem toMatrix_secantUpdate (h : (secantUpdate H dx y tol).applied = true) :
    (secantUpdate H dx y tol).matrix.toMatrix =
      H.toMatrix + (y.get ⬝ᵥ dx.get)⁻¹ • vecMulVec y.get y.get -
        (dx.get ⬝ᵥ H.toMatrix *ᵥ dx.get)⁻¹ •
          vecMulVec (H.toMatrix *ᵥ dx.get) (H.toMatrix *ᵥ dx.get) := by
  obtain ⟨halong, hmodel, himage⟩ := curvature_of H dx y
  unfold secantUpdate at h ⊢
  dsimp only at h ⊢
  split at h
  · rename_i huse
    rw [if_pos huse, toMatrix_correct, halong, hmodel, himage]
  · cases h

/-- The image of a vector under the matrix after an update that is made. -/
theorem secantUpdate_mulVec (h : (secantUpdate H dx y tol).applied = true) (u : Fin n → ℝ) :
    (secantUpdate H dx y tol).matrix.toMatrix *ᵥ u =
      H.toMatrix *ᵥ u + ((y.get ⬝ᵥ dx.get)⁻¹ * (y.get ⬝ᵥ u)) • y.get -
        ((dx.get ⬝ᵥ H.toMatrix *ᵥ dx.get)⁻¹ * (H.toMatrix *ᵥ dx.get ⬝ᵥ u)) •
          (H.toMatrix *ᵥ dx.get) := by
  have hrank (z : Fin n → ℝ) : vecMulVec z z *ᵥ u = (z ⬝ᵥ u) • z := by
    rw [vecMulVec_mulVec, op_smul_eq_smul]
  rw [toMatrix_secantUpdate h, sub_mulVec, add_mulVec, smul_mulVec, smul_mulVec, hrank, hrank,
    smul_smul, smul_smul]

/-- **The secant equation**: an update that is made maps its step to the change of the gradient. -/
theorem secantUpdate_secant (h : (secantUpdate H dx y tol).applied = true) (htol : 0 ≤ tol) :
    (secantUpdate H dx y tol).matrix.toMatrix *ᵥ dx.get = y.get := by
  obtain ⟨halong, hmodel⟩ := secantUpdate_applied_iff.1 h
  rw [secantUpdate_mulVec h, inv_mul_cancel₀ (htol.trans_lt halong).ne', dotProduct_comm _ dx.get,
    inv_mul_cancel₀ (htol.trans_lt hmodel).ne', one_smul, one_smul]
  abel

/-- **An update for a step that the matrix already maps** to the change of the gradient changes
nothing. -/
theorem secantUpdate_self (h : H.toMatrix *ᵥ dx.get = y.get) :
    (secantUpdate H dx y tol).matrix = H := by
  cases happlied : (secantUpdate H dx y tol).applied with
  | false => exact secantUpdate_of_not_applied happlied
  | true =>
    refine toMatrix_injective ?_
    rw [toMatrix_secantUpdate happlied, h, dotProduct_comm dx.get]
    abel

/-- **What an update leaves**: the images of vectors that neither of its terms sees. -/
theorem secantUpdate_mulVec_eq (h : (secantUpdate H dx y tol).applied = true) {u : Fin n → ℝ}
    (hy : y.get ⬝ᵥ u = 0) (hs : H.toMatrix *ᵥ dx.get ⬝ᵥ u = 0) :
    (secantUpdate H dx y tol).matrix.toMatrix *ᵥ u = H.toMatrix *ᵥ u := by
  rw [secantUpdate_mulVec h, hy, hs, mul_zero, mul_zero, zero_smul, zero_smul, add_zero, sub_zero]

/-- An update keeps a matrix symmetric. -/
theorem isSymm_secantUpdate (hH : H.toMatrix.IsSymm) :
    (secantUpdate H dx y tol).matrix.toMatrix.IsSymm := by
  have hrank (r : ℝ) (u : Fin n → ℝ) : (r • vecMulVec u u).IsSymm := by
    rw [Matrix.IsSymm, transpose_smul, transpose_vecMulVec]
  cases happlied : (secantUpdate H dx y tol).applied with
  | false => rwa [secantUpdate_of_not_applied happlied]
  | true =>
    rw [toMatrix_secantUpdate happlied]
    exact (hH.add (hrank _ _)).sub (hrank _ _)

/-- **The determinant after an update that is made** on a symmetric matrix. -/
theorem det_secantUpdate (h : (secantUpdate H dx y tol).applied = true) (htol : 0 ≤ tol)
    (hH : H.toMatrix.IsSymm) :
    (secantUpdate H dx y tol).matrix.toMatrix.det =
      H.toMatrix.det * (y.get ⬝ᵥ dx.get) / (dx.get ⬝ᵥ H.toMatrix *ᵥ dx.get) := by
  obtain ⟨halong, hmodel⟩ := secantUpdate_applied_iff.1 h
  rw [toMatrix_secantUpdate h]
  exact det_correct (htol.trans_lt halong) (htol.trans_lt hmodel) hH

/-! ### One variable -/

section Line

variable {a : ℝ}

theorem eq_of_toMatrix {H : Mat ℝ 1 1} (hH : H.toMatrix = a • 1) : H = #v[#v[a]] := by
  refine toMatrix_injective (hH.trans ?_)
  ext i j
  rw [Subsingleton.elim i 0, Subsingleton.elim j 0, Matrix.smul_apply, one_apply_eq, smul_eq_mul,
    mul_one]
  rfl

/-- **With one variable** an update that is made recovers the curvature. -/
theorem secantUpdate_one {H : Mat ℝ 1 1} {dx y : Vec ℝ 1} {tol : ℝ}
    (h : (secantUpdate H dx y tol).applied = true) (htol : 0 ≤ tol) (hy : y.get = a • dx.get)
    (hdx : dx.get ≠ 0) : (secantUpdate H dx y tol).matrix.toMatrix = a • 1 := by
  have hsecant := secantUpdate_secant h htol
  have hdx0 : dx.get 0 ≠ 0 := by
    intro h0
    exact hdx (funext fun i => by rw [Subsingleton.elim i 0, h0, Pi.zero_apply])
  set M := (secantUpdate H dx y tol).matrix.toMatrix
  have hentry : M 0 0 * dx.get 0 = a * dx.get 0 := by
    have h0 := congrFun hsecant 0
    rw [hy] at h0
    simpa [mulVec, dotProduct] using h0
  ext i j
  rw [Subsingleton.elim i 0, Subsingleton.elim j 0, mul_right_cancel₀ hdx0 hentry]
  simp

/-- The first update recovers it from every step that is long enough. -/
theorem secantUpdate_first {dx y : Vec ℝ 1} {tol : ℝ} (htol : 0 ≤ tol) (hy : y.get = a • dx.get)
    (halong : tol < a * (dx.get ⬝ᵥ dx.get)) (hmodel : tol < dx.get ⬝ᵥ dx.get) :
    (secantUpdate (Mat.identity 1) dx y tol).matrix.toMatrix = a • 1 := by
  have happlied : (secantUpdate (Mat.identity 1) dx y tol).applied = true := by
    rw [secantUpdate_applied_iff, hy, toMatrix_identity, one_mulVec, smul_dotProduct]
    exact ⟨halong, hmodel⟩
  have hdx : dx.get ≠ 0 := by
    intro hzero
    rw [hzero, zero_dotProduct] at hmodel
    exact absurd hmodel (not_lt.2 htol)
  exact secantUpdate_one happlied htol hy hdx

end Line

/-! ### Every update -/

/-- **The secant update.** It is made where both denominators are above the threshold, and leaves
the matrix as it is elsewhere. Where it is made, it maps the step to the change of the gradient and
agrees with the matrix on what neither of its terms sees. It keeps a symmetric matrix symmetric, and
multiplies its determinant by the ratio of the denominators, so that no matrix becomes singular that
was not. -/
theorem secant_update (H : Mat ℝ n n) (dx y : Vec ℝ n) (htol : 0 ≤ tol) :
    let u := secantUpdate H dx y tol
    (u.applied = true ↔ tol < dot y dx ∧ tol < dot dx (H.mulVec dx)) ∧
    (u.applied = false → u.matrix = H) ∧
    (H.toMatrix.IsSymm → u.matrix.toMatrix.IsSymm) ∧
    (u.applied = true →
      u.matrix.mulVec dx = y ∧
      (∀ v, dot y v = 0 → dot (H.mulVec dx) v = 0 → u.matrix.mulVec v = H.mulVec v) ∧
      (H.toMatrix.IsSymm →
        u.matrix.toMatrix.det = H.toMatrix.det * dot y dx / dot dx (H.mulVec dx) ∧
        (H.toMatrix.det ≠ 0 → u.matrix.toMatrix.det ≠ 0))) := by
  intro u
  simp only [dot_eq, get_mulVec]
  have happlied : u.applied = true ↔
      tol < y.get ⬝ᵥ dx.get ∧ tol < dx.get ⬝ᵥ H.toMatrix *ᵥ dx.get := secantUpdate_applied_iff
  refine ⟨happlied, secantUpdate_of_not_applied, isSymm_secantUpdate, fun h => ⟨?_, ?_, ?_⟩⟩
  · refine vec_ext (congrFun ?_)
    rw [get_mulVec]
    exact secantUpdate_secant h htol
  · intro v hy hs
    refine vec_ext (congrFun ?_)
    rw [get_mulVec, get_mulVec]
    exact secantUpdate_mulVec_eq h hy hs
  · intro hH
    obtain ⟨halong, hmodel⟩ := happlied.1 h
    have hdet := det_secantUpdate h htol hH
    refine ⟨hdet, fun hne => ?_⟩
    rw [hdet]
    exact div_ne_zero (mul_ne_zero hne (htol.trans_lt halong).ne') (htol.trans_lt hmodel).ne'

/-- An update that multiplies the determinant by three halves. -/
theorem secant_update_made :
    let H : Mat ℝ 2 2 := #v[#v[2, 1], #v[1, 1]]
    let u := secantUpdate H #v[1, 0] #v[3, 5] 0
    (0 : ℝ) ≤ 0 ∧ H.toMatrix.IsSymm ∧ H.toMatrix.det = 1 ∧ u.applied = true ∧
      u.matrix.mulVec #v[1, 0] = #v[3, 5] ∧ u.matrix.toMatrix.det = 3 / 2 := by
  intro H u
  have hH : H.toMatrix = !![2, 1; 1, 1] := toMatrix_pair 2 1 1 1
  have hsymm : H.toMatrix.IsSymm := by
    rw [hH, Matrix.IsSymm]
    ext i j
    fin_cases i <;> fin_cases j <;> rfl
  have hdet : H.toMatrix.det = 1 := by
    rw [hH, det_fin_two_of]
    norm_num
  have halong : dot #v[3, 5] #v[1, 0] = (3 : ℝ) := by
    rw [dot_eq, get_pair, get_pair]
    simp
  have hmodel : dot #v[1, 0] (H.mulVec #v[1, 0]) = (2 : ℝ) := by
    rw [dot_eq, get_mulVec, hH, get_pair]
    simp [mulVec, dotProduct, Fin.sum_univ_two]
  obtain ⟨happlied, -, -, hmade⟩ := secant_update H #v[1, 0] #v[3, 5] le_rfl
  rw [halong, hmodel] at happlied
  have hu : u.applied = true := happlied.2 ⟨by norm_num, by norm_num⟩
  obtain ⟨hsecant, -, hvolume⟩ := hmade hu
  refine ⟨le_rfl, hsymm, hdet, hu, hsecant, ?_⟩
  rw [(hvolume hsymm).1, hdet, halong, hmodel, one_mul]

end VariableMetric
