import Mathlib.Tactic.Ring
import VariableMetric.Proofs.Variables

/-!
# Changes of coordinates

Coordinates can be renamed, turned round, and counted from another origin, and values from another
level. Over the reals the operations of a run go along with all of that.

* `SignedPerm`: a signed permutation of the coordinates; `SignedPerm.matrix` is its matrix `Q`.
* `SignedPerm.back`, `SignedPerm.forth`: the transpose and the matrix, applied to vectors.
* `SignedPerm.conj`: a matrix `H` in the new coordinates, `QᵀHQ`.
* `normInf_back`, `mulVec_conj`, `solveRidged_conj`, `secantUpdate_conj`: **what the operations of a
  run come to in the new coordinates**. The update is one in new variables.
-/

namespace VariableMetric

open Matrix

variable {n : ℕ}

theorem larger_eq_max (a b : ℝ) : Scalar.larger a b = max a b := by
  unfold Scalar.larger
  rw [real_lt]
  by_cases h : a < b
  · rw [decide_eq_true h, if_pos rfl, max_eq_right h.le]
  · have hle : Scalar.le b a = true := decide_eq_true (not_lt.1 h)
    rw [decide_eq_false h, if_neg Bool.false_ne_true, if_pos hle, max_eq_left (not_lt.1 h)]

/-- The largest absolute entry is the least bound of all of them. -/
theorem normInf_le_iff (v : Vec ℝ n) (r : ℝ) : normInf v ≤ r ↔ 0 ≤ r ∧ ∀ i, |v.get i| ≤ r := by
  have hfold (l : List ℝ) (b : ℝ) :
      l.foldl (fun best a => Scalar.larger best (Scalar.abs a)) b ≤ r ↔
        b ≤ r ∧ ∀ a ∈ l, |a| ≤ r := by
    induction l generalizing b with
    | nil => simp
    | cons a l ih =>
      rw [List.foldl_cons, ih, larger_eq_max, max_le_iff, List.forall_mem_cons, and_assoc]
      rfl
  rw [normInf, ← Vector.foldl_toList, hfold]
  refine and_congr_right fun _ => ⟨fun h i => h _ ?_, fun h a ha => ?_⟩
  · exact Vector.mem_toList_iff.2 (Vector.getElem_mem i.isLt)
  · obtain ⟨i, hi, rfl⟩ := Vector.getElem_of_mem (Vector.mem_toList_iff.1 ha)
    exact h ⟨i, hi⟩

/-- **A signed permutation** of the coordinates: which new coordinate an old one is, and whether it
is turned round. -/
structure SignedPerm (n : ℕ) where
  perm : Equiv.Perm (Fin n)
  sign : Fin n → ℝ
  abs_sign : ∀ i, |sign i| = 1

namespace SignedPerm

variable (Q : SignedPerm n)

/-- The matrix of a signed permutation. -/
def matrix : Matrix (Fin n) (Fin n) ℝ :=
  Matrix.of fun i j => if Q.perm i = j then Q.sign i else 0

/-- New coordinates as old ones: the matrix applied to a vector. -/
def forth (z : Vec ℝ n) : Vec ℝ n := Vector.ofFn fun i => Q.sign i * z.get (Q.perm i)

/-- Old coordinates as new ones: the transpose applied to a vector. -/
def back (v : Vec ℝ n) : Vec ℝ n :=
  Vector.ofFn fun j => Q.sign (Q.perm.symm j) * v.get (Q.perm.symm j)

/-- A matrix in the new coordinates. -/
def conj (H : Mat ℝ n n) : Mat ℝ n n :=
  Mat.ofFn fun j k => Q.sign (Q.perm.symm j) * Q.sign (Q.perm.symm k) *
    H.entry (Q.perm.symm j) (Q.perm.symm k)

/-- The denominators of a secant update in the new coordinates. -/
def curvature (c : Curvature ℝ n) : Curvature ℝ n := ⟨Q.back c.image, c.along, c.model⟩

/-- The outcome of a secant update in the new coordinates. -/
def updated (u : Updated ℝ n) : Updated ℝ n := ⟨Q.conj u.matrix, u.applied, Q.curvature u.curvature⟩

theorem sign_mul_self (i : Fin n) : Q.sign i * Q.sign i = 1 := by
  rw [← abs_mul_abs_self, Q.abs_sign, mul_one]

theorem matrix_apply (i j : Fin n) :
    Q.matrix i j = if i = Q.perm.symm j then Q.sign i else 0 := by
  simp only [matrix, Matrix.of_apply, Equiv.eq_symm_apply]

theorem get_forth (z : Vec ℝ n) : (Q.forth z).get = Q.matrix *ᵥ z.get := by
  funext i
  simp [forth, matrix, mulVec, dotProduct]

theorem get_back (v : Vec ℝ n) : (Q.back v).get = Q.matrixᵀ *ᵥ v.get := by
  funext j
  simp [back, matrix_apply, mulVec, dotProduct]

theorem toMatrix_conj (H : Mat ℝ n n) :
    (Q.conj H).toMatrix = Q.matrixᵀ * H.toMatrix * Q.matrix := by
  ext j k
  simp only [conj, toMatrix_apply, entry_ofFn, mul_apply, transpose_apply, matrix_apply, mul_ite,
    mul_zero, ite_mul, zero_mul, Finset.sum_ite_eq', Finset.mem_univ, if_true]
  ring

/-- **The transpose is the inverse.** -/
theorem transpose_mul_matrix : Q.matrixᵀ * Q.matrix = 1 := by
  ext j k
  simp only [mul_apply, transpose_apply, matrix_apply, mul_ite, mul_zero, ite_mul, zero_mul,
    Finset.sum_ite_eq', Finset.mem_univ, if_true, one_apply, Equiv.apply_eq_iff_eq]
  by_cases hjk : j = k
  · rw [hjk, if_pos rfl, if_pos rfl, sign_mul_self]
  · rw [if_neg hjk, if_neg (Ne.symm hjk)]

theorem forth_back (v : Vec ℝ n) : Q.forth (Q.back v) = v := by
  refine vec_ext fun i => ?_
  simp only [forth, back, get_ofFn, Equiv.symm_apply_apply]
  rw [← mul_assoc, sign_mul_self, one_mul]

theorem back_forth (z : Vec ℝ n) : Q.back (Q.forth z) = z := by
  refine vec_ext fun j => ?_
  simp only [forth, back, get_ofFn, Equiv.apply_symm_apply]
  rw [← mul_assoc, sign_mul_self, one_mul]

/-! ### Vectors -/

theorem back_add (u v : Vec ℝ n) : Q.back (u + v) = Q.back u + Q.back v := by
  refine vec_ext fun j => ?_
  simp only [back, get_ofFn, get_add, mul_add]

theorem back_sub (u v : Vec ℝ n) : Q.back (u - v) = Q.back u - Q.back v := by
  refine vec_ext fun j => ?_
  simp only [back, get_ofFn, get_sub, mul_sub]

theorem back_neg (v : Vec ℝ n) : Q.back (-v) = -Q.back v := by
  refine vec_ext fun j => ?_
  simp only [back, get_ofFn, get_neg, mul_neg]

theorem back_smul (r : ℝ) (v : Vec ℝ n) : Q.back (r * v) = r * Q.back v := by
  refine vec_ext fun j => ?_
  simp only [back, get_ofFn, get_smul]
  ring

/-- **The largest entry stays the largest.** -/
theorem normInf_back (v : Vec ℝ n) : normInf (Q.back v) = normInf v := by
  refine eq_of_forall_ge_iff fun r => ?_
  rw [normInf_le_iff, normInf_le_iff]
  have hentry (j : Fin n) : |(Q.back v).get j| = |v.get (Q.perm.symm j)| := by
    rw [back, get_ofFn, abs_mul, Q.abs_sign, one_mul]
  simp only [hentry]
  exact and_congr_right fun _ => Q.perm.symm.forall_congr_right (q := fun i => |v.get i| ≤ r)

/-! ### Matrices -/

theorem isUnit_matrix : IsUnit Q.matrix := .of_mul_eq_one_right _ Q.transpose_mul_matrix

/-- Steps and gradients are the same, as the transpose is the inverse. -/
theorem stepIn_matrix (v : Vec ℝ n) : stepIn Q.matrix v = Q.back v := by
  have hinv : Q.matrix⁻¹ = Q.matrixᵀ := inv_eq_left_inv Q.transpose_mul_matrix
  refine vec_ext (congrFun ?_)
  rw [get_stepIn, hinv, get_back]

theorem gradientIn_matrix (v : Vec ℝ n) : gradientIn Q.matrix v = Q.back v := by
  refine vec_ext (congrFun ?_)
  rw [get_gradientIn, get_back]

theorem hessianIn_matrix (H : Mat ℝ n n) : hessianIn Q.matrix H = Q.conj H := by
  refine toMatrix_injective ?_
  rw [toMatrix_hessianIn, toMatrix_conj]

theorem mulVec_conj (H : Mat ℝ n n) (v : Vec ℝ n) :
    (Q.conj H).mulVec (Q.back v) = Q.back (H.mulVec v) := by
  have himage := mulVec_in Q.isUnit_matrix H v
  rwa [hessianIn_matrix, stepIn_matrix, gradientIn_matrix] at himage

/-- **The secant update in the new coordinates** is the update, and is left out where it was. -/
theorem secantUpdate_conj (H : Mat ℝ n n) (dx y : Vec ℝ n) (tol : ℝ) :
    secantUpdate (Q.conj H) (Q.back dx) (Q.back y) tol = Q.updated (secantUpdate H dx y tol) := by
  have hupdate := secantUpdate_in Q.isUnit_matrix H dx y tol
  rwa [Updated.inVariables, Curvature.inVariables, hessianIn_matrix, hessianIn_matrix,
    stepIn_matrix, gradientIn_matrix, gradientIn_matrix] at hupdate

/-- The entries of the identity are the same in all coordinates. -/
theorem sign_mul_one (j k : Fin n) : Q.sign (Q.perm.symm j) * Q.sign (Q.perm.symm k) *
    (if Q.perm.symm j = Q.perm.symm k then 1 else 0) = if j = k then 1 else 0 := by
  by_cases h : j = k
  · rw [h, if_pos rfl, if_pos rfl, mul_one, sign_mul_self]
  · rw [if_neg h, if_neg fun hjk => h (Q.perm.symm.injective hjk), mul_zero]

theorem conj_identity : Q.conj (Mat.identity n) = Mat.identity n := by
  rw [conj, Mat.identity]
  simp only [entry_ofFn, sign_mul_one]

theorem addRidge_conj (H : Mat ℝ n n) (reg : ℝ) :
    addRidge (Q.conj H) reg = Q.conj (addRidge H reg) := by
  rw [conj, conj, addRidge, addRidge]
  congr 1
  funext j k
  rw [entry_ofFn, entry_ofFn, ← sign_mul_one Q j k]
  ring

theorem det_conj (H : Mat ℝ n n) : (Q.conj H).toMatrix.det = H.toMatrix.det := by
  rw [toMatrix_conj, mul_assoc, det_mul_comm, mul_assoc, mul_eq_one_comm.1 Q.transpose_mul_matrix,
    mul_one]

variable [Solver ℝ] [ExactSolver]

/-- **A system in the new coordinates** has the same solution there, and is singular where it was.
-/
theorem solve?_conj (H : Mat ℝ n n) (b : Vec ℝ n) :
    solve? (Q.conj H) (Q.back b) = (solve? H b).map Q.back := by
  by_cases hdet : H.toMatrix.det = 0
  · rw [solve?_eq_none hdet, solve?_eq_none ((Q.det_conj H).trans hdet)]
    rfl
  · have hdet' : (Q.conj H).toMatrix.det ≠ 0 := by rwa [det_conj]
    obtain ⟨x, hx, hsol⟩ := solve?_eq_some hdet b
    obtain ⟨z, hz, hsol'⟩ := solve?_eq_some hdet' (Q.back b)
    have himage : (Q.conj H).toMatrix *ᵥ z.get = (Q.conj H).toMatrix *ᵥ (Q.back x).get := by
      rw [← get_mulVec, ← get_mulVec, hsol', mulVec_conj, hsol]
    have hget : z.get = (Q.back x).get := mulVec_injective_of_det_ne_zero hdet' himage
    rw [hx, hz, Option.map_some]
    exact congrArg some (vec_ext (congrFun hget))

theorem solveRidged_conj (H : Mat ℝ n n) (b : Vec ℝ n) (reg : ℝ) :
    solveRidged (Q.conj H) (Q.back b) reg =
      ⟨(solveRidged H b reg).ridged, (solveRidged H b reg).solution.map Q.back⟩ := by
  unfold solveRidged
  rw [solve?_conj]
  cases hx : solve? H b with
  | some x => rfl
  | none =>
    simp only [Option.map_none]
    rw [addRidge_conj, solve?_conj]

end SignedPerm

/-! ### Points and values -/

/-- **A change of coordinates**: they are counted from `centre` and then turned, and values are
counted from another level. -/
structure Motion (n : ℕ) where
  turn : SignedPerm n
  centre : Vec ℝ n
  offset : ℝ

namespace Motion

variable (T : Motion n)

/-- A point in the new coordinates. -/
def point (x : Vec ℝ n) : Vec ℝ n := T.turn.back (x - T.centre)

/-- The point with the new coordinates `z`. -/
def unpoint (z : Vec ℝ n) : Vec ℝ n := T.turn.forth z + T.centre

theorem unpoint_point (x : Vec ℝ n) : T.unpoint (T.point x) = x := by
  refine vec_ext fun i => ?_
  rw [unpoint, point, SignedPerm.forth_back, get_add, get_sub, sub_add_cancel]

theorem point_add (x d : Vec ℝ n) : T.point (x + d) = T.point x + T.turn.back d := by
  have hcentre : x + d - T.centre = x - T.centre + d :=
    vec_ext fun i => by
      rw [get_sub, get_add, get_add, get_sub]
      ring
  rw [point, hcentre, SignedPerm.back_add]
  rfl

theorem point_sub (x y : Vec ℝ n) : T.point x - T.point y = T.turn.back (x - y) := by
  have hcentre : x - T.centre - (y - T.centre) = x - y :=
    vec_ext fun i => by
      simp only [get_sub]
      ring
  rw [point, point, ← SignedPerm.back_sub, hcentre]

end Motion

end VariableMetric
