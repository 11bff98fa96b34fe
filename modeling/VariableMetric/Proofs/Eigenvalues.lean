import Mathlib.Analysis.Matrix.PosDef
import Mathlib.LinearAlgebra.Matrix.Charpoly.Eigs
import VariableMetric.Proofs.Definite
import VariableMetric.Proofs.Shaped

/-!
# Eigenvalues decide how large a quadratic form is

The test for positive definite matrices looks at the eigenvalues of the mean of a matrix and its
transpose. That mean has the quadratic form of the matrix itself, and by the spectral theorem all
its eigenvalues are above a number exactly when the form is above that multiple of the square.

* `meanWithTranspose`, `isPosDef_ofMat`: what the test does to a matrix.
* `posDef_iff_spectrum`, `form_above_iff`: **eigenvalues and forms**.
* `ExactSpectrum`: the assumption on what finds eigenvalues; `spectrumByRoots` meets it.
* `isPosDef_iff_form`: **the test is that of the quadratic form**, in every dimension and for every
  matrix.
-/

namespace VariableMetric

open Matrix

variable {α : Type} {m n : ℕ}

/-! ### The test on a matrix -/

/-- The mean of a matrix and its transpose. -/
def meanWithTranspose [Scalar α] (a : Mat α n n) : Mat α n n :=
  Mat.ofFn fun i j => (a.entry i j + a.entry j i) / (1 + 1)

namespace NdArray

/-- With the axes in reverse, rows and columns change their parts. -/
theorem reversedPlace_pair (i : Fin n) (j : Fin m) :
    reversedPlace [m, n] (i.val * m + j.val) = j.val * n + i.val := by
  have hone : Shape.cells [n] = n := Nat.mul_one n
  have hnil : Shape.cells [] = 1 := rfl
  simp only [reversedPlace, place_div, place_mod, hone, hnil, Nat.mod_eq_of_lt i.isLt]
  omega

variable [Scalar α]

/-- **The transpose of a matrix** as an array. -/
theorem transpose_ofMat (a : Mat α m n) : (ofMat a).transpose = ofMat a.transpose := by
  refine eq_ofMat fun i j => ?_
  have hplace : reversedPlace (ofMat a).shape (i.val * m + j.val) = j.val * n + i.val :=
    reversedPlace_pair i j
  have hentry : (ofMat a).transpose.entries[i.val * m + j.val]? =
      some (((ofMat a).entries[reversedPlace (ofMat a).shape (i.val * m + j.val)]?).getD 0) :=
    (Vector.getElem?_eq_getElem (place_lt_cells i j)).trans
      (congrArg some (Vector.getElem_ofFn (place_lt_cells i j)))
  rw [hplace, getElem?_ofMat] at hentry
  rw [Mat.transpose, entry_ofFn]
  exact hentry

theorem zipWith?_mean (a : Mat α n n) :
    zipWith? (fun u v => (u + v) / (1 + 1)) (ofMat a) (ofMat a).transpose =
      some (ofMat (meanWithTranspose a)) := by
  have hshape : broadcastShape? [n, n] [n, n] = some [n, n] := by
    simp [broadcastShape?, broadcastReversed?, broadcastExtent?]
  rw [transpose_ofMat,
    zipWith?_of_covers _ hshape (covers_ofMat a) (covers_ofMat a.transpose)]
  simp only [Mat.transpose, entry_ofFn, meanWithTranspose]

/-- **The eigenvalues of a matrix** as an array. -/
theorem eigenvalues_ofMat [Spectrum α] (a : Mat α n n) :
    (ofMat a).eigenvalues =
      match Spectrum.eigenvalues? a with
      | some v => .ok (ofVec v)
      | none => .error .eigenvaluesUnsettled := by
  have hsplit : (ofMat a).shape.split? = some ([], n, n) := rfl
  have honly : Stack.only ((ofMat a).toStack [] n n).items = a :=
    congrArg Stack.only (eq_of_heq (Stack.mk.inj (toStack_ofMat a)).2)
  have hmap : ((ofMat a).toStack [] n n).items.mapM Spectrum.eigenvalues? =
      (Spectrum.eigenvalues? a).map fun v => #v[v] := by
    refine (Stack.mapM_only Spectrum.eigenvalues? _).trans ?_
    rw [honly]
  unfold eigenvalues
  rw [hsplit]
  dsimp only
  rw [if_neg (not_not_intro rfl)]
  split
  · rename_i roots hroots
    obtain ⟨v, hv, hone⟩ := Option.map_eq_some_iff.1 (hmap.symm.trans hroots)
    have hlist : roots.toList.flatMap Vector.toList = v.toList := by
      rw [← hone]
      exact List.append_nil _
    rw [hv, hlist]
    exact congrArg Except.ok (ofList_toList v)
  · rename_i hroots
    rw [Option.map_eq_none_iff.1 (hmap.symm.trans hroots)]

/-- A vector of its own length needs no stretching. -/
theorem stretch_ofVec (v : Vec α n) : ((ofVec v).stretch [n]).entries.toList = v.toList := by
  have hplace (i : Fin n) : sourcePlace [n] [n] i.val = i.val := by
    have hmod : (if n = 1 then 0 else i.val % n) = i.val := by
      split
      · omega
      · exact Nat.mod_eq_of_lt i.isLt
    simp only [sourcePlace, hmod, Nat.mul_zero, Nat.add_zero]
  have hlength : ((ofVec v).stretch [n]).entries.toList.length = v.toList.length := by
    rw [Vector.length_toList, Vector.length_toList]
    exact Nat.mul_one n
  refine List.ext_getElem hlength fun i hi hi' => ?_
  have hin : i < n := by simpa using hi'
  have hentry : ((ofVec v).stretch [n]).entries.toList[i] =
      ((ofVec v).entries[sourcePlace [n] [n] i]?).getD 0 := by
    rw [Vector.getElem_toList]
    exact Vector.getElem_ofFn _
  have hsource := getElem?_ofVec v ⟨i, hin⟩
  rw [hentry, hplace ⟨i, hin⟩, hsource]
  exact (Vector.getElem_toList hi').symm

/-- A test on its own is stretched to as many as there are numbers. -/
theorem stretchWith_ofScalar {β : Type} (fill b : β) (n : ℕ) :
    ((ofScalar b).stretchWith fill [n]).entries.toList = List.replicate n b := by
  have hlength : ((ofScalar b).stretchWith fill [n]).entries.toList.length =
      (List.replicate n b).length := by
    rw [Vector.length_toList, List.length_replicate]
    exact Nat.mul_one n
  refine List.ext_getElem hlength fun i hi hi' => ?_
  rw [Vector.getElem_toList, List.getElem_replicate]
  exact Vector.getElem_ofFn _

/-- **Every number is put to the test** that stands alone. -/
theorem passes_above (v : Vec α n) (tol : α) :
    (ofVec v).passes (.above tol) = .ok (v.toList.all (Scalar.lt tol)) := by
  have hshape : broadcastShape? (ofVec v).shape (Bound.above tol).shape = some [n] := rfl
  have hzip (f : α → Except Fault Bool) :
      (List.replicate n f).zip v.toList = v.toList.map fun x => (f, x) := by
    refine List.ext_getElem (by simp) fun i hi hi' => ?_
    simp
  have houtcomes : v.toList.mapM (fun x => (.ok (Scalar.lt tol x) : Except Fault Bool)) =
      .ok (v.toList.map (Scalar.lt tol)) := List.mapM_pure
  have hall : (v.toList.map (Scalar.lt tol)).all id = v.toList.all (Scalar.lt tol) := by
    rw [List.all_map]
    rfl
  unfold passes
  rw [hshape]
  dsimp only
  rw [Bound.above, stretchWith_ofScalar, stretch_ofVec, hzip, List.mapM_map, ← hall]
  exact congrArg (· >>= fun outcomes => pure (outcomes.all id)) houtcomes

theorem isPosDef_ofMat [Spectrum α] (a : Mat α n n) (tol : α) :
    isPosDef (ofMat a) (.ok (.above tol)) =
      match Spectrum.eigenvalues? (meanWithTranspose a) with
      | some v => .ok (v.toList.all (Scalar.lt tol))
      | none => .error .eigenvaluesUnsettled := by
  unfold isPosDef
  rw [zipWith?_mean]
  dsimp only
  rw [eigenvalues_ofMat]
  cases Spectrum.eigenvalues? (meanWithTranspose a) with
  | none => rfl
  | some v => exact passes_above v tol

end NdArray

/-! ### Eigenvalues and quadratic forms -/

section Forms

variable {M : Matrix (Fin n) (Fin n) ℝ}

/-- The mean of a matrix and its transpose is symmetric, -/
theorem isHermitian_mean (a : Mat ℝ n n) : (meanWithTranspose a).toMatrix.IsHermitian := by
  ext i j
  simp only [meanWithTranspose, conjTranspose_apply, star_trivial, toMatrix_apply, entry_ofFn]
  rw [add_comm]

/-- and has the quadratic form of the matrix. -/
theorem form_mean (a : Mat ℝ n n) (x : Fin n → ℝ) :
    x ⬝ᵥ (meanWithTranspose a).toMatrix *ᵥ x = x ⬝ᵥ a.toMatrix *ᵥ x := by
  have hmean : (meanWithTranspose a).toMatrix = (1 / 2 : ℝ) • (a.toMatrix + a.toMatrixᵀ) := by
    ext i j
    simp only [meanWithTranspose, toMatrix_apply, entry_ofFn, Matrix.smul_apply, Matrix.add_apply,
      transpose_apply, smul_eq_mul]
    ring
  have htranspose : x ⬝ᵥ a.toMatrixᵀ *ᵥ x = x ⬝ᵥ a.toMatrix *ᵥ x := by
    rw [mulVec_transpose, dotProduct_comm, ← dotProduct_mulVec]
  rw [hmean, smul_mulVec, add_mulVec, dotProduct_smul, dotProduct_add, htranspose, smul_eq_mul]
  ring

/-- **Positive definite** is what has a spectrum above zero. -/
theorem posDef_iff_spectrum (hM : M.IsHermitian) : M.PosDef ↔ ∀ r ∈ spectrum ℝ M, 0 < r := by
  rw [hM.posDef_iff_eigenvalues_pos, hM.spectrum_real_eq_range_eigenvalues, Set.forall_mem_range]

/-- **A form is above a multiple of the square** when the spectrum is above the factor. The multiple
is taken off the matrix, which moves its spectrum. -/
theorem form_above_iff (hM : M.IsHermitian) (tol : ℝ) :
    (∀ x, x ≠ 0 → tol * (x ⬝ᵥ x) < x ⬝ᵥ M *ᵥ x) ↔ ∀ r ∈ spectrum ℝ M, tol < r := by
  have hone : (tol • (1 : Matrix (Fin n) (Fin n) ℝ)).IsHermitian := by
    unfold Matrix.IsHermitian
    rw [conjTranspose_eq_transpose_of_trivial, transpose_smul, transpose_one]
  have hform (x : Fin n → ℝ) : x ⬝ᵥ (M - tol • 1) *ᵥ x = x ⬝ᵥ M *ᵥ x - tol * (x ⬝ᵥ x) := by
    rw [sub_mulVec, dotProduct_sub, smul_mulVec, one_mulVec, dotProduct_smul, smul_eq_mul]
  have hdef : (M - tol • 1).PosDef ↔ ∀ x, x ≠ 0 → tol * (x ⬝ᵥ x) < x ⬝ᵥ M *ᵥ x := by
    constructor
    · intro h x hx
      have hpos := form_pos h hx
      rw [hform] at hpos
      linarith
    · intro h
      refine .of_dotProduct_mulVec_pos (hM.sub hone) fun x hx => ?_
      rw [star_trivial, hform]
      linarith [h x hx]
  have hmove (r : ℝ) : r ∈ spectrum ℝ (M - tol • 1) ↔ r + tol ∈ spectrum ℝ M := by
    rw [spectrum.add_mem_iff, Algebra.algebraMap_eq_smul_one, neg_add_eq_sub]
  rw [← hdef, posDef_iff_spectrum (hM.sub hone)]
  constructor
  · intro h r hr
    have hpos : 0 < r - tol := h (r - tol) ((hmove _).2 (by rwa [sub_add_cancel]))
    linarith
  · intro h r hr
    have habove : tol < r + tol := h (r + tol) ((hmove r).1 hr)
    linarith

end Forms

/-! ### All eigenvalues -/

/-- **What is assumed of what finds eigenvalues**: of a symmetric matrix it returns all of them,
each as often as it is a root of the characteristic polynomial, in ascending order. -/
class ExactSpectrum [Spectrum ℝ] : Prop where
  finds {n : ℕ} (a : Mat ℝ n n) : a.toMatrix.IsHermitian →
    ∃ v, Spectrum.eigenvalues? a = some v ∧ v.toList.Pairwise (· ≤ ·) ∧
      (v.toList : Multiset ℝ) = a.toMatrix.charpoly.roots

theorem eigenvalues?_eq_some [Spectrum ℝ] [ExactSpectrum] {a : Mat ℝ n n}
    (ha : a.toMatrix.IsHermitian) :
    ∃ v, Spectrum.eigenvalues? a = some v ∧ ∀ r, r ∈ v.toList ↔ r ∈ spectrum ℝ a.toMatrix := by
  obtain ⟨v, hv, -, hroots⟩ := ExactSpectrum.finds a ha
  refine ⟨v, hv, fun r => ?_⟩
  rw [← Multiset.mem_coe, hroots, Polynomial.mem_roots (charpoly_monic _).ne_zero,
    mem_spectrum_iff_isRoot_charpoly]

/-- **The test is that of the quadratic form.** Whether the matrix is symmetric or not, the test
comes to an answer, and passes exactly the matrices whose form is above `tol` times the square
everywhere but at zero. -/
theorem isPosDef_iff_form [Spectrum ℝ] [ExactSpectrum] (a : Mat ℝ n n) (tol : ℝ) :
    ∃ b, NdArray.isPosDef (.ofMat a) (.ok (.above tol)) = .ok b ∧
      (b = true ↔ ∀ x, x ≠ 0 → tol * (x ⬝ᵥ x) < x ⬝ᵥ a.toMatrix *ᵥ x) := by
  obtain ⟨v, hv, hmem⟩ := eigenvalues?_eq_some (isHermitian_mean a)
  refine ⟨v.toList.all (Scalar.lt tol), by rw [NdArray.isPosDef_ofMat, hv], ?_⟩
  have habove := form_above_iff (isHermitian_mean a) tol
  -- the mean is symmetric whatever the matrix is, and its form is that of the matrix
  simp only [form_mean] at habove
  rw [habove, List.all_eq_true]
  constructor
  · intro h r hr
    exact of_decide_eq_true (h r ((hmem r).2 hr))
  · intro h r hr
    exact decide_eq_true (h r ((hmem r).1 hr))

/-! ### Eigenvalues as roots -/

theorem isHermitian_mirrorLower (a : Mat ℝ n n) : (mirrorLower a).toMatrix.IsHermitian := by
  ext i j
  simp only [mirrorLower, conjTranspose_apply, star_trivial, toMatrix_apply, entry_ofFn]
  rcases lt_trichotomy i j with h | rfl | h
  · rw [if_pos h.le, if_neg h.not_ge]
  · rfl
  · rw [if_neg h.not_ge, if_pos h.le]

/-- A symmetric matrix is that of its lower triangle. -/
theorem mirrorLower_of_isHermitian {a : Mat ℝ n n} (ha : a.toMatrix.IsHermitian) :
    mirrorLower a = a := by
  refine Mat.ext_entry fun i j => ?_
  have hsymm : a.entry j i = a.entry i j := ha.apply i j
  simp only [mirrorLower, entry_ofFn, hsymm, ite_self]

/-- A symmetric matrix has as many eigenvalues as rows. -/
theorem card_roots {M : Matrix (Fin n) (Fin n) ℝ} (hM : M.IsHermitian) :
    M.charpoly.roots.card = n := by
  rw [hM.roots_charpoly_eq_eigenvalues, Multiset.card_map, Finset.card_val, Finset.card_univ,
    Fintype.card_fin]

/-- The roots of the characteristic polynomial, in ascending order. -/
noncomputable def ascendingRoots (a : Mat ℝ n n) : Vec ℝ n :=
  ⟨((mirrorLower a).toMatrix.charpoly.roots.sort (· ≤ ·)).toArray, by
    rw [List.size_toArray, Multiset.length_sort, card_roots (isHermitian_mirrorLower a)]⟩

/-- **Eigenvalues as roots** of the characteristic polynomial. -/
@[reducible] noncomputable def spectrumByRoots : Spectrum ℝ where
  eigenvalues? a := some (ascendingRoots a)

theorem spectrumByRoots_exact : @ExactSpectrum spectrumByRoots := by
  refine @ExactSpectrum.mk spectrumByRoots ?_
  intro n a ha
  have hroots : ((ascendingRoots a).toList : Multiset ℝ) =
      (mirrorLower a).toMatrix.charpoly.roots := Multiset.sort_eq _ _
  refine ⟨ascendingRoots a, rfl, Multiset.pairwise_sort _ _, ?_⟩
  rw [hroots, mirrorLower_of_isHermitian ha]

/-- A matrix that is not symmetric. The eigenvalues of its mean are one and three, so that it passes
with one half and not with one. -/
theorem isPosDef_iff_form_skewed :
    letI := spectrumByRoots
    let a : Mat ℝ 2 2 := #v[#v[2, 3], #v[-1, 2]]
    NdArray.isPosDef (.ofMat a) (.ok (.above (1 / 2))) = .ok true ∧
      NdArray.isPosDef (.ofMat a) (.ok (.above 1)) = .ok false := by
  let := spectrumByRoots
  have : ExactSpectrum := spectrumByRoots_exact
  intro a
  have hform (x : Fin 2 → ℝ) : x ⬝ᵥ a.toMatrix *ᵥ x = 2 * (x 0 ^ 2 + x 0 * x 1 + x 1 ^ 2) := by
    rw [toMatrix_pair]
    simp [mulVec, dotProduct, Fin.sum_univ_two]
    ring
  have hsquare (x : Fin 2 → ℝ) : x ⬝ᵥ x = x 0 ^ 2 + x 1 ^ 2 := by
    simp [dotProduct, Fin.sum_univ_two, sq]
  constructor
  · obtain ⟨b, hb, hiff⟩ := isPosDef_iff_form a (1 / 2)
    rw [hb, hiff.2]
    intro x hx
    have hpos := dot_self_pos hx
    rw [hsquare] at hpos
    rw [hform, hsquare]
    nlinarith [sq_nonneg (x 0 + x 1)]
  · obtain ⟨b, hb, hiff⟩ := isPosDef_iff_form a 1
    have hfalse : b ≠ true := by
      intro htrue
      have hlt := hiff.1 htrue ![1, -1] (by simp)
      rw [hform, hsquare] at hlt
      norm_num at hlt
    rw [hb, Bool.eq_false_iff.2 hfalse]

end VariableMetric
