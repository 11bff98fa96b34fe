import Mathlib.Algebra.Order.Star.Real
import Mathlib.Tactic.FieldSimp
import Mathlib.Tactic.Positivity
import VariableMetric.Proofs.Exact

/-!
# Secant updates keep a matrix positive definite

Over the reals, whatever the steps and the changes of the gradient along them.

* `form_correct`: the quadratic form of the corrected matrix.
* `form_sub_smul`: what a multiple of the step takes off a vector takes off its form the part that
  the negative term of the correction takes off.
* `posDef_secantUpdate`: one update, made or left out.
* `posDef_secantTrail`: **every matrix along a sequence of updates**.
-/

namespace VariableMetric

open Matrix

section Forms

variable {n : ℕ} {M : Matrix (Fin n) (Fin n) ℝ}

/-- The form of a symmetric matrix is symmetric. -/
theorem form_comm (hM : M.IsHermitian) (u v : Fin n → ℝ) : u ⬝ᵥ M *ᵥ v = v ⬝ᵥ M *ᵥ u := by
  have ht : Mᵀ = M := hM
  rw [dotProduct_mulVec, ← mulVec_transpose, ht, dotProduct_comm]

/-- The form of a positive definite matrix is positive. -/
theorem form_pos (hM : M.PosDef) {x : Fin n → ℝ} (hx : x ≠ 0) : 0 < x ⬝ᵥ M *ᵥ x := by
  have hform := hM.dotProduct_mulVec_pos hx
  rwa [star_trivial] at hform

theorem dot_self_pos {x : Fin n → ℝ} (hx : x ≠ 0) : 0 < x ⬝ᵥ x := by
  have hform := form_pos PosDef.one hx
  rwa [one_mulVec] at hform

/-- **What a multiple of `s` takes off.** The multiple that makes the rest conjugate to `s` takes
the square of the mixed term, over the form of `s`, off the form of `x`. -/
theorem form_sub_smul (hM : M.IsHermitian) {s : Fin n → ℝ} (hs : s ⬝ᵥ M *ᵥ s ≠ 0) (x : Fin n → ℝ) :
    (x - ((x ⬝ᵥ M *ᵥ s) / (s ⬝ᵥ M *ᵥ s)) • s) ⬝ᵥ M *ᵥ (x - ((x ⬝ᵥ M *ᵥ s) / (s ⬝ᵥ M *ᵥ s)) • s) =
      x ⬝ᵥ M *ᵥ x - (x ⬝ᵥ M *ᵥ s) ^ 2 / (s ⬝ᵥ M *ᵥ s) := by
  have hc : s ⬝ᵥ M *ᵥ x = x ⬝ᵥ M *ᵥ s := form_comm hM s x
  rw [mulVec_sub, mulVec_smul]
  simp only [sub_dotProduct, dotProduct_sub, smul_dotProduct, dotProduct_smul, smul_eq_mul, hc]
  field_simp
  ring

/-- **The form of the corrected matrix.** -/
theorem form_correct (s y x : Fin n → ℝ) (p q : ℝ) :
    x ⬝ᵥ (M + p⁻¹ • vecMulVec y y - q⁻¹ • vecMulVec (M *ᵥ s) (M *ᵥ s)) *ᵥ x =
      x ⬝ᵥ M *ᵥ x + (y ⬝ᵥ x) ^ 2 / p - (x ⬝ᵥ M *ᵥ s) ^ 2 / q := by
  have hrank (u : Fin n → ℝ) : x ⬝ᵥ vecMulVec u u *ᵥ x = (u ⬝ᵥ x) ^ 2 := by
    rw [vecMulVec_mulVec, op_smul_eq_smul, dotProduct_smul, smul_eq_mul, dotProduct_comm x u, sq]
  simp only [sub_mulVec, add_mulVec, smul_mulVec, dotProduct_sub, dotProduct_add, dotProduct_smul,
    smul_eq_mul, hrank]
  rw [dotProduct_comm (M *ᵥ s) x]
  ring

/-- **The correction keeps a matrix positive definite** when both denominators are positive. A
vector that is no multiple of the step has a positive rest; of a multiple of the step the first term
is positive. -/
theorem posDef_correct (hM : M.PosDef) {s y : Fin n → ℝ} (hys : 0 < y ⬝ᵥ s)
    (hs : 0 < s ⬝ᵥ M *ᵥ s) :
    (M + (y ⬝ᵥ s)⁻¹ • vecMulVec y y -
      (s ⬝ᵥ M *ᵥ s)⁻¹ • vecMulVec (M *ᵥ s) (M *ᵥ s)).PosDef := by
  have hrank (u : Fin n → ℝ) (r : ℝ) : (r • vecMulVec u u).IsHermitian := by
    unfold Matrix.IsHermitian
    rw [conjTranspose_eq_transpose_of_trivial, transpose_smul, transpose_vecMulVec]
  refine .of_dotProduct_mulVec_pos ((hM.isHermitian.add (hrank _ _)).sub (hrank _ _)) ?_
  intro x hx
  rw [star_trivial, form_correct]
  set t := (x ⬝ᵥ M *ᵥ s) / (s ⬝ᵥ M *ᵥ s) with ht
  have hrest := form_sub_smul hM.isHermitian hs.ne' x
  rw [← ht] at hrest
  by_cases hz : x - t • s = 0
  · -- `x` is a multiple of `s`, whose form the negative term takes off whole
    have hxs : x = t • s := sub_eq_zero.1 hz
    have ht0 : t ≠ 0 := by
      intro h0
      exact hx (by rw [hxs, h0, zero_smul])
    have hyx : y ⬝ᵥ x = t * (y ⬝ᵥ s) := by
      conv_lhs => rw [hxs]
      rw [dotProduct_smul, smul_eq_mul]
    have hrest0 : x ⬝ᵥ M *ᵥ x - (x ⬝ᵥ M *ᵥ s) ^ 2 / (s ⬝ᵥ M *ᵥ s) = 0 := by
      rw [← hrest, hz, zero_dotProduct]
    have hpos : 0 < (y ⬝ᵥ x) ^ 2 / (y ⬝ᵥ s) := by
      rw [hyx]; positivity
    linarith
  · -- the rest of `x` is not zero, and its form is what the negative term leaves
    have hpos := hM.dotProduct_mulVec_pos hz
    rw [star_trivial, hrest] at hpos
    have hnn : 0 ≤ (y ⬝ᵥ x) ^ 2 / (y ⬝ᵥ s) := by positivity
    linarith

end Forms

variable {n : ℕ}

/-- The denominators of a secant update are inner products of the algebra. -/
theorem curvature_of (h : Mat ℝ n n) (dx y : Vec ℝ n) :
    (Curvature.of h dx y).along = y.get ⬝ᵥ dx.get ∧
      (Curvature.of h dx y).model = dx.get ⬝ᵥ h.toMatrix *ᵥ dx.get ∧
      (Curvature.of h dx y).image.get = h.toMatrix *ᵥ dx.get := by
  refine ⟨dot_eq y dx, ?_, get_mulVec h dx⟩
  show dot dx (h.mulVec dx) = _
  rw [dot_eq, get_mulVec]

/-- **One update keeps a matrix positive definite**, whether it is made or left out. -/
theorem posDef_secantUpdate {h : Mat ℝ n n} (hh : h.toMatrix.PosDef) (dx y : Vec ℝ n) {tol : ℝ}
    (htol : 0 ≤ tol) : (secantUpdate h dx y tol).matrix.toMatrix.PosDef := by
  obtain ⟨halong, hmodel, himage⟩ := curvature_of h dx y
  unfold secantUpdate
  simp only
  split
  · rename_i huse
    simp only [Curvature.usable, real_lt, Bool.and_eq_true, decide_eq_true_eq] at huse
    rw [toMatrix_correct, halong, hmodel, himage]
    rw [halong, hmodel] at huse
    exact posDef_correct hh (htol.trans_lt huse.1) (htol.trans_lt huse.2)
  · exact hh

/-- A step, the change of the gradient along it, and the threshold for both denominators. -/
structure SecantStep (α : Type) (n : ℕ) where
  dx : Vec α n
  y : Vec α n
  tol : α

/-- The matrix after the update of a step. -/
def SecantStep.update {α : Type} [Scalar α] (h : Mat α n n) (p : SecantStep α n) : Mat α n n :=
  (secantUpdate h p.dx p.y p.tol).matrix

/-- **The matrices along a sequence of updates**, each made on the outcome of the one before. -/
def secantTrail {α : Type} [Scalar α] (h : Mat α n n) (steps : List (SecantStep α n)) :
    List (Mat α n n) :=
  steps.scanl SecantStep.update h

/-- **Every matrix along a sequence of updates is positive definite** if the first is, whatever the
steps and the changes of the gradient, and whichever updates are left out. -/
theorem posDef_secantTrail {h : Mat ℝ n n} (hh : h.toMatrix.PosDef)
    {steps : List (SecantStep ℝ n)} (htol : ∀ p ∈ steps, 0 ≤ p.tol) :
    ∀ a ∈ secantTrail h steps, a.toMatrix.PosDef := by
  induction steps generalizing h with
  | nil =>
    intro a ha
    rw [secantTrail, List.scanl_nil, List.mem_singleton] at ha
    exact ha ▸ hh
  | cons p steps ih =>
    intro a ha
    rw [secantTrail, List.scanl_cons, List.mem_cons] at ha
    rcases ha with rfl | ha
    · exact hh
    · have hp : (SecantStep.update h p).toMatrix.PosDef :=
        posDef_secantUpdate hh p.dx p.y (htol p (by simp))
      exact ih hp (fun q hq => htol q (List.mem_cons_of_mem _ hq)) a ha

/-- The identity, one update that is made and one that is left out. -/
theorem posDef_secantTrail_mixed :
    (Mat.identity 2 : Mat ℝ 2 2).toMatrix.PosDef ∧
      (∀ p ∈ [(⟨#v[1, 0], #v[2, 1], 0⟩ : SecantStep ℝ 2), ⟨#v[0, 1], #v[1, -1], 1⟩], 0 ≤ p.tol) ∧
      (secantUpdate (Mat.identity 2) #v[1, 0] #v[2, 1] (0 : ℝ)).applied = true ∧
      (∀ h, (secantUpdate h #v[0, 1] #v[1, -1] (1 : ℝ)).applied = false) ∧
      ∀ a ∈ secantTrail (Mat.identity 2)
        [(⟨#v[1, 0], #v[2, 1], 0⟩ : SecantStep ℝ 2), ⟨#v[0, 1], #v[1, -1], 1⟩],
        a.toMatrix.PosDef := by
  have hid : (Mat.identity 2 : Mat ℝ 2 2).toMatrix.PosDef := toMatrix_identity ▸ PosDef.one
  have htol : ∀ p ∈ [(⟨#v[1, 0], #v[2, 1], 0⟩ : SecantStep ℝ 2), ⟨#v[0, 1], #v[1, -1], 1⟩],
      0 ≤ p.tol := by
    intro p hp
    simp only [List.mem_cons, List.not_mem_nil, or_false] at hp
    rcases hp with rfl | rfl <;> norm_num
  refine ⟨hid, htol, ?_, ?_, posDef_secantTrail hid htol⟩
  · obtain ⟨halong, hmodel, -⟩ := curvature_of (Mat.identity 2) (#v[1, 0] : Vec ℝ 2) #v[2, 1]
    have h1 : (#v[2, 1] : Vec ℝ 2).get ⬝ᵥ (#v[1, 0] : Vec ℝ 2).get = 2 := by
      simp [dotProduct, Vector.get]
    have h2 : (#v[1, 0] : Vec ℝ 2).get ⬝ᵥ (#v[1, 0] : Vec ℝ 2).get = 1 := by
      simp [dotProduct, Vector.get]
    rw [toMatrix_identity, one_mulVec, h2] at hmodel
    rw [h1] at halong
    simp [secantUpdate, Curvature.usable, halong, hmodel]
  · intro h
    obtain ⟨halong, -, -⟩ := curvature_of h (#v[0, 1] : Vec ℝ 2) #v[1, -1]
    have h1 : (#v[1, -1] : Vec ℝ 2).get ⬝ᵥ (#v[0, 1] : Vec ℝ 2).get = -1 := by
      simp [dotProduct, Vector.get]
    rw [h1] at halong
    have hlt : ¬ (1 : ℝ) < -1 := by norm_num
    simp [secantUpdate, Curvature.usable, halong, hlt]

end VariableMetric
