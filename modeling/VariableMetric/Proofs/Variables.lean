import VariableMetric.Proofs.Secant

/-!
# Linear changes of variables

Over the reals a secant update does not depend on the variables that it is written in. With `x = Bz`
for an invertible `B`, steps go along by the inverse of `B`, changes of the gradient by its
transpose, and curvature matrices by both sides.

* `stepIn`, `gradientIn`, `hessianIn`: what steps, gradients and matrices are in new variables.
* `dot_in`, `mulVec_in`: inner products and images there.
* `secantUpdate_in`: **an update in new variables** is the update, and is left out where it was.
* `secantOutcomes_in`: so are all updates of a sequence.
* `updates_in_variables`: flags and matrices of one update and of sequences.
-/

namespace VariableMetric

open Matrix

/-! ### Sequences -/

section Sequences

variable {α : Type} [Scalar α] {n : ℕ}

/-- **The outcomes of a sequence of updates**, each made on the matrix of the one before. -/
def secantOutcomes (h : Mat α n n) : List (SecantStep α n) → List (Updated α n)
  | [] => []
  | p :: steps =>
    let u := secantUpdate h p.dx p.y p.tol
    u :: secantOutcomes u.matrix steps

/-- The matrices along a sequence are those of its outcomes. -/
theorem secantTrail_eq (h : Mat α n n) (steps : List (SecantStep α n)) :
    secantTrail h steps = h :: (secantOutcomes h steps).map Updated.matrix := by
  induction steps generalizing h with
  | nil => rfl
  | cons p steps ih =>
    have hnext := ih (SecantStep.update h p)
    rw [secantTrail, List.scanl_cons]
    exact congrArg (h :: ·) hnext

end Sequences

variable {n : ℕ} (B : Matrix (Fin n) (Fin n) ℝ)

/-- A step in the variables `z` with `x = Bz`. -/
noncomputable def stepIn (dx : Vec ℝ n) : Vec ℝ n := Vector.ofFn (B⁻¹ *ᵥ dx.get)

/-- A gradient in them. -/
def gradientIn (y : Vec ℝ n) : Vec ℝ n := Vector.ofFn (Bᵀ *ᵥ y.get)

/-- A curvature matrix in them. -/
def hessianIn (H : Mat ℝ n n) : Mat ℝ n n := Mat.ofFn (Bᵀ * H.toMatrix * B)

/-- A step with its change of the gradient. -/
noncomputable def SecantStep.inVariables (p : SecantStep ℝ n) : SecantStep ℝ n :=
  ⟨stepIn B p.dx, gradientIn B p.y, p.tol⟩

/-- The denominators of an update: the image is a gradient, and the numbers are the same. -/
def Curvature.inVariables (c : Curvature ℝ n) : Curvature ℝ n :=
  ⟨gradientIn B c.image, c.along, c.model⟩

/-- The outcome of an update. -/
def Updated.inVariables (u : Updated ℝ n) : Updated ℝ n :=
  ⟨hessianIn B u.matrix, u.applied, u.curvature.inVariables B⟩

theorem get_stepIn (dx : Vec ℝ n) : (stepIn B dx).get = B⁻¹ *ᵥ dx.get := ofFn_get _

theorem get_gradientIn (y : Vec ℝ n) : (gradientIn B y).get = Bᵀ *ᵥ y.get := ofFn_get _

theorem toMatrix_hessianIn (H : Mat ℝ n n) :
    (hessianIn B H).toMatrix = Bᵀ * H.toMatrix * B := toMatrix_ofFn _

/-- **A correction in new variables**, whatever the denominators are. -/
theorem correct_in (c : Curvature ℝ n) (H : Mat ℝ n n) (y : Vec ℝ n) :
    (c.inVariables B).correct (hessianIn B H) (gradientIn B y) = hessianIn B (c.correct H y) := by
  have hrank (v : Vec ℝ n) : vecMulVec (gradientIn B v).get (gradientIn B v).get =
      Bᵀ * vecMulVec v.get v.get * B := by
    rw [get_gradientIn, mul_vecMulVec, vecMulVec_mul, mulVec_transpose]
  refine toMatrix_injective ?_
  rw [toMatrix_correct, toMatrix_hessianIn, toMatrix_hessianIn, toMatrix_correct, hrank,
    Curvature.inVariables, hrank]
  simp only [mul_add, mul_sub, add_mul, sub_mul, Matrix.mul_smul, Matrix.smul_mul]

variable {B} (hB : IsUnit B)
include hB

theorem mulVec_stepIn (dx : Vec ℝ n) : B *ᵥ (stepIn B dx).get = dx.get := by
  have hdet : IsUnit B.det := (isUnit_iff_isUnit_det B).1 hB
  rw [get_stepIn, mulVec_mulVec, mul_nonsing_inv B hdet, one_mulVec]

/-- A gradient along a step is the same number in all variables. -/
theorem dot_in (y dx : Vec ℝ n) : dot (gradientIn B y) (stepIn B dx) = dot y dx := by
  rw [dot_eq, dot_eq, get_gradientIn, mulVec_transpose, ← dotProduct_mulVec, mulVec_stepIn hB]

/-- The image of a step is a gradient. -/
theorem mulVec_in (H : Mat ℝ n n) (dx : Vec ℝ n) :
    (hessianIn B H).mulVec (stepIn B dx) = gradientIn B (H.mulVec dx) := by
  refine vec_ext (congrFun ?_)
  rw [get_mulVec, toMatrix_hessianIn, ← mulVec_mulVec, mulVec_stepIn hB, ← mulVec_mulVec,
    get_gradientIn, get_mulVec]

/-- **The denominators of an update** are the same in all variables. -/
theorem curvature_in (H : Mat ℝ n n) (dx y : Vec ℝ n) :
    Curvature.of (hessianIn B H) (stepIn B dx) (gradientIn B y) =
      (Curvature.of H dx y).inVariables B := by
  have hmodel : dot (stepIn B dx) (gradientIn B (H.mulVec dx)) = dot dx (H.mulVec dx) := by
    have hcomm (u v : Vec ℝ n) : dot u v = dot v u := by
      rw [dot_eq, dot_eq, dotProduct_comm]
    rw [hcomm, dot_in hB, hcomm]
  simp only [Curvature.of, Curvature.inVariables, mulVec_in hB, dot_in hB, hmodel]

/-- **An update in new variables** is the update, and is left out where it was. -/
theorem secantUpdate_in (H : Mat ℝ n n) (dx y : Vec ℝ n) (tol : ℝ) :
    secantUpdate (hessianIn B H) (stepIn B dx) (gradientIn B y) tol =
      (secantUpdate H dx y tol).inVariables B := by
  have husable : ((Curvature.of H dx y).inVariables B).usable tol =
      (Curvature.of H dx y).usable tol := rfl
  simp only [secantUpdate, curvature_in hB, husable, correct_in]
  split <;> rfl

/-- **A sequence of updates in new variables**: by induction over its steps, from any matrix. -/
theorem secantOutcomes_in (H : Mat ℝ n n) (steps : List (SecantStep ℝ n)) :
    secantOutcomes (hessianIn B H) (steps.map (SecantStep.inVariables B)) =
      (secantOutcomes H steps).map (Updated.inVariables B) := by
  induction steps generalizing H with
  | nil => rfl
  | cons p steps ih =>
    have hstep := secantUpdate_in hB H p.dx p.y p.tol
    have hrest := ih (secantUpdate H p.dx p.y p.tol).matrix
    simp only [List.map_cons, secantOutcomes, SecantStep.inVariables, hstep]
    exact congrArg (_ :: ·) hrest

/-- **Updates do not depend on the variables.** In new variables an update is made where it was
made, and its matrix is that of the update there; and so it is along every sequence of updates. -/
theorem updates_in_variables (H : Mat ℝ n n) :
    (∀ (dx y : Vec ℝ n) (tol : ℝ),
      let u := secantUpdate H dx y tol
      let u' := secantUpdate (hessianIn B H) (stepIn B dx) (gradientIn B y) tol
      u'.applied = u.applied ∧ u'.matrix.toMatrix = Bᵀ * u.matrix.toMatrix * B) ∧
    ∀ steps : List (SecantStep ℝ n),
      let steps' := steps.map (SecantStep.inVariables B)
      (secantOutcomes (hessianIn B H) steps').map Updated.applied =
        (secantOutcomes H steps).map Updated.applied ∧
      secantTrail (hessianIn B H) steps' = (secantTrail H steps).map (hessianIn B) := by
  refine ⟨fun dx y tol => ?_, fun steps => ?_⟩
  · intro u u'
    have hu : u' = u.inVariables B := secantUpdate_in hB H dx y tol
    rw [hu]
    exact ⟨rfl, toMatrix_hessianIn B u.matrix⟩
  · intro steps'
    have hall : secantOutcomes (hessianIn B H) steps' =
        (secantOutcomes H steps).map (Updated.inVariables B) := secantOutcomes_in hB H steps
    refine ⟨?_, ?_⟩
    · rw [hall, List.map_map]
      rfl
    · rw [secantTrail_eq, secantTrail_eq, hall, List.map_cons, List.map_map, List.map_map]
      rfl

omit hB in
/-- Two updates of a matrix that is not symmetric, in sheared variables. One is made, and one is
left out. -/
theorem updates_in_variables_sheared :
    let B : Matrix (Fin 2) (Fin 2) ℝ := !![1, 1; 0, 1]
    let H : Mat ℝ 2 2 := #v[#v[2, 1], #v[0, 1]]
    let steps : List (SecantStep ℝ 2) := [⟨#v[1, 0], #v[3, 5], 0⟩, ⟨#v[0, 1], #v[1, -1], 1⟩]
    IsUnit B ∧
      (secantOutcomes (hessianIn B H) (steps.map (SecantStep.inVariables B))).map Updated.applied =
        [true, false] ∧
      secantTrail (hessianIn B H) (steps.map (SecantStep.inVariables B)) =
        (secantTrail H steps).map (hessianIn B) := by
  intro B H steps
  have hB : IsUnit B := by
    rw [isUnit_iff_isUnit_det, det_fin_two_of]
    norm_num
  obtain ⟨hflags, htrail⟩ := (updates_in_variables hB H).2 steps
  have hfirst : (secantUpdate H #v[1, 0] #v[3, 5] (0 : ℝ)).applied = true := by
    rw [secantUpdate_applied_iff, toMatrix_pair, get_pair, get_pair]
    norm_num [mulVec, dotProduct, Fin.sum_univ_two]
  have hsecond (h : Mat ℝ 2 2) : (secantUpdate h #v[0, 1] #v[1, -1] (1 : ℝ)).applied = false := by
    rw [← Bool.not_eq_true, secantUpdate_applied_iff, get_pair, get_pair]
    norm_num [dotProduct, Fin.sum_univ_two]
  refine ⟨hB, ?_, htrail⟩
  rw [hflags]
  simp only [steps, secantOutcomes, List.map_cons, List.map_nil, hfirst, hsecond]

end VariableMetric
