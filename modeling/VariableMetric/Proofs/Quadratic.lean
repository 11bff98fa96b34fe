import VariableMetric.Proofs.Motion
import VariableMetric.Proofs.Pace
import VariableMetric.Proofs.Secant

/-!
# Quadratic objectives

In exact arithmetic a run on a quadratic objective can be followed by hand.

* `quadratic`: the objective `x'Ax / 2 - b'x + c`; `value_along`: its values along a direction.
* `State.On`: value and gradient are those of the objective, as every pace keeps them.
* `Pace.of_gradient_eq_zero`: **an iteration at the minimum** converges.
* `Pace.newton`: **an iteration with the exact curvature** comes to the minimum.
* `Pace.isotropic`: the first iteration where the curvature is the same in all directions.
-/

namespace VariableMetric

open Matrix

variable {n : ℕ} {A : Matrix (Fin n) (Fin n) ℝ} {b : Vec ℝ n} {c : ℝ}

/-- **The quadratic objective** `x'Ax / 2 - b'x + c`, with its gradient `Ax - b`. -/
noncomputable def quadratic (A : Matrix (Fin n) (Fin n) ℝ) (b : Vec ℝ n) (c : ℝ) : Oracle ℝ n :=
  let f (x : Vec ℝ n) : ℝ := 0.5 * (x.get ⬝ᵥ A *ᵥ x.get) - b.get ⬝ᵥ x.get + c
  ⟨f, fun x => (f x, Vector.ofFn (A *ᵥ x.get - b.get))⟩

theorem quadratic_value (x : Vec ℝ n) :
    (quadratic A b c).value x = x.get ⬝ᵥ A *ᵥ x.get / 2 - b.get ⬝ᵥ x.get + c := by
  have hhalf : 0.5 * (x.get ⬝ᵥ A *ᵥ x.get) = x.get ⬝ᵥ A *ᵥ x.get / 2 := by ring
  rw [← hhalf]
  rfl

theorem get_gradient (x : Vec ℝ n) :
    ((quadratic A b c).jet x).2.get = A *ᵥ x.get - b.get := ofFn_get _

/-- The objective that is a form. -/
theorem quadratic_value_form (x : Vec ℝ n) :
    (quadratic A 0 0).value x = x.get ⬝ᵥ A *ᵥ x.get / 2 := by
  rw [quadratic_value, zero_get, zero_dotProduct, sub_zero, add_zero]

theorem get_gradient_form (x : Vec ℝ n) : ((quadratic A 0 0).jet x).2.get = A *ᵥ x.get := by
  rw [get_gradient, zero_get, sub_zero]

/-- **The values along a direction.** -/
theorem value_along (hA : A.IsHermitian) {x z d : Vec ℝ n} {t : ℝ}
    (hz : z.get = x.get + t • d.get) :
    (quadratic A b c).value z =
      (quadratic A b c).value x + t * (d.get ⬝ᵥ (A *ᵥ x.get - b.get)) +
        t ^ 2 / 2 * (d.get ⬝ᵥ A *ᵥ d.get) := by
  have hc : x.get ⬝ᵥ A *ᵥ d.get = d.get ⬝ᵥ A *ᵥ x.get := form_comm hA _ _
  have hb : b.get ⬝ᵥ d.get = d.get ⬝ᵥ b.get := dotProduct_comm _ _
  rw [quadratic_value, quadratic_value, hz, mulVec_add, mulVec_smul]
  simp only [add_dotProduct, dotProduct_add, smul_dotProduct, dotProduct_smul, dotProduct_sub,
    smul_eq_mul, hc, hb]
  ring

/-- The point of a step, as a vector of the algebra. -/
theorem get_stepTo (s : Settings ℝ) (st : State ℝ n) (d : Vec ℝ n) (k : ℕ) :
    (st.stepTo s d k).get = st.x.get + s.backtrack ^ k • d.get := by
  funext i
  rw [State.stepTo, get_add, smul_get]
  rfl

theorem get_sub_stepTo (s : Settings ℝ) (st : State ℝ n) (d : Vec ℝ n) (k : ℕ) :
    (st.stepTo s d k - st.x).get = s.backtrack ^ k • d.get := by
  funext i
  rw [get_sub, get_stepTo, Pi.add_apply]
  ring

theorem stepTo_zero (s : Settings ℝ) (st : State ℝ n) (d : Vec ℝ n) :
    st.stepTo s d 0 = st.x + d := by
  refine vec_ext fun i => ?_
  rw [get_stepTo, pow_zero, one_smul, get_add]
  rfl

/-! ### States of a run on an objective -/

/-- **Value and gradient are those of the objective.** -/
structure State.On (o : Oracle ℝ n) (st : State ℝ n) : Prop where
  value_eq : st.value = o.value st.x
  gradient_eq : st.gradient = (o.jet st.x).2

section States

variable {o : Oracle ℝ n} {s : Settings ℝ} {st st' : State ℝ n} {d : Vec ℝ n} {e : Option Ending}

/-- Every pace keeps value and gradient those of the objective. -/
theorem Pace.on (h : Pace s o st d st' e) (hon : st.On o) : st'.On o := by
  cases h with
  | moves hx hlt hfirst hst he => exact hst ▸ ⟨rfl, rfl⟩
  | rests hle hsmall hst he => exact hst ▸ ⟨hon.1, hon.2⟩
  | ends hlarge hnone hlimit hst he => exact hst ▸ ⟨hon.1, hon.2⟩

theorem State.On.start (s : Settings ℝ) (ho : ∀ x, (o.jet x).1 = o.value x) (x0 : Vec ℝ n) :
    (State.start s x0 (o.jet x0).1 (o.jet x0).2).On o := ⟨ho x0, rfl⟩

/-- The gradient changes by the image of the step. -/
theorem State.On.change (h : st.On (quadratic A b c)) (x : Vec ℝ n) :
    (((quadratic A b c).jet x).2 - st.gradient).get = A *ᵥ (x - st.x).get := by
  rw [sub_get, sub_get, mulVec_sub, h.gradient_eq, get_gradient, get_gradient]
  abel

theorem Pace.nit_eq (h : Pace s o st d st' e) : st'.nit = st.nit + 1 := by
  cases h with
  | moves hx hlt hfirst hst he => exact hst ▸ rfl
  | rests hle hsmall hst he => exact hst ▸ rfl
  | ends hlarge hnone hlimit hst he => exact hst ▸ rfl

/-- Every pace keeps the curvature matrix positive definite. -/
theorem Pace.posDef (h : Pace s o st d st' e) (hH : st.hessian.toMatrix.PosDef)
    (htol : 0 ≤ s.curvatureTol) : st'.hessian.toMatrix.PosDef := by
  cases h with
  | moves hx hlt hfirst hst he => exact hst ▸ posDef_secantUpdate hH _ _ htol
  | rests hle hsmall hst he => exact hst ▸ hH
  | ends hlarge hnone hlimit hst he => exact hst ▸ hH

variable [Solver ℝ] [ExactSolver]

/-- A positive definite curvature matrix gives a direction. -/
theorem exists_leads (hH : st.hessian.toMatrix.PosDef) : ∃ d, st.Leads s d := by
  obtain ⟨p, hp, -⟩ := solve?_eq_some ((isUnit_iff_isUnit_det _).1 hH.isUnit).ne_zero st.gradient
  refine ⟨-p, p, ?_, rfl⟩
  rw [State.solved, solveRidged, hp]

/-- **The direction solves the system** of the curvature matrix. -/
theorem State.Leads.solves (hd : st.Leads s d) (hH : st.hessian.toMatrix.PosDef) :
    st.hessian.toMatrix *ᵥ d.get = -st.gradient.get := by
  obtain ⟨p, hp, hsol⟩ :=
    solve?_eq_some ((isUnit_iff_isUnit_det _).1 hH.isUnit).ne_zero st.gradient
  obtain ⟨p', hp', rfl⟩ := hd
  rw [State.solved, solveRidged, hp] at hp'
  cases hp'
  rw [neg_get, mulVec_neg, ← get_mulVec, hsol]

/-- The direction vanishes with the gradient. -/
theorem State.Leads.eq_zero (hd : st.Leads s d) (hH : st.hessian.toMatrix.PosDef)
    (hg : st.gradient.get = 0) : d = 0 := by
  have hsolves := hd.solves hH
  rw [hg, neg_zero] at hsolves
  rw [← get_eq_zero_iff]
  by_contra hne
  have hform := form_pos hH hne
  rw [hsolves, dotProduct_zero] at hform
  exact lt_irrefl _ hform

/-- **An iteration where the gradient vanishes** is stationary, and converges. -/
theorem Pace.of_gradient_eq_zero (h : Pace s o st d st' e) (hon : st.On o) (hd : st.Leads s d)
    (hH : st.hessian.toMatrix.PosDef) (hg : st.gradient.get = 0) (htolx : 0 < s.tolx)
    (htolfun : 0 < s.tolfun) : e = some .converged ∧ st' = st.begun.counted 0 1 := by
  obtain rfl := hd.eq_zero hH hg
  have hstay (k : ℕ) : st.stepTo s 0 k = st.x := by
    refine vec_ext fun i => ?_
    rw [State.stepTo, get_add, get_smul, get_zero, mul_zero, add_zero]
  have hzero : st.x + 0 = st.x := by rw [← stepTo_zero s st, hstay]
  cases h with
  | moves hx hlt hfirst hst he =>
    rw [hx, hstay, ← hon.value_eq] at hlt
    exact absurd hlt (lt_irrefl _)
  | rests hle hsmall hst he => exact ⟨he, hst⟩
  | ends hlarge hnone hlimit hst he =>
    -- a step that changes nothing is small
    have hsmall : withinTolerance s (o.value (st.x + 0) - st.value) (0 : Vec ℝ n) = true := by
      have hnorm : normInf (0 : Vec ℝ n) ≤ 0 :=
        (normInf_le_iff 0 0).2 ⟨le_rfl, fun i => by rw [get_zero, abs_zero]⟩
      rw [hzero, ← hon.value_eq, sub_self, withinTolerance, Bool.and_eq_true]
      exact ⟨decide_eq_true (show |(0 : ℝ)| < s.tolfun by rwa [abs_zero]),
        decide_eq_true (hnorm.trans_lt htolx)⟩
    rw [hsmall] at hlarge
    cases hlarge

end States

/-! ### Iterations -/

section Iterations

variable {s : Settings ℝ} {st st' : State ℝ n} {d : Vec ℝ n} {e : Option Ending}

theorem movedEnding_cases (s : Settings ℝ) (st : State ℝ n) (x : Vec ℝ n) (v : ℝ) :
    movedEnding s st x v = none ∨ movedEnding s st x v = some .converged := by
  unfold movedEnding
  split
  · exact .inr rfl
  · exact .inl rfl

/-- The values at the steps of a search. -/
theorem value_stepTo (hA : A.IsHermitian) (k : ℕ) :
    (quadratic A b c).value (st.stepTo s d k) =
      (quadratic A b c).value st.x + s.backtrack ^ k * (d.get ⬝ᵥ (A *ᵥ st.x.get - b.get)) +
        (s.backtrack ^ k) ^ 2 / 2 * (d.get ⬝ᵥ A *ᵥ d.get) :=
  value_along hA (get_stepTo s st d k)

section Isotropic

variable {l : ℝ} (hon : st.On (quadratic (l • 1) b c)) (hdir : d.get = -st.gradient.get)
include hon hdir

/-- Where the curvature is `l` in all directions, a step against the gradient is a decrease when it
is shorter than `2 / l`. -/
theorem isotropic_lt_iff (hpos : 0 < s.backtrack) (hg : st.gradient.get ≠ 0) (k : ℕ) :
    (quadratic (l • 1) b c).value (st.stepTo s d k) < st.value ↔ s.backtrack ^ k * l < 2 := by
  have hgrad : (l • 1 : Matrix (Fin n) (Fin n) ℝ) *ᵥ st.x.get - b.get = st.gradient.get := by
    rw [hon.gradient_eq, get_gradient]
  have hherm : (l • 1 : Matrix (Fin n) (Fin n) ℝ).IsHermitian := by
    unfold Matrix.IsHermitian
    rw [conjTranspose_smul, conjTranspose_one, star_trivial]
  have hsq : 0 < st.gradient.get ⬝ᵥ st.gradient.get := dot_self_pos hg
  have hfactor : 0 < s.backtrack ^ k * (st.gradient.get ⬝ᵥ st.gradient.get) / 2 := by
    have ht : 0 < s.backtrack ^ k := pow_pos hpos k
    positivity
  have hvalue : (quadratic (l • 1) b c).value (st.stepTo s d k) - st.value =
      s.backtrack ^ k * (st.gradient.get ⬝ᵥ st.gradient.get) / 2 * (s.backtrack ^ k * l - 2) := by
    rw [value_stepTo hherm, hgrad, ← hon.value_eq, hdir, smul_mulVec, one_mulVec]
    simp only [neg_dotProduct, dotProduct_neg, dotProduct_smul, smul_eq_mul]
    ring
  rw [← sub_neg, hvalue, mul_sub, sub_neg, mul_lt_mul_iff_right₀ hfactor]

/-- It scales the gradient. -/
theorem isotropic_gradient (k : ℕ) :
    ((quadratic (l • 1) b c).jet (st.stepTo s d k)).2.get =
      (1 - s.backtrack ^ k * l) • st.gradient.get := by
  have hgrad : (l • 1 : Matrix (Fin n) (Fin n) ℝ) *ᵥ st.x.get - b.get = st.gradient.get := by
    rw [hon.gradient_eq, get_gradient]
  rw [get_gradient, get_stepTo, mulVec_add, mulVec_smul, hdir, ← hgrad]
  simp only [smul_mulVec, one_mulVec]
  funext i
  simp only [Pi.sub_apply, Pi.add_apply, Pi.neg_apply, Pi.smul_apply, smul_eq_mul]
  ring

end Isotropic

variable [Solver ℝ] [ExactSolver]

/-- **An iteration with the exact curvature** comes to where the gradient vanishes, and keeps the
curvature matrix. -/
theorem Pace.newton (h : Pace s (quadratic A b c) st d st' e) (hA : A.PosDef)
    (hon : st.On (quadratic A b c)) (hH : st.hessian.toMatrix = A) (hd : st.Leads s d)
    (htolx : 0 < s.tolx) (htolfun : 0 < s.tolfun) :
    st'.gradient.get = 0 ∧ st'.hessian.toMatrix = A ∧ (e = none ∨ e = some .converged) := by
  have hHpos : st.hessian.toMatrix.PosDef := hH ▸ hA
  by_cases hg : st.gradient.get = 0
  · obtain ⟨rfl, rfl⟩ := h.of_gradient_eq_zero hon hd hHpos hg htolx htolfun
    exact ⟨hg, hH, .inr rfl⟩
  have hsolves : A *ᵥ d.get = -st.gradient.get := hH ▸ hd.solves hHpos
  have hgrad : A *ᵥ st.x.get - b.get = st.gradient.get := by
    rw [hon.gradient_eq, get_gradient]
  have hd0 : d.get ≠ 0 := by
    intro h0
    rw [h0, mulVec_zero, eq_comm, neg_eq_zero] at hsolves
    exact hg hsolves
  -- the full step decreases the value by half the form of the direction
  have hfull : (quadratic A b c).value (st.stepTo s d 0) < st.value := by
    have hform := form_pos hA hd0
    have hslope : d.get ⬝ᵥ st.gradient.get = -(d.get ⬝ᵥ A *ᵥ d.get) := by
      rw [hsolves, dotProduct_neg, neg_neg]
    rw [value_stepTo hA.isHermitian, hgrad, ← hon.value_eq, hslope, pow_zero]
    linarith
  obtain ⟨hle, -⟩ | ⟨values, gradients, hst, he⟩ :=
    h.takes hfull fun i hi => absurd hi i.not_lt_zero
  · rw [← stepTo_zero s st] at hle
    exact absurd hle (not_le.2 hfull)
  set x := st.stepTo s d 0 with hx
  have hzero : ((quadratic A b c).jet x).2.get = 0 := by
    rw [get_gradient, hx, get_stepTo, pow_zero, one_smul, mulVec_add, hsolves, ← hgrad]
    abel
  have hself : (secantUpdate st.hessian (x - st.x)
      (((quadratic A b c).jet x).2 - st.gradient) s.curvatureTol).matrix = st.hessian :=
    secantUpdate_self (by rw [hH, hon.change])
  refine ⟨hst ▸ hzero, ?_, he ▸ movedEnding_cases s st x _⟩
  rw [hst]
  exact (congrArg Mat.toMatrix hself).trans hH

/-- **The first iteration where the curvature is `l` in all directions** is stationary, or takes the
first step that is shorter than `2 / l`, which scales the gradient. -/
theorem Pace.isotropic {l : ℝ} (h : Pace s (quadratic (l • 1) b c) st d st' e) (hl : 0 < l)
    (hpos : 0 < s.backtrack) (hmin : s.minStep * l < 2) (hon : st.On (quadratic (l • 1) b c))
    (hH : st.hessian = Mat.identity n) (hd : st.Leads s d) (hg : st.gradient.get ≠ 0) :
    e = some .converged ∧ st' = st.begun.counted 0 1 ∨
      ∃ k, s.backtrack ^ k * l < 2 ∧ (∀ i < k, 2 ≤ s.backtrack ^ i * l) ∧
        st'.x = st.stepTo s d k ∧ st'.gradient.get = (1 - s.backtrack ^ k * l) • st.gradient.get ∧
        st'.hessian = (secantUpdate st.hessian (st'.x - st.x) (st'.gradient - st.gradient)
          s.curvatureTol).matrix ∧ (e = none ∨ e = some .converged) := by
  have hdir : d.get = -st.gradient.get := by
    have hsolves := hd.solves (hH ▸ posDef_identity)
    rw [hH, toMatrix_identity, one_mulVec] at hsolves
    exact hsolves
  have hlt := isotropic_lt_iff (s := s) hon hdir hpos hg
  cases h with
  | @moves k values gradients x st' e hx hdec hfirst hst he =>
    have hgrad := isotropic_gradient (s := s) hon hdir k
    refine .inr ⟨k, (hlt k).1 (hx ▸ hdec), ?_, hst ▸ hx, ?_, hst ▸ rfl, ?_⟩
    · intro i hi
      exact not_lt.1 fun h2 => absurd (hfirst i hi).1 (not_le.2 ((hlt i).2 h2))
    · rw [hst, ← hgrad, ← hx]
      rfl
    · rw [he]
      exact movedEnding_cases s st x _
  | rests hle hsmall hst he => exact .inl ⟨he, hst⟩
  | @ends k values st' e hlarge hnone hlimit hst he =>
    -- the last step is short enough to be a decrease
    have hshort : s.backtrack ^ k * l < 2 := (mul_le_mul_of_nonneg_right hlimit hl.le).trans_lt hmin
    exact absurd (hnone k le_rfl) (not_le.2 ((hlt k).2 hshort))

/-- **A step that fits the curvature**, where that is `l` in all directions, comes to where the
gradient vanishes in the first iteration. -/
theorem Pace.fits {l : ℝ} {j : ℕ} (h : Pace s (quadratic (l • 1) b c) st d st' e) (hl : 0 < l)
    (hpos : 0 < s.backtrack) (hmin : s.minStep * l < 2) (hfits : s.backtrack ^ j * l = 1)
    (hbefore : ∀ i < j, 2 ≤ s.backtrack ^ i * l) (hon : st.On (quadratic (l • 1) b c))
    (hH : st.hessian = Mat.identity n) (hd : st.Leads s d) (hg : st.gradient.get ≠ 0) :
    e = some .converged ∧ st' = st.begun.counted 0 1 ∨
      st'.gradient.get = 0 ∧ (e = none ∨ e = some .converged) := by
  obtain hrest | ⟨k, hk, hlong, -, hgrad, -, he⟩ := h.isotropic hl hpos hmin hon hH hd hg
  · exact .inl hrest
  obtain rfl : k = j := by
    rcases lt_trichotomy k j with hlt | heq | hgt
    · exact absurd (hbefore k hlt) (not_le.2 hk)
    · exact heq
    · have htwo := hlong j hgt
      rw [hfits] at htwo
      norm_num at htwo
  rw [hfits, sub_self, zero_smul] at hgrad
  exact .inr ⟨hgrad, he⟩

end Iterations

end VariableMetric
