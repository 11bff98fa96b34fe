import Mathlib.Analysis.Matrix.Spectrum
import VariableMetric.Proofs.Crossing
import VariableMetric.Proofs.Parabola

/-!
# Which quadratic objectives are minimised in time

With exact line searches a run on a quadratic objective in `n` variables is over after `n`
iterations. The search of these runs takes the first decrease, which is seldom the best step, and it
takes one more iteration to see that the minimum is reached.

* `Settings.usual`: the settings of a run that is told its limit and its tolerances.
* `EndsInTime`: **from every start, with any tolerances, a run converges within `2 n` iterations**.
* `not_endsInTime_half`: this fails for one variable already.
* `endsInTime_of_dyadic`: it holds where the curvature is a power of two, the same in all
  directions, that a step of the search fits.
* `EndsInTime.dyadic`, `EndsInTime.uniform`: it fails elsewhere, by a component of the gradient that
  no step takes away.
* `endsInTime_iff_dyadic`: it holds there and nowhere else.
-/

namespace VariableMetric

open Matrix

variable {n : ℕ} {A : Matrix (Fin n) (Fin n) ℝ}

/-- **The settings of a run** that is told its limit and its tolerances; all else is as usual. -/
noncomputable def Settings.usual (maxiter : ℕ) (tolx tolfun : ℝ) : Settings ℝ where
  maxiter := maxiter
  tolx := tolx
  tolfun := tolfun
  backtrack := 0.5
  minStep := 1e-12
  curvatureTol := 1e-12
  ridge := 1e-12
  trialLimit := VariableMetric.trialLimit
  history := false

section Usual

variable {maxiter : ℕ} {tolx tolfun : ℝ}

/-- The search gives up after 40 shorter steps, and comes there. -/
theorem usual_comesDown : (Settings.usual maxiter tolx tolfun).ComesDown 40 := by
  constructor <;> norm_num [Settings.usual, VariableMetric.trialLimit]

theorem usual_ample : (Settings.usual maxiter tolx tolfun).Ample :=
  ⟨40, usual_comesDown.le_limit, usual_comesDown.last⟩

theorem shrink_pos : (0 : ℝ) < 0.5 := by norm_num

/-- The step that fits a power of two. -/
theorem shrink_fits (j : ℕ) : (0.5 : ℝ) ^ j * 2 ^ j = 1 := by
  rw [← mul_pow]
  norm_num

/-- Longer steps are off by a factor of two at least. -/
theorem shrink_before {i j : ℕ} (h : i < j) : 2 ≤ (0.5 : ℝ) ^ i * 2 ^ j := by
  obtain ⟨k, rfl⟩ := Nat.exists_eq_add_of_lt h
  rw [add_assoc, pow_add, ← mul_assoc, shrink_fits, one_mul]
  exact le_self_pow₀ one_le_two (Nat.succ_ne_zero k)

/-- Shorter steps fit no better. -/
theorem shrink_after {i j : ℕ} (h : j ≤ i) : (0.5 : ℝ) ^ i * 2 ^ j ≤ 1 := by
  obtain ⟨k, rfl⟩ := Nat.exists_eq_add_of_le h
  rw [pow_add, mul_right_comm, shrink_fits, one_mul]
  exact pow_le_one₀ shrink_pos.le (by norm_num)

theorem usual_minStep_lt {j : ℕ} (h : j ≤ 40) :
    (Settings.usual maxiter tolx tolfun).minStep * 2 ^ j < 2 := by
  have hpow : (2 : ℝ) ^ j ≤ 2 ^ 40 := pow_le_pow_right₀ one_le_two h
  have hmin : (Settings.usual maxiter tolx tolfun).minStep = 1e-12 := rfl
  rw [hmin]
  linarith

end Usual

/-- **A run ends in time** if from every start, with any tolerances and a limit of at least `2 n`
iterations, it converges within `2 n`. -/
def EndsInTime [Solver ℝ] (A : Matrix (Fin n) (Fin n) ℝ) : Prop :=
  ∀ (b x0 : Vec ℝ n) (tolx tolfun : ℝ) (maxiter : ℕ), 0 < tolx → 0 < tolfun → 2 * n ≤ maxiter →
    ∃ course r, (quadratic A b 0).run (fun _ => false) (.usual maxiter tolx tolfun) x0 =
        (course, .ok r) ∧
      r.ending.status = .converged ∧ r.nit ≤ 2 * n

/-! ### One variable with curvature one half -/

/-- **The run from one** with curvature one half, before its second iteration is over: the first
full step halves the gradient and shows the curvature. -/
inductive Halving (st : State ℝ 1) : Prop
  | before (hn : st.nit = 0) (hH : st.hessian = Mat.identity 1) (hg : st.gradient.get 0 = 1 / 2)
  | between (hn : st.nit = 1) (hH : st.hessian.toMatrix = (1 / 2 : ℝ) • 1)
      (hg : st.gradient.get 0 = 1 / 4)
  | after (hn : st.nit = 2)

section Halving

variable [Solver ℝ] [ExactSolver] {s : Settings ℝ} {st st' : State ℝ 1} {d : Vec ℝ 1}
  {e : Option Ending}

omit [Solver ℝ] [ExactSolver] in
theorem Halving.posDef (h : Halving st) (hn : st.nit < 2) : st.hessian.toMatrix.PosDef := by
  cases h with
  | before hn hH hg => exact hH ▸ posDef_identity
  | between hn hH hg => exact hH ▸ posDef_smul_one one_half_pos
  | after hn => omega

/-- Both iterations go by the same full step. -/
theorem Halving.direction (h : Halving st) (hn : st.nit < 2) (hd : st.Leads s d) :
    d.get 0 = -(1 / 2) := by
  have hsolves := congrFun (hd.solves (h.posDef hn)) 0
  cases h with
  | before hn hH hg =>
    rw [hH, toMatrix_identity, one_mulVec, Pi.neg_apply, hg] at hsolves
    exact hsolves
  | between hn hH hg =>
    rw [hH, smul_mulVec, one_mulVec, Pi.neg_apply, Pi.smul_apply, smul_eq_mul, hg] at hsolves
    linarith
  | after hn => omega

/-- **Neither iteration converges.** -/
theorem Pace.halves {tolfun : ℝ}
    (h : Pace (.usual 2 1e-13 tolfun) (quadratic ((1 / 2 : ℝ) • 1) 0 0) st d st' e)
    (hon : st.On (quadratic ((1 / 2 : ℝ) • 1) 0 0)) (hh : Halving st) (hn : st.nit < 2)
    (hd : st.Leads (.usual 2 1e-13 tolfun) d) (htolfun : 0 < tolfun) :
    e = none ∧ Halving st' := by
  have hd0 := hh.direction hn hd
  have hnit := h.nit_eq
  have hlarge : e ≠ some .converged := by
    refine h.not_converged (u := fun _ => 1) (q := 1 / 2) usual_comesDown ?_ ?_
    · rw [dotProduct, Fin.sum_univ_one, hd0, one_mul, abs_neg]
      exact le_abs_self _
    · norm_num [Settings.usual]
  cases hh with
  | before hn hH hg =>
    have hg0 : st.gradient.get ≠ 0 := by
      intro hzero
      rw [hzero, Pi.zero_apply] at hg
      linarith
    obtain ⟨he, -⟩ | ⟨k, -, hfirst, hx, hgrad, hupdate, he⟩ :=
      h.isotropic one_half_pos usual_comesDown.pos (by norm_num [Settings.usual]) hon hH hd hg0
    · exact absurd he hlarge
    obtain rfl : k = 0 := by
      by_contra hk
      have htwo := hfirst 0 (Nat.pos_of_ne_zero hk)
      norm_num at htwo
    have hstep : (st'.x - st.x).get = d.get := by
      rw [hx, get_sub_stepTo, pow_zero, one_smul]
    have hchange : (st'.gradient - st.gradient).get = (1 / 2 : ℝ) • (st'.x - st.x).get := by
      rw [(h.on hon).gradient_eq, hon.change, smul_mulVec, one_mulVec]
    have hsq : d.get ⬝ᵥ d.get = 1 / 4 := by
      rw [dotProduct, Fin.sum_univ_one, hd0]
      norm_num
    have hlong : (1e-12 : ℝ) < d.get ⬝ᵥ d.get := by norm_num [hsq]
    have hlong' : (1e-12 : ℝ) < 1 / 2 * (d.get ⬝ᵥ d.get) := by norm_num [hsq]
    refine ⟨he.resolve_right hlarge, .between (by omega) ?_ ?_⟩
    · rw [← hstep] at hlong hlong'
      rw [hupdate, hH]
      have htol : (0 : ℝ) ≤ 1e-12 := by norm_num
      exact secantUpdate_first htol hchange hlong' hlong
    · rw [hgrad, pow_zero, Pi.smul_apply, hg, smul_eq_mul]
      norm_num
  | between hn hH hg =>
    obtain ⟨-, -, he⟩ := h.newton (posDef_smul_one one_half_pos) hon hH hd
      (by norm_num [Settings.usual]) htolfun
    exact ⟨he.resolve_right hlarge, .after (by omega)⟩
  | after hn => omega

end Halving

/-- **A run that does not end in time.** It comes to the minimum exactly with its second step, and
has no iteration left to see that. -/
theorem not_endsInTime_half :
    letI := solveByInverse
    (∃ course r, (quadratic ((1 / 2 : ℝ) • 1) 0 0).run (fun _ => false)
        (.usual 2 1e-13 1e-13) (#v[1] : Vec ℝ 1) = (course, .ok r) ∧
      r.ending.status = .notConverged) ∧
    ¬ ∀ (n : ℕ) (A : Matrix (Fin n) (Fin n) ℝ), 1 ≤ n → A.PosDef → EndsInTime A := by
  let := solveByInverse
  have : ExactSolver := solveByInverse_exact
  set o := quadratic ((1 / 2 : ℝ) • 1 : Matrix (Fin 1) (Fin 1) ℝ) 0 0
  have hstart : (o.jet #v[1]).2.get 0 = 1 / 2 := by
    rw [get_gradient, smul_mulVec, one_mulVec, Pi.sub_apply, Pi.smul_apply, get_zero,
      get_singleton]
    norm_num
  have hstep (st : State ℝ 1) (d : Vec ℝ 1) (st' : State ℝ 1) (e : Option Ending)
      (hP : st.On o ∧ Halving st) (hn : st.nit < 2)
      (hd : st.Leads (.usual 2 1e-13 1e-13) d)
      (h : Pace (.usual 2 1e-13 1e-13) o st d st' e) :
      e.elim (st'.On o ∧ Halving st') (· = .iterationLimit) := by
    obtain ⟨rfl, hh⟩ := h.halves hP.1 hP.2 hn hd (by norm_num)
    exact ⟨h.on hP.1, hh⟩
  have hexists : ∃ course st ending,
      o.run (fun _ => false) (.usual 2 1e-13 1e-13) #v[1] =
        (course, .ok (State.result st ending)) ∧ ending = .iterationLimit :=
    Oracle.exists_run_paced (P := fun st => st.On o ∧ Halving st) (fun _ => rfl) usual_comesDown.pos
      usual_ample ⟨.start _ (fun _ => rfl) _, .before rfl rfl hstart⟩
      (fun st hP hn => exists_leads (hP.2.posDef hn)) hstep fun _ _ _ => rfl
  obtain ⟨course, st, ending, hrun, rfl⟩ := hexists
  refine ⟨⟨course, _, hrun, rfl⟩, fun hall => ?_⟩
  obtain ⟨course', r, hrun', hconv, -⟩ := hall 1 ((1 / 2 : ℝ) • 1) le_rfl
    (posDef_smul_one one_half_pos) 0 #v[1] 1e-13 1e-13 2 (by norm_num) (by norm_num)
    le_rfl
  cases hrun.symm.trans hrun'
  cases hconv

/-! ### Where runs end in time -/

section InTime

variable [Solver ℝ] [ExactSolver]

/-- **A run that is at its start, or at the minimum.** -/
structure Arriving (o : Oracle ℝ n) (st : State ℝ n) : Prop where
  on : st.On o
  posDef : st.hessian.toMatrix.PosDef
  stage : st.nit = 0 ∧ st.hessian = Mat.identity n ∨ st.nit = 1 ∧ st.gradient.get = 0

/-- If a step fits the curvature, an iteration from the start comes to the minimum, and one from
there converges. -/
theorem Pace.arrives {s : Settings ℝ} {b : Vec ℝ n} {c l : ℝ} {j : ℕ} {st st' : State ℝ n}
    {d : Vec ℝ n} {e : Option Ending} (h : Pace s (quadratic (l • 1) b c) st d st' e) (hl : 0 < l)
    (htolx : 0 < s.tolx) (htolfun : 0 < s.tolfun) (hpos : 0 < s.backtrack)
    (hmin : s.minStep * l < 2) (htol : 0 ≤ s.curvatureTol) (hfits : s.backtrack ^ j * l = 1)
    (hbefore : ∀ i < j, 2 ≤ s.backtrack ^ i * l) (ha : Arriving (quadratic (l • 1) b c) st)
    (hd : st.Leads s d) :
    e = some .converged ∨ e = none ∧ Arriving (quadratic (l • 1) b c) st' := by
  have hnit := h.nit_eq
  by_cases hg : st.gradient.get = 0
  · exact .inl (h.of_gradient_eq_zero ha.on hd ha.posDef hg htolx htolfun).1
  obtain ⟨hn, hH⟩ | ⟨-, hg'⟩ := ha.stage
  · obtain ⟨he, -⟩ | ⟨hg', he | he⟩ := h.fits hl hpos hmin hfits hbefore ha.on hH hd hg
    · exact .inl he
    · exact .inr ⟨he, h.on ha.on, h.posDef ha.posDef htol, .inr ⟨by omega, hg'⟩⟩
    · exact .inl he
  · exact absurd hg' hg

/-- **Where the curvature is a power of two** in all directions, and a step of the search fits it,
runs end in time: the first iteration comes to the minimum, the second sees that it is there. -/
theorem endsInTime_of_dyadic (hn : 1 ≤ n) {j : ℕ} (hj : j ≤ 40) :
    EndsInTime ((2 : ℝ) ^ j • 1 : Matrix (Fin n) (Fin n) ℝ) := by
  intro b x0 tolx tolfun maxiter htolx htolfun hmax
  have hstep (st : State ℝ n) (d : Vec ℝ n) (st' : State ℝ n) (e : Option Ending)
      (ha : Arriving (quadratic ((2 : ℝ) ^ j • 1) b 0) st)
      (hd : st.Leads (.usual maxiter tolx tolfun) d)
      (h : Pace (.usual maxiter tolx tolfun) (quadratic ((2 : ℝ) ^ j • 1) b 0) st d st' e) :
      e.elim (Arriving (quadratic ((2 : ℝ) ^ j • 1) b 0) st') fun ending =>
        ending = .converged ∧ st'.nit ≤ 2 := by
    have hle : st'.nit ≤ 2 := by
      have hnit := h.nit_eq
      obtain ⟨hn, -⟩ | ⟨hn, -⟩ := ha.stage <;> omega
    obtain rfl | ⟨rfl, ha'⟩ := h.arrives (pow_pos two_pos j) htolx htolfun usual_comesDown.pos
      (usual_minStep_lt hj) (by norm_num [Settings.usual]) (shrink_fits j)
      (fun i hi => shrink_before hi) ha hd
    · exact ⟨rfl, hle⟩
    · exact ha'
  -- the limit on iterations is not met
  have hfull (st : State ℝ n) (ha : Arriving (quadratic ((2 : ℝ) ^ j • 1) b 0) st) :
      st.nit ≠ (Settings.usual maxiter tolx tolfun).maxiter := by
    have hmaxiter : (Settings.usual maxiter tolx tolfun).maxiter = maxiter := rfl
    obtain ⟨hn, -⟩ | ⟨hn, -⟩ := ha.stage <;> omega
  obtain ⟨course, st, ending, hrun, hend, hle⟩ :=
    Oracle.exists_run_paced (P := Arriving (quadratic ((2 : ℝ) ^ j • 1) b 0))
      (Q := fun st ending => ending = .converged ∧ st.nit ≤ 2) (fun _ => rfl) usual_comesDown.pos
      usual_ample
      ⟨.start (.usual maxiter tolx tolfun) (fun _ => rfl) x0, posDef_identity, .inl ⟨rfl, rfl⟩⟩
      (fun st ha _ => exists_leads ha.posDef) (fun st d st' e ha _ => hstep st d st' e ha)
      (fun st ha hn => absurd hn (hfull st ha))
  exact ⟨course, _, hrun, congrArg Ending.status hend, hle.trans (by omega)⟩

end InTime

/-! ### Where runs do not end in time -/

/-- A run that returns without convergence is not in time. -/
theorem EndsInTime.false_of_run [Solver ℝ] {x0 : Vec ℝ n} {tolx : ℝ} (h : EndsInTime A)
    (htolx : 0 < tolx)
    (hrun : ∃ course st ending, (quadratic A 0 0).run (fun _ => false) (.usual (2 * n) tolx 1) x0 =
      (course, .ok (State.result st ending)) ∧ ending ≠ .converged) : False := by
  obtain ⟨course, st, ending, hrun, hend⟩ := hrun
  obtain ⟨course', r, hrun', hconv, -⟩ := h 0 x0 tolx 1 (2 * n) htolx one_pos le_rfl
  rw [hrun] at hrun'
  cases hrun'
  cases ending with
  | converged => exact hend rfl
  | iterationLimit => cases hconv
  | stoppedByCaller => cases hconv
  | stepUnderflow => cases hconv

/-- A multiple of the square of a number that is small enough. -/
theorem exists_low (q : ℝ) : ∃ v : ℝ, 0 < v ∧ q * v ^ 2 ≤ 1e-12 := by
  obtain ⟨v, hv, hlt⟩ := exists_pos_mul_lt (by norm_num : (0 : ℝ) < 1e-12) |q|
  have hmin : 0 < min v 1 := lt_min hv one_pos
  refine ⟨min v 1, hmin, ?_⟩
  calc q * min v 1 ^ 2 ≤ |q| * min v 1 ^ 2 :=
        mul_le_mul_of_nonneg_right (le_abs_self q) (sq_nonneg _)
    _ ≤ |q| * min v 1 := by
        refine mul_le_mul_of_nonneg_left ?_ (abs_nonneg q)
        rw [sq]
        exact mul_le_of_le_one_left hmin.le (min_le_right _ _)
    _ ≤ |q| * v := mul_le_mul_of_nonneg_left (min_le_left _ _) (abs_nonneg q)
    _ ≤ 1e-12 := hlt.le

/-! ### Eigenvectors -/

/-- The eigenvectors of a symmetric matrix are orthogonal, and of unit length. -/
theorem dot_eigenvectors (hA : A.IsHermitian) (i j : Fin n) :
    (hA.eigenvectorBasis i).ofLp ⬝ᵥ (hA.eigenvectorBasis j).ofLp = if i = j then 1 else 0 := by
  have hinner := orthonormal_iff_ite.1 hA.eigenvectorBasis.orthonormal i j
  rw [EuclideanSpace.inner_eq_star_dotProduct, star_trivial, dotProduct_comm] at hinner
  exact hinner

/-- Two of them are axes. -/
theorem axes_of_eigenvectors (hA : A.IsHermitian) {i j : Fin n} (hne : i ≠ j) {l κ : ℝ}
    (hi : hA.eigenvalues i = l) (hj : hA.eigenvalues j = κ * l) :
    Axes A (hA.eigenvectorBasis i).ofLp (hA.eigenvectorBasis j).ofLp l κ where
  unit₁ := by rw [dot_eigenvectors, if_pos rfl]
  unit₂ := by rw [dot_eigenvectors, if_pos rfl]
  ortho := by rw [dot_eigenvectors, if_neg hne]
  image₁ := hi ▸ hA.mulVec_eigenvectorBasis i
  image₂ := hj ▸ hA.mulVec_eigenvectorBasis j

/-- A symmetric matrix with one eigenvalue only is a multiple of the identity. -/
theorem eq_smul_one_of_eigenvalues (hA : A.IsHermitian) {l : ℝ} (h : ∀ i, hA.eigenvalues i = l) :
    A = l • 1 := by
  have hdiag : diagonal ((RCLike.ofReal : ℝ → ℝ) ∘ hA.eigenvalues) = l • 1 := by
    rw [smul_one_eq_diagonal]
    exact congrArg diagonal (funext h)
  rw [hA.spectral_theorem, hdiag, map_smul, map_one]

section Exact

variable [Solver ℝ] [ExactSolver]

/-- **Where runs end in time every curvature is a power of two.** From a start on the axis of any
other the gradient keeps its component along the axis. -/
theorem EndsInTime.dyadic (h : EndsInTime A) (hA : A.PosDef) {μ : ℝ} {w : Fin n → ℝ}
    (hw : A *ᵥ w = μ • w) (hw0 : w ≠ 0) : ∃ k ≤ 40, μ = 2 ^ k := by
  have hsq : 0 < w ⬝ᵥ w := dot_self_pos hw0
  have hμ : 0 < μ := by
    have hform := form_pos hA hw0
    rw [hw, dotProduct_smul, smul_eq_mul] at hform
    exact pos_of_mul_pos_left hform hsq.le
  by_contra hne
  have hsteps (k : ℕ) (hk : k ≤ 40) : (0.5 : ℝ) ^ k * μ ≠ 1 := by
    intro heq
    refine hne ⟨k, hk, ?_⟩
    have hfits := shrink_fits k
    exact mul_left_cancel₀ (pow_ne_zero k shrink_pos.ne') (heq.trans hfits.symm)
  have himage : A *ᵥ w = μ • (Mat.identity n : Mat ℝ n n).toMatrix *ᵥ w := by
    rw [toMatrix_identity, one_mulVec, hw]
  obtain ⟨m, hp⟩ := exists_persists posDef_identity himage hμ hsteps
  obtain ⟨v, hv, hlow⟩ := exists_low (4 * (μ * (w ⬝ᵥ w)))
  have hL : 0 < μ * v * (w ⬝ᵥ w) := by positivity
  obtain ⟨tolx, htolx, hsmall⟩ := exists_pos_mul_lt
    (mul_pos (pow_pos shrink_pos 40) (mul_pos hμ (mul_pos (pow_pos hp.part_pos (2 * n)) hL)))
    (∑ i, |(A *ᵥ w) i|)
  set x0 : Vec ℝ n := Vector.ofFn (v • w)
  have hx0 : x0.get = v • w := ofFn_get _
  refine h.false_of_run htolx
    (exists_run_unconverged hp hA usual_comesDown hL.le hsmall rfl
      (.inl ⟨.start _ (fun _ => rfl) x0, rfl, ?_, ?_⟩))
  · have hvalue : (quadratic A 0 0).value x0 = v ^ 2 * (μ * (w ⬝ᵥ w)) / 2 := by
      rw [quadratic_value_form, hx0, mulVec_smul, hw]
      simp only [smul_dotProduct, dotProduct_smul, smul_eq_mul]
      ring
    change 8 * (quadratic A 0 0).value x0 ≤ 1e-12
    rw [hvalue]
    linarith
  · have hslope : w ⬝ᵥ ((quadratic A 0 0).jet x0).2.get = μ * v * (w ⬝ᵥ w) := by
      rw [get_gradient_form, hx0, mulVec_smul, hw]
      simp only [dotProduct_smul, smul_eq_mul]
      ring
    change m ^ 0 * _ ≤ |w ⬝ᵥ ((quadratic A 0 0).jet x0).2.get|
    rw [hslope, pow_zero, one_mul, abs_of_pos hL]

/-- **Where runs end in time there is one curvature only.** From a start near the axis of a smaller
one the update that the first step leaves fits neither. -/
theorem EndsInTime.uniform (h : EndsInTime A) (hA : A.PosDef) {e₁ e₂ : Fin n → ℝ} {j k : ℕ}
    (hx : Axes A e₁ e₂ (2 ^ j) (2 ^ (k + 1))) (hj : j ≤ 40) : False := by
  obtain ⟨v, hv, hlow⟩ := exists_low (4 * ((2 ^ (k + 1)) ^ 3 * 2 ^ j))
  have hc (tolx : ℝ) : Crossing (.usual (2 * n) tolx 1) (2 ^ j) (2 ^ (k + 1)) v j := by
    have hone : (1 : ℝ) ≤ 2 ^ j := one_le_pow₀ one_le_two
    have htol : (Settings.usual (2 * n) tolx 1).curvatureTol = 1e-12 := rfl
    refine ⟨hone, one_lt_pow₀ one_lt_two k.succ_ne_zero, hv, ?_, ?_, shrink_fits j,
      fun i hi => shrink_before hi, usual_minStep_lt hj, ?_, ?_⟩
    · have hcube : (0 : ℝ) ≤ (2 ^ (k + 1)) ^ 3 * v ^ 2 := by positivity
      have hmul := mul_le_mul_of_nonneg_left hone hcube
      linarith
    · rw [htol]
      linarith
    · norm_num [htol]
    · norm_num [htol]
  -- no step fits the curvature of the vector that the update is at fault along
  have hsteps (i : ℕ) (_ : i ≤ 40) : (0.5 : ℝ) ^ i * crossRate (2 ^ j) (2 ^ (k + 1)) v ≠ 1 := by
    refine (hc 1).rate_ne ?_
    rw [← pow_add]
    rcases Nat.lt_or_ge i (k + 1 + j) with hi | hi
    · exact .inr (shrink_before hi)
    · exact .inl (shrink_after hi)
  obtain ⟨m, hp⟩ := exists_persists (hc 1).posDef ((hc 1).image_eq hx) (hc 1).rate_pos hsteps
  have hL : (0 : ℝ) < 2 ^ (k + 1) * 2 ^ j * (v * (2 ^ (k + 1) - 1)) := by
    have hdiff : (0 : ℝ) < 2 ^ (k + 1) - 1 := sub_pos.2 (one_lt_pow₀ one_lt_two k.succ_ne_zero)
    positivity
  -- a tolerance below what both components can come down to
  have hlow₁ := mul_pos (pow_pos shrink_pos 40)
    (mul_pos (hc 1).rate_pos (mul_pos (pow_pos hp.part_pos (2 * n)) hL))
  have hlow₂ : (0 : ℝ) < 0.5 ^ 40 * 2 ^ j := by positivity
  obtain ⟨t₁, ht₁, hsmall₁⟩ := exists_pos_mul_lt hlow₁
    (∑ i, |(A *ᵥ mix e₁ e₂ ((2 ^ (k + 1)) ^ 2 * v) (-1)) i|)
  obtain ⟨t₂, ht₂, hsmall₂⟩ := exists_pos_mul_lt hlow₂ (∑ i, |e₁ i|)
  have hmul {u : Fin n → ℝ} {t t' : ℝ} (h : t ≤ t') : (∑ i, |u i|) * t ≤ (∑ i, |u i|) * t' :=
    mul_le_mul_of_nonneg_left h (Finset.sum_nonneg fun i _ => abs_nonneg _)
  exact h.false_of_run (lt_min ht₁ ht₂)
    ((hc (min t₁ t₂)).exists_run hx hA hp usual_comesDown
      ((hmul (min_le_left _ _)).trans_lt hsmall₁) ((hmul (min_le_right _ _)).trans_lt hsmall₂)
      (ofFn_get _))

/-- **Runs end in time** where the curvature is a power of two, the same in all directions, that a
step of the search fits, and nowhere else. -/
theorem endsInTime_iff_dyadic (hn : 1 ≤ n) (hA : A.PosDef) :
    EndsInTime A ↔ ∃ k ≤ 40, A = (2 : ℝ) ^ k • 1 := by
  constructor
  · intro h
    have hH := hA.isHermitian
    -- every eigenvalue is a power of two
    have hpower (i : Fin n) : ∃ k ≤ 40, hH.eigenvalues i = 2 ^ k := by
      refine h.dyadic hA (hH.mulVec_eigenvectorBasis i) fun hzero => ?_
      have hunit := dot_eigenvectors hH i i
      rw [hzero, zero_dotProduct, if_pos rfl] at hunit
      exact zero_ne_one hunit
    choose k hk heig using hpower
    -- and they are equal
    have hle (i j : Fin n) : k j ≤ k i := by
      by_contra hlt
      obtain ⟨m, hm⟩ := Nat.exists_eq_add_of_lt (not_le.1 hlt)
      have hj : hH.eigenvalues j = 2 ^ (m + 1) * 2 ^ k i := by
        rw [heig, hm, ← pow_add]
        congr 1
        omega
      have hne : i ≠ j := by
        rintro rfl
        exact hlt le_rfl
      exact h.uniform hA (axes_of_eigenvectors hH hne (heig i) hj) (hk i)
    let i₀ : Fin n := ⟨0, hn⟩
    refine ⟨k i₀, hk i₀, eq_smul_one_of_eigenvalues hH fun i => ?_⟩
    rw [heig, le_antisymm (hle i₀ i) (hle i i₀)]
  · rintro ⟨k, hk, rfl⟩
    exact endsInTime_of_dyadic hn hk

end Exact

/-- In two variables runs end in time on the identity, but not where one axis has the curvature two:
then both curvatures are powers of two, but they are not the same. -/
theorem endsInTime_iff_dyadic_stretched :
    letI := solveByInverse
    1 ≤ 2 ∧ (1 : Matrix (Fin 2) (Fin 2) ℝ).PosDef ∧ EndsInTime (1 : Matrix (Fin 2) (Fin 2) ℝ) ∧
      (diagonal ![1, 2] : Matrix (Fin 2) (Fin 2) ℝ).PosDef ∧
      ¬ EndsInTime (diagonal ![1, 2] : Matrix (Fin 2) (Fin 2) ℝ) := by
  let := solveByInverse
  have : ExactSolver := solveByInverse_exact
  have hone : 1 ≤ 2 := one_le_two
  have hstretched : (diagonal ![1, 2] : Matrix (Fin 2) (Fin 2) ℝ).PosDef := by
    refine .diagonal fun i => ?_
    fin_cases i
    · exact one_pos
    · exact two_pos
  refine ⟨hone, .one, (endsInTime_iff_dyadic hone .one).2 ⟨0, Nat.zero_le _, ?_⟩, hstretched, ?_⟩
  · rw [pow_zero, one_smul]
  · intro h
    obtain ⟨k, -, hk⟩ := (endsInTime_iff_dyadic hone hstretched).1 h
    have hfirst : (1 : ℝ) = 2 ^ k := by simpa using congrFun (congrFun hk 0) 0
    have hsecond : (2 : ℝ) = 2 ^ k := by simpa using congrFun (congrFun hk 1) 1
    linarith

end VariableMetric
