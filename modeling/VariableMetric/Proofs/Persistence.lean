import VariableMetric.Proofs.Ending
import VariableMetric.Proofs.Quadratic

/-!
# Errors that no step takes away

Where the value is so small that no secant update passes its threshold, a run on a quadratic
objective keeps its curvature matrix `H`. If `A w = μ H w`, an iteration multiplies the component of
the gradient along `w` by `1 - t μ`, where `t` is a power of the factor of the search. Unless `μ` is
the inverse of such a power, that component never vanishes.

* `Settings.ComesDown`: the trials that a search can take; `Pace.not_converged`: an iteration along
  a large direction does not converge.
* `Persists`: a vector along which the gradient keeps at least a part `m` at every step.
* `Frozen`: **the run is stuck** with `H`, and has kept that part at each of its iterations.
* `Pace.frozen`: every iteration preserves this.
* `Frozen.not_converged`: none converges, if the tolerance for steps is small enough.
* `exists_run_unconverged`: **a run that gets stuck** at once or in its first iteration does not
  converge.
-/

namespace VariableMetric

open Matrix

variable {n : ℕ} {A : Matrix (Fin n) (Fin n) ℝ} {b : Vec ℝ n} {c : ℝ} {H : Mat ℝ n n}
  {w : Fin n → ℝ} {m : ℝ} {K : ℕ}

theorem abs_dotProduct_le (u : Fin n → ℝ) (v : Vec ℝ n) :
    |u ⬝ᵥ v.get| ≤ (∑ i, |u i|) * normInf v := by
  obtain ⟨hnn, hle⟩ := (normInf_le_iff v (normInf v)).1 le_rfl
  calc |u ⬝ᵥ v.get| ≤ ∑ i, |u i * v.get i| := Finset.abs_sum_le_sum_abs _ _
    _ = ∑ i, |u i| * |v.get i| := Finset.sum_congr rfl fun i _ => abs_mul _ _
    _ ≤ ∑ i, |u i| * normInf v :=
      Finset.sum_le_sum fun i _ => mul_le_mul_of_nonneg_left (hle i) (abs_nonneg _)
    _ = (∑ i, |u i|) * normInf v := (Finset.sum_mul _ _ _).symm

/-- The form of a difference is at most twice the sum of the forms. -/
theorem form_sub_le (hA : A.PosDef) (u v : Fin n → ℝ) :
    (u - v) ⬝ᵥ A *ᵥ (u - v) ≤ 2 * (u ⬝ᵥ A *ᵥ u) + 2 * (v ⬝ᵥ A *ᵥ v) := by
  have hsum : 0 ≤ (u + v) ⬝ᵥ A *ᵥ (u + v) := by
    have hform := hA.posSemidef.dotProduct_mulVec_nonneg (u + v)
    rwa [star_trivial] at hform
  rw [mulVec_add] at hsum
  rw [mulVec_sub]
  simp only [add_dotProduct, dotProduct_add, sub_dotProduct, dotProduct_sub] at hsum ⊢
  linarith

/-- **A search comes down** to the limit on its steps with trial `K`, and is let come there. -/
structure Settings.ComesDown (s : Settings ℝ) (K : ℕ) : Prop where
  pos : 0 < s.backtrack
  le_one : s.backtrack ≤ 1
  last : s.backtrack ^ K ≤ s.minStep
  le_limit : K ≤ s.trialLimit

section Searches

variable {s : Settings ℝ} {o : Oracle ℝ n} {st st' : State ℝ n} {d : Vec ℝ n}

/-- No search takes more trials than it takes to come down to the limit. -/
theorem Settings.ComesDown.trials_le (hs : s.ComesDown K) {k : ℕ}
    (hk : ∀ i < k, s.minStep < s.backtrack ^ i) : k ≤ K := by
  by_contra hlt
  exact absurd (hk K (not_le.1 hlt)) (not_lt.2 hs.last)

/-- An iteration that converges has a small step. -/
theorem Pace.small (h : Pace s o st d st' (some .converged)) (hs : s.ComesDown K) :
    ∃ k ≤ K, normInf (s.backtrack ^ k * d) < s.tolx := by
  have hstep {change : ℝ} {v : Vec ℝ n} (hsmall : withinTolerance s change v = true) :
      normInf v < s.tolx := by
    rw [withinTolerance, Bool.and_eq_true] at hsmall
    exact of_decide_eq_true hsmall.2
  cases h with
  | @moves k values gradients x st' _ hx hlt hfirst hst he =>
    obtain ⟨-, hsmall⟩ := movedEnding_eq_some he.symm
    have hdx : x - st.x = s.backtrack ^ k * d := by
      refine vec_ext fun i => ?_
      rw [hx, get_sub_stepTo, get_smul]
      rfl
    exact ⟨k, hs.trials_le fun i hi => (hfirst i hi).2, hdx ▸ hstep hsmall⟩
  | rests hle hsmall hst he =>
    have hd : s.backtrack ^ 0 * d = d := by
      refine vec_ext fun i => ?_
      rw [get_smul, pow_zero, one_mul]
    exact ⟨0, Nat.zero_le K, by rw [hd]; exact hstep hsmall⟩
  | ends hlarge hnone hlimit hst he => cases he

/-- **An iteration with a direction that is large** along some vector does not converge, if the
tolerance for steps is small enough. -/
theorem Pace.not_converged {e : Option Ending} {u : Fin n → ℝ} {q : ℝ} (h : Pace s o st d st' e)
    (hs : s.ComesDown K) (hu : q ≤ |u ⬝ᵥ d.get|)
    (htolx : (∑ i, |u i|) * s.tolx < s.backtrack ^ K * q) :
    e ≠ some .converged := by
  rintro rfl
  obtain ⟨k, hk, hsmall⟩ := h.small hs
  have hbound := abs_dotProduct_le u (s.backtrack ^ k * d)
  rw [smul_get, dotProduct_smul, smul_eq_mul, abs_mul, abs_of_pos (pow_pos hs.pos k)] at hbound
  refine absurd htolx (not_lt.2 ?_)
  calc s.backtrack ^ K * q ≤ s.backtrack ^ K * |u ⬝ᵥ d.get| :=
        mul_le_mul_of_nonneg_left hu (pow_pos hs.pos K).le
    _ ≤ s.backtrack ^ k * |u ⬝ᵥ d.get| :=
        mul_le_mul_of_nonneg_right (pow_le_pow_of_le_one hs.pos.le hs.le_one hk) (abs_nonneg _)
    _ ≤ (∑ i, |u i|) * normInf (s.backtrack ^ k * d) := hbound
    _ ≤ (∑ i, |u i|) * s.tolx :=
        mul_le_mul_of_nonneg_left hsmall.le (Finset.sum_nonneg fun i _ => abs_nonneg _)

/-- **Near the minimum no update is made**: the form of a step is at most its threshold. -/
theorem update_eq_of_low (hA : A.PosDef) (hon : st.On (quadratic A 0 0)) {x : Vec ℝ n}
    (hlt : (quadratic A 0 0).value x < st.value) (hlow : 8 * st.value ≤ s.curvatureTol) :
    (secantUpdate st.hessian (x - st.x) (((quadratic A 0 0).jet x).2 - st.gradient)
      s.curvatureTol).matrix = st.hessian := by
  have hvalue (z : Vec ℝ n) : z.get ⬝ᵥ A *ᵥ z.get = 2 * (quadratic A 0 0).value z := by
    rw [quadratic_value_form]
    ring
  refine secantUpdate_of_not_applied (Bool.eq_false_iff.2 fun happlied => ?_)
  have halong := (secantUpdate_applied_iff.1 happlied).1
  have hform := form_sub_le hA x.get st.x.get
  rw [hvalue, hvalue, ← hon.value_eq, ← sub_get] at hform
  rw [hon.change, dotProduct_comm] at halong
  linarith

end Searches

/-! ### Components that stay -/

/-- **A vector along which a part of the gradient stays**: its image under `A` is `μ` times that
under `H`, and no step of a search, down to trial `K`, is close to `1 / μ`. -/
structure Persists (β : ℝ) (K : ℕ) (A : Matrix (Fin n) (Fin n) ℝ) (H : Mat ℝ n n) (w : Fin n → ℝ)
    (μ m : ℝ) : Prop where
  posDef : H.toMatrix.PosDef
  image_eq : A *ᵥ w = μ • H.toMatrix *ᵥ w
  rate_pos : 0 < μ
  part_pos : 0 < m
  part_le_one : m ≤ 1
  part_le : ∀ k ≤ K, m ≤ |1 - β ^ k * μ|

/-- There is such a part as soon as no step is `1 / μ`. -/
theorem exists_persists {β μ : ℝ} (hH : H.toMatrix.PosDef) (hw : A *ᵥ w = μ • H.toMatrix *ᵥ w)
    (hμ : 0 < μ) (hne : ∀ k ≤ K, β ^ k * μ ≠ 1) : ∃ m, Persists β K A H w μ m := by
  obtain ⟨k, hk, hleast⟩ := Finset.exists_min_image (Finset.range (K + 1))
    (fun k => |1 - β ^ k * μ|) ⟨0, Finset.mem_range.2 (Nat.succ_pos K)⟩
  have hpos : 0 < |1 - β ^ k * μ| := by
    have hk' : k ≤ K := Nat.le_of_lt_succ (Finset.mem_range.1 hk)
    exact abs_pos.2 (sub_ne_zero.2 (hne k hk').symm)
  refine ⟨min |1 - β ^ k * μ| 1, hH, hw, hμ, lt_min hpos one_pos, min_le_right _ _, ?_⟩
  intro i hi
  exact (min_le_left _ _).trans (hleast i (Finset.mem_range.2 (Nat.lt_succ_of_le hi)))

/-- **The run is stuck** with the matrix `H`, whatever the steps it may still take, and of the
component along `w` the part `m` has been kept at each iteration. -/
structure Frozen (A : Matrix (Fin n) (Fin n) ℝ) (H : Mat ℝ n n) (w : Fin n → ℝ) (m L tol : ℝ)
    (st : State ℝ n) : Prop where
  on : st.On (quadratic A 0 0)
  hessian_eq : st.hessian = H
  low : 8 * st.value ≤ tol
  kept : m ^ st.nit * L ≤ |w ⬝ᵥ st.gradient.get|

section Steps

variable [Solver ℝ] [ExactSolver] {s : Settings ℝ} {st st' : State ℝ n} {d : Vec ℝ n}
  {e : Option Ending} {μ L : ℝ}

/-- **The slope along `w`** of the gradient along a direction. -/
theorem Persists.slope (hp : Persists s.backtrack K A H w μ m) (hA : A.IsHermitian)
    (hH : st.hessian = H) (hd : st.Leads s d) :
    w ⬝ᵥ A *ᵥ d.get = -(μ * (w ⬝ᵥ st.gradient.get)) := by
  have hsolves := hd.solves (hH ▸ hp.posDef)
  rw [hH] at hsolves
  calc w ⬝ᵥ A *ᵥ d.get = d.get ⬝ᵥ A *ᵥ w := form_comm hA _ _
    _ = μ * (d.get ⬝ᵥ H.toMatrix *ᵥ w) := by rw [hp.image_eq, dotProduct_smul, smul_eq_mul]
    _ = μ * (w ⬝ᵥ H.toMatrix *ᵥ d.get) := by rw [form_comm hp.posDef.isHermitian]
    _ = -(μ * (w ⬝ᵥ st.gradient.get)) := by rw [hsolves, dotProduct_neg, mul_neg]

/-- A step multiplies the component along `w`. -/
theorem Persists.gradient_stepTo (hp : Persists s.backtrack K A H w μ m) (hA : A.IsHermitian)
    (hon : st.On (quadratic A b c)) (hH : st.hessian = H) (hd : st.Leads s d) (k : ℕ) :
    w ⬝ᵥ ((quadratic A b c).jet (st.stepTo s d k)).2.get =
      (1 - s.backtrack ^ k * μ) * (w ⬝ᵥ st.gradient.get) := by
  have hgrad : ((quadratic A b c).jet (st.stepTo s d k)).2.get =
      st.gradient.get + s.backtrack ^ k • A *ᵥ d.get := by
    rw [hon.gradient_eq, get_gradient, get_gradient, get_stepTo, mulVec_add, mulVec_smul]
    abel
  rw [hgrad, dotProduct_add, dotProduct_smul, smul_eq_mul, hp.slope hA hH hd]
  ring

/-- **Every iteration keeps a run stuck.** -/
theorem Pace.frozen (h : Pace s (quadratic A 0 0) st d st' e) (hA : A.PosDef)
    (hs : s.ComesDown K) (hp : Persists s.backtrack K A H w μ m) (hL : 0 ≤ L)
    (hf : Frozen A H w m L s.curvatureTol st) (hd : st.Leads s d) :
    Frozen A H w m L s.curvatureTol st' := by
  -- a run that stays where it is keeps the whole of the component
  have hstay : m ^ (st.nit + 1) * L ≤ |w ⬝ᵥ st.gradient.get| := by
    refine le_trans ?_ hf.kept
    exact mul_le_mul_of_nonneg_right
      (pow_le_pow_of_le_one hp.part_pos.le hp.part_le_one (Nat.le_succ _)) hL
  have hon := h.on hf.on
  cases h with
  | @moves k values gradients x st' e hx hlt hfirst hst he =>
    refine ⟨hon, ?_, ?_, ?_⟩
    · rw [← hf.hessian_eq, ← update_eq_of_low (x := x) hA hf.on hlt hf.low, hst]
      rfl
    · have hvalue : st'.value = (quadratic A 0 0).value x := by rw [hst]; rfl
      have hlow := hf.low
      rw [hvalue]
      linarith
    · have hnit : st'.nit = st.nit + 1 := by rw [hst]; rfl
      have hgrad : w ⬝ᵥ st'.gradient.get =
          (1 - s.backtrack ^ k * μ) * (w ⬝ᵥ st.gradient.get) := by
        rw [← hp.gradient_stepTo hA.isHermitian hf.on hf.hessian_eq hd k, ← hx, hst]
        rfl
      rw [hnit, hgrad, abs_mul, pow_succ', mul_assoc]
      exact mul_le_mul (hp.part_le k (hs.trials_le fun i hi => (hfirst i hi).2)) hf.kept
        (mul_nonneg (pow_nonneg hp.part_pos.le _) hL) (abs_nonneg _)
  | rests hle hsmall hst he => exact hst ▸ ⟨hst ▸ hon, hf.hessian_eq, hf.low, hstay⟩
  | ends hlarge hnone hlimit hst he => exact hst ▸ ⟨hst ▸ hon, hf.hessian_eq, hf.low, hstay⟩

/-- **No iteration of a run that is stuck converges**, if the tolerance for steps is below what the
component can come down to. -/
theorem Frozen.not_converged (hf : Frozen A H w m L s.curvatureTol st)
    (hp : Persists s.backtrack K A H w μ m) (hA : A.PosDef) (hs : s.ComesDown K) (hL : 0 ≤ L)
    (hd : st.Leads s d) (hn : st.nit ≤ s.maxiter)
    (htolx : (∑ i, |(A *ᵥ w) i|) * s.tolx < s.backtrack ^ K * (μ * (m ^ s.maxiter * L))) :
    ¬ Pace s (quadratic A 0 0) st d st' (some .converged) := by
  intro h
  have hslope : A *ᵥ w ⬝ᵥ d.get = -(μ * (w ⬝ᵥ st.gradient.get)) := by
    rw [← hp.slope hA.isHermitian hf.hessian_eq hd, dotProduct_comm, form_comm hA.isHermitian]
  have hkept : m ^ s.maxiter * L ≤ |w ⬝ᵥ st.gradient.get| := by
    refine le_trans ?_ hf.kept
    exact mul_le_mul_of_nonneg_right (pow_le_pow_of_le_one hp.part_pos.le hp.part_le_one hn) hL
  refine h.not_converged (u := A *ᵥ w) hs ?_ htolx rfl
  rw [hslope, abs_neg, abs_mul, abs_of_pos hp.rate_pos]
  exact mul_le_mul_of_nonneg_left hkept hp.rate_pos.le

/-- **A run that gets stuck** at once, or in its first iteration, returns without convergence. -/
theorem exists_run_unconverged (hp : Persists s.backtrack K A H w μ m) (hA : A.PosDef)
    (hs : s.ComesDown K) (hL : 0 ≤ L)
    (htolx : (∑ i, |(A *ᵥ w) i|) * s.tolx < s.backtrack ^ K * (μ * (m ^ s.maxiter * L)))
    {x0 : Vec ℝ n} {st₀ : State ℝ n}
    (hst₀ : st₀ = .start s x0 ((quadratic A 0 0).jet x0).1 ((quadratic A 0 0).jet x0).2)
    (hfirst : Frozen A H w m L s.curvatureTol st₀ ∨
      ∀ d st' e, st₀.Leads s d → Pace s (quadratic A 0 0) st₀ d st' e →
        e ≠ some .converged ∧ (e = none → Frozen A H w m L s.curvatureTol st')) :
    ∃ course st ending, (quadratic A 0 0).run (fun _ => false) s x0 =
      (course, .ok (State.result st ending)) ∧ ending ≠ .converged := by
  have hstuck (st : State ℝ n) (d : Vec ℝ n) (st' : State ℝ n) (e : Option Ending)
      (hf : Frozen A H w m L s.curvatureTol st) (hn : st.nit < s.maxiter) (hd : st.Leads s d)
      (h : Pace s (quadratic A 0 0) st d st' e) :
      e ≠ some .converged ∧ (e = none → Frozen A H w m L s.curvatureTol st') := by
    refine ⟨?_, fun _ => h.frozen hA hs hp hL hf hd⟩
    rintro rfl
    exact hf.not_converged hp hA hs hL hd hn.le htolx h
  refine Oracle.exists_run_paced (P := fun st => st = st₀ ∨ Frozen A H w m L s.curvatureTol st)
    (fun _ => rfl) hs.pos ⟨K, hs.le_limit, hs.last⟩ (.inl hst₀.symm) ?_ ?_ ?_
  · rintro st (rfl | hf) -
    · exact exists_leads (hst₀ ▸ posDef_identity)
    · exact exists_leads (hf.hessian_eq ▸ hp.posDef)
  · intro st d st' e hP hn hd h
    have hstep : e ≠ some .converged ∧ (e = none → Frozen A H w m L s.curvatureTol st') := by
      rcases hP with rfl | hf
      · exact hfirst.elim (hstuck _ d st' e · hn hd h) fun hnext => hnext d st' e hd h
      · exact hstuck st d st' e hf hn hd h
    cases e with
    | none => exact .inr (hstep.2 rfl)
    | some ending => exact fun hconv => hstep.1 (congrArg some hconv)
  · intro st _ _
    decide

end Steps

end VariableMetric
