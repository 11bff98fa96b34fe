import Mathlib.Analysis.Calculus.FDeriv.Pow
import Mathlib.Analysis.Calculus.LineDeriv.Basic
import Mathlib.Analysis.SpecificLimits.Basic
import VariableMetric.Proofs.Ending
import VariableMetric.Proofs.Pace

/-!
# Searches down a slope

Over the reals a search along a direction of descent is successful if its limit is small enough.

* `HasGradient`: a vector is the gradient of a function at a point.
* `HasGradient.exists_decrease`: along a direction in which the function falls, one of the steps of
  a search is a decrease.
* `Ray.success_of_decrease`: **a search whose limit is below such a step is successful.**
* `Pace.ne_underflow`: an iteration with such a limit does not give up.
* `no_spurious_underflow`: a limit that is small enough exists wherever the gradient does not
  vanish.
-/

namespace VariableMetric

open Matrix Filter Topology

variable {n : ℕ}

/-- **The gradient** of a function at a point: the derivative there is the inner product with it. -/
def HasGradient (f : Vec ℝ n → ℝ) (g x : Vec ℝ n) : Prop :=
  ∃ f' : (Fin n → ℝ) →L[ℝ] ℝ, HasFDerivAt (fun u => f (Vector.ofFn u)) f' x.get ∧
    ∀ v, f' v = g.get ⬝ᵥ v

/-- **Along a direction in which a function falls**, it is lower after some step of a sequence that
shrinks by a constant factor. -/
theorem HasGradient.exists_decrease {f : Vec ℝ n → ℝ} {g x d : Vec ℝ n} {b : ℝ}
    (h : HasGradient f g x) (hd : dot g d < 0) (hpos : 0 < b) (hlt : b < 1) :
    ∃ k : ℕ, f (x + b ^ k * d) < f x := by
  obtain ⟨f', hderiv, hf'⟩ := h
  have hslope : f' d.get < 0 := by rwa [hf', ← dot_eq]
  have hline := (hderiv.hasLineDerivAt d.get).tendsto_slope_zero_right
  have hsteps : Tendsto (fun k : ℕ => b ^ k) atTop (𝓝[>] 0) :=
    tendsto_pow_atTop_nhdsWithin_zero_of_lt_one hpos hlt
  obtain ⟨k, hk⟩ := ((hline.comp hsteps).eventually (eventually_lt_nhds hslope)).exists
  refine ⟨k, ?_⟩
  have hpoint (t : ℝ) : Vector.ofFn (x.get + t • d.get) = x + t * d := by
    refine vec_ext fun i => ?_
    rw [get_ofFn, get_add, get_smul]
    rfl
  have hstart : Vector.ofFn x.get = x := vec_ext fun i => get_ofFn _ i
  simp only [Function.comp_apply, hpoint, hstart, smul_eq_mul] at hk
  have hpow : 0 < (b ^ k)⁻¹ := inv_pos.2 (pow_pos hpos k)
  exact sub_neg.1 ((pos_iff_neg_of_mul_neg hk).1 hpow)

/-- **The direction of a positive definite matrix** leads downhill where the gradient does not
vanish, and needs no ridge. -/
theorem exists_downhill [Solver ℝ] [ExactSolver] {H : Mat ℝ n n} {g : Vec ℝ n}
    (hH : H.toMatrix.PosDef) (hg : g ≠ 0) :
    ∃ p, (∀ reg, solveRidged H g reg = ⟨false, some p⟩) ∧ dot g (-p) < 0 := by
  obtain ⟨p, hp, hsol⟩ := solve?_eq_some ((isUnit_iff_isUnit_det _).1 hH.isUnit).ne_zero g
  have hget : H.toMatrix *ᵥ p.get = g.get := by rw [← get_mulVec, hsol]
  have hform := form_pos hH (get_ne_zero_of_mulVec hsol hg)
  refine ⟨p, fun reg => by rw [solveRidged, hp], ?_⟩
  rw [dot_eq, neg_get, dotProduct_neg, dotProduct_comm, ← hget]
  exact neg_neg_of_pos hform

/-- A step above the limit comes before every step that is not. -/
theorem lt_of_pow_le {b μ : ℝ} (hpos : 0 < b) (hlt : b < 1) {k j : ℕ} (habove : μ < b ^ k)
    (hlow : b ^ j ≤ μ) : k < j := by
  by_contra hjk
  have hle : b ^ k ≤ b ^ j := pow_le_pow_of_le_one hpos.le hlt.le (not_lt.1 hjk)
  linarith

/-- **A search whose limit is below a step that is a decrease** is successful. -/
theorem Ray.success_of_decrease {r : Ray ℝ n} {f : Vec ℝ n → ℝ} {k limit : ℕ} (hpos : 0 < r.factor)
    (hlt : r.factor < 1) (hdec : f (r.trialPoint k) < r.value) (habove : r.minStep < r.factor ^ k)
    (hlimit : ∃ j ≤ limit, r.factor ^ j ≤ r.minStep) :
    ∃ found, r.plain f limit = some found ∧ found.success = true := by
  obtain ⟨j, hplain, hlast, hfirst⟩ := r.exists_plain f hlimit
  refine ⟨_, hplain, ?_⟩
  rw [r.success_real hpos]
  rcases hlast with hdown | hlow
  · exact decide_eq_true hdown
  · -- the search would have come past the step
    exact absurd (hfirst k (lt_of_pow_le hpos hlt habove hlow)).1 (not_le.2 hdec)

/-- **An iteration whose limit is below such a step** does not give up. -/
theorem Pace.ne_underflow {s : Settings ℝ} {o : Oracle ℝ n} {st st' : State ℝ n} {d : Vec ℝ n}
    {e : Option Ending} {k : ℕ} (h : Pace s o st d st' e) (hpos : 0 < s.backtrack)
    (hlt : s.backtrack < 1) (hdec : o.value (st.stepTo s d k) < st.value)
    (habove : s.minStep < s.backtrack ^ k) : e ≠ some .stepUnderflow := by
  cases h with
  | moves hx hlt hfirst hst he =>
    intro hunder
    have hconv := (movedEnding_eq_some (he ▸ hunder)).1
    cases hconv
  | rests hle hsmall hst he =>
    rw [he]
    simp
  | @ends j values st' e hlarge hnone hlimit hst he =>
    have hkj : k < j := lt_of_pow_le hpos hlt habove hlimit
    exact absurd (hnone k hkj.le) (not_le.2 hdec)

/-- **No spurious underflow.** Where a function has a gradient other than zero, the search along the
direction of a positive definite matrix is successful with every limit below some bound, and an
iteration with such a limit does not give up. -/
theorem no_spurious_underflow [Solver ℝ] [ExactSolver] {f : Vec ℝ n → ℝ} {x g : Vec ℝ n}
    {H : Mat ℝ n n} {b : ℝ} (hf : HasGradient f g x) (hg : g ≠ 0) (hH : H.toMatrix.PosDef)
    (hpos : 0 < b) (hlt : b < 1) :
    ∃ p, (∀ reg, solveRidged H g reg = ⟨false, some p⟩) ∧ ∃ δ > 0, ∀ μ, 0 < μ → μ < δ →
      ∃ least, ∀ limit ≥ least,
        (∃ found, (⟨x, -p, f x, b, μ⟩ : Ray ℝ n).plain f limit = some found ∧
          found.success = true) ∧
        ∀ (s : Settings ℝ) (o : Oracle ℝ n) (st : State ℝ n), s.backtrack = b → s.minStep = μ →
          s.trialLimit = limit → (∀ y, o.value y = f y ∧ (o.jet y).1 = f y) → st.x = x →
          st.value = f x → st.gradient = g → st.hessian = H → ∀ stop past, ∃ c st' e,
            (iterate s st).hold (o.answer stop) past = (c, .ok (st', e)) ∧
              e ≠ some .stepUnderflow := by
  obtain ⟨p, hp, hdown⟩ := exists_downhill hH hg
  obtain ⟨k, hdec⟩ := hf.exists_decrease hdown hpos hlt
  refine ⟨p, hp, b ^ k, pow_pos hpos k, ?_⟩
  intro μ hμ habove
  obtain ⟨least, hleast⟩ := exists_isLeast_pow hlt hμ
  refine ⟨least, ?_⟩
  intro limit hlimit
  have hends : ∃ j ≤ limit, b ^ j ≤ μ := ⟨least, hlimit, hleast.1⟩
  constructor
  · refine Ray.success_of_decrease hpos hlt (k := k) ?_ habove hends
    rw [Ray.trialPoint_real]
    exact hdec
  · rintro s o st rfl rfl rfl ho rfl hvalue rfl rfl stop past
    have hd : st.Leads s (-p) := ⟨p, by rw [State.solved, hp], rfl⟩
    obtain ⟨c, st', e, hhold, hpace⟩ := hold_paces (o := o) (s := s)
      (fun y => (ho y).2.trans (ho y).1.symm) hpos hends hd stop past
    refine ⟨c, st', e, hhold, hpace.ne_underflow (k := k) hpos hlt ?_ habove⟩
    rw [(ho _).1, hvalue]
    exact hdec

/-- The square of the only coordinate has twice the coordinate as its gradient. -/
theorem hasGradient_square (x : Vec ℝ 1) :
    HasGradient (fun u => u.get 0 ^ 2) ((2 : ℝ) * x) x := by
  have hcoordinate : HasFDerivAt (fun u : Fin 1 → ℝ => u 0)
      (ContinuousLinearMap.proj 0 : (Fin 1 → ℝ) →L[ℝ] ℝ) x.get := hasFDerivAt_apply 0 x.get
  have hsquare := hcoordinate.pow 2
  simp only [HasGradient, get_ofFn]
  refine ⟨_, hsquare, ?_⟩
  intro v
  simp [dotProduct]

/-- The square from `1`, with the identity as curvature matrix and a factor of one half. -/
theorem no_spurious_underflow_square :
    letI := solveByInverse
    let x : Vec ℝ 1 := #v[1]
    let g : Vec ℝ 1 := (2 : ℝ) * x
    HasGradient (fun u => u.get 0 ^ 2) g x ∧
      ∃ p, (∀ reg, solveRidged (Mat.identity 1) g reg = ⟨false, some p⟩) ∧
        ∃ δ > 0, ∀ μ, 0 < μ → μ < δ → ∃ least, ∀ limit ≥ least, ∃ found,
          (⟨x, -p, x.get 0 ^ 2, 1 / 2, μ⟩ : Ray ℝ 1).plain (fun u => u.get 0 ^ 2) limit =
            some found ∧ found.success = true := by
  intro x g
  let := solveByInverse
  have := solveByInverse_exact
  have hne : g ≠ 0 := by
    intro h0
    have hone : x.get 0 = 1 := rfl
    have hentry : g.get 0 = 0 := by rw [h0, get_zero]
    rw [get_smul, hone] at hentry
    norm_num at hentry
  obtain ⟨p, hp, δ, hδ, hsearch⟩ := no_spurious_underflow (hasGradient_square x) hne
    posDef_identity (b := 1 / 2) (by norm_num) (by norm_num)
  refine ⟨hasGradient_square x, p, hp, δ, hδ, ?_⟩
  intro μ hμ habove
  obtain ⟨least, hleast⟩ := hsearch μ hμ habove
  exact ⟨least, fun limit hlimit => (hleast limit hlimit).1⟩

end VariableMetric
