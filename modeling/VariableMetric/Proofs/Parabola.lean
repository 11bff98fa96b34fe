import VariableMetric.Proofs.Quadratic

/-!
# Parabolas

With one variable and no threshold on the denominators of the secant update, the first step of a run
shows the curvature, the second comes to the minimum, and the third sees that it is there.

* `parabola`: the objective `a x² / 2 - b x + c`, a quadratic one in one variable.
* `Recovers`: how far a run has come, and `Pace.recovers`: an iteration takes it one stage on or
  converges.
* `parabola_recovered`: **a run on a parabola** converges within three iterations, and returns the
  minimum and the curvature if it takes more than one.
-/

namespace VariableMetric

open Matrix

variable {a b c : ℝ}

/-- **The parabola** `a x² / 2 - b x + c`, with its derivative `a x - b`. -/
noncomputable def parabola (a b c : ℝ) : Oracle ℝ 1 :=
  let f (x : Vec ℝ 1) : ℝ := 0.5 * (a * x.get lead ^ 2) - b * x.get lead + c
  ⟨f, fun x => (f x, #v[a * x.get lead - b])⟩

theorem parabola_eq : parabola a b c = quadratic (a • 1) #v[b] c := by
  have hvalue (x : Vec ℝ 1) :
      0.5 * (a * x.get 0 ^ 2) - b * x.get 0 + c = (quadratic (a • 1) #v[b] c).value x := by
    rw [quadratic_value, smul_mulVec, one_mulVec]
    simp only [dotProduct, Finset.univ_unique, Fin.default_eq_zero, Finset.sum_singleton,
      Pi.smul_apply, smul_eq_mul, get_singleton]
    ring
  have hslope (x : Vec ℝ 1) :
      #v[a * x.get 0 - b] = ((quadratic (a • 1) #v[b] c).jet x).2 := by
    refine vec_ext fun i => ?_
    rw [get_gradient, smul_mulVec, one_mulVec, get_singleton, Pi.sub_apply, Pi.smul_apply,
      get_singleton, Subsingleton.elim i 0, smul_eq_mul]
  have hjet (x : Vec ℝ 1) : (0.5 * (a * x.get 0 ^ 2) - b * x.get 0 + c, #v[a * x.get 0 - b]) =
      (quadratic (a • 1) #v[b] c).jet x := Prod.ext (hvalue x) (hslope x)
  exact congrArg₂ Oracle.mk (funext hvalue) (funext hjet)

/-- The derivative vanishes at the minimum alone. -/
theorem State.On.eq_minimum {st : State ℝ 1} (hon : st.On (parabola a b c)) (ha : 0 < a)
    (hg : st.gradient.get = 0) : st.x = #v[b / a] := by
  have hzero : a * st.x.get 0 - b = 0 := by
    rw [hon.gradient_eq] at hg
    exact congrFun hg 0
  refine vec_ext fun i => ?_
  rw [get_singleton, Subsingleton.elim i 0, eq_div_iff ha.ne']
  linarith

/-- **How far a run has come**: it has begun, it has the curvature, it is at the minimum too. -/
inductive Recovers (a : ℝ) (st : State ℝ 1) : Prop
  | begun (hn : st.nit = 0) (hH : st.hessian = Mat.identity 1)
  | curved (hn : st.nit = 1) (hH : st.hessian.toMatrix = a • 1)
  | solved (hn : st.nit = 2) (hH : st.hessian.toMatrix = a • 1) (hg : st.gradient.get = 0)

/-- **What a run comes to**: within three iterations, and with minimum and curvature if it took more
than one. -/
structure Recovered (a : ℝ) (st : State ℝ 1) : Prop where
  nit_le : st.nit ≤ 3
  solved : 2 ≤ st.nit → st.hessian.toMatrix = a • 1 ∧ st.gradient.get = 0

section Stages

variable {s : Settings ℝ} {st st' : State ℝ 1} {d : Vec ℝ 1} {e : Option Ending} {q : Vec ℝ 1}

theorem posDef_smul_one {n : ℕ} (ha : 0 < a) : (a • 1 : Matrix (Fin n) (Fin n) ℝ).PosDef :=
  PosDef.one.smul ha

theorem Recovers.posDef (h : Recovers a st) (ha : 0 < a) : st.hessian.toMatrix.PosDef := by
  cases h with
  | begun hn hH => exact hH ▸ posDef_identity
  | curved hn hH => exact hH ▸ posDef_smul_one ha
  | solved hn hH hg => exact hH ▸ posDef_smul_one ha

theorem Recovers.nit_le (h : Recovers a st) : st.nit ≤ 2 := by
  cases h with
  | begun hn hH => omega
  | curved hn hH => omega
  | solved hn hH hg => omega

/-- A run may end at every stage. -/
theorem Recovers.recovered (h : Recovers a st) : Recovered a st := by
  refine ⟨h.nit_le.trans (by omega), fun htwo => ?_⟩
  cases h with
  | begun hn hH => omega
  | curved hn hH => omega
  | solved hn hH hg => exact ⟨hH, hg⟩

/-- It may end one iteration after a stage where the gradient vanishes. -/
theorem Recovers.rested (h : Recovers a st) (hg : st.gradient.get = 0) :
    Recovered a (st.begun.counted 0 1) := by
  have hn : (st.begun.counted 0 1).nit = st.nit + 1 := rfl
  refine ⟨by have hle := h.nit_le; omega, fun htwo => ?_⟩
  cases h with
  | begun hn0 hH => omega
  | curved hn hH => exact ⟨hH, hg⟩
  | solved hn hH hg => exact ⟨hH, hg⟩

variable [Solver ℝ] [ExactSolver]

/-- **The first step shows the curvature**, wherever it leads. -/
theorem Pace.curved (h : Pace s (quadratic (a • 1) q c) st d st' e) (ha : 0 < a)
    (hpos : 0 < s.backtrack) (hshort : s.minStep * a < 2) (htol : s.curvatureTol = 0)
    (hon : st.On (quadratic (a • 1) q c)) (hH : st.hessian = Mat.identity 1) (hd : st.Leads s d)
    (hg : st.gradient.get ≠ 0) :
    e = some .converged ∧ st' = st.begun.counted 0 1 ∨
      st'.hessian.toMatrix = a • 1 ∧ (e = none ∨ e = some .converged) := by
  obtain hrest | ⟨k, -, -, hx, -, hupdate, he⟩ := h.isotropic ha hpos hshort hon hH hd hg
  · exact .inl hrest
  have hchange : (st'.gradient - st.gradient).get = a • (st'.x - st.x).get := by
    rw [(h.on hon).gradient_eq, hon.change, smul_mulVec, one_mulVec]
  -- a step along a direction that is not zero
  have hstep : (st'.x - st.x).get ≠ 0 := by
    have hsolves := hd.solves (hH ▸ posDef_identity)
    rw [hH, toMatrix_identity, one_mulVec] at hsolves
    rw [hx, get_sub_stepTo, hsolves]
    exact smul_ne_zero (pow_pos hpos k).ne' (neg_ne_zero.2 hg)
  have hsq : 0 < (st'.x - st.x).get ⬝ᵥ (st'.x - st.x).get := dot_self_pos hstep
  refine .inr ⟨?_, he⟩
  rw [hupdate, hH, htol]
  exact secantUpdate_first le_rfl hchange (mul_pos ha hsq) hsq

/-- **An iteration takes a run one stage on**, or it converges. -/
theorem Pace.recovers (h : Pace s (quadratic (a • 1) q c) st d st' e) (ha : 0 < a)
    (htolx : 0 < s.tolx) (htolfun : 0 < s.tolfun) (hpos : 0 < s.backtrack)
    (hshort : s.minStep * a < 2) (htol : s.curvatureTol = 0)
    (hon : st.On (quadratic (a • 1) q c)) (hrec : Recovers a st) (hd : st.Leads s d) :
    e = none ∧ Recovers a st' ∨ e = some .converged ∧ Recovered a st' := by
  have hon_stage (hrec' : Recovers a st') (he : e = none ∨ e = some .converged) :
      e = none ∧ Recovers a st' ∨ e = some .converged ∧ Recovered a st' :=
    he.imp (fun he => ⟨he, hrec'⟩) fun he => ⟨he, hrec'.recovered⟩
  have hnit := h.nit_eq
  by_cases hg : st.gradient.get = 0
  · obtain ⟨he, rfl⟩ := h.of_gradient_eq_zero hon hd (hrec.posDef ha) hg htolx htolfun
    exact .inr ⟨he, hrec.rested hg⟩
  cases hrec with
  | begun hn hH =>
    obtain ⟨he, rfl⟩ | ⟨hH', he⟩ := h.curved ha hpos hshort htol hon hH hd hg
    · refine .inr ⟨he, by rw [hnit, hn]; omega, fun htwo => ?_⟩
      rw [hnit, hn] at htwo
      omega
    · exact hon_stage (.curved (by omega) hH') he
  | curved hn hH =>
    obtain ⟨hg', hH', he⟩ := h.newton (posDef_smul_one ha) hon hH hd htolx htolfun
    exact hon_stage (.solved (by omega) hH' hg') he
  | solved hn hH hg' => exact absurd hg' hg

end Stages

section Runs

variable {s : Settings ℝ} {x0 : Vec ℝ 1} [Solver ℝ] [ExactSolver]

/-- A run on a parabola recovers minimum and curvature. -/
theorem exists_run_recovered (x0 : Vec ℝ 1) (ha : 0 < a) (htolx : 0 < s.tolx)
    (htolfun : 0 < s.tolfun) (hpos : 0 < s.backtrack) (hshort : s.minStep * a < 2)
    (htol : s.curvatureTol = 0) (hmax : 3 ≤ s.maxiter) (hample : s.Ample) :
    ∃ course st ending, (parabola a b c).run (fun _ => false) s x0 =
        (course, .ok (State.result st ending)) ∧
      ending = .converged ∧ st.On (parabola a b c) ∧ Recovered a st := by
  have ho : ∀ x, ((parabola a b c).jet x).1 = (parabola a b c).value x := fun _ => rfl
  refine Oracle.exists_run_paced (P := fun st => st.On (parabola a b c) ∧ Recovers a st) ho hpos
    hample ⟨.start s ho x0, .begun rfl rfl⟩ ?_ ?_ ?_
  · rintro st ⟨-, hrec⟩ -
    exact exists_leads (hrec.posDef ha)
  · rintro st d st' e ⟨hon, hrec⟩ - hd h
    have hon' := h.on hon
    rw [parabola_eq] at h hon
    obtain ⟨rfl, hrec'⟩ | ⟨rfl, hrec'⟩ :=
      h.recovers ha htolx htolfun hpos hshort htol hon hrec hd
    · exact ⟨hon', hrec'⟩
    · exact ⟨rfl, hon', hrec'⟩
  · -- the limit on iterations is not met
    rintro st ⟨-, hrec⟩ hfull
    have hle := hrec.nit_le
    omega

/-- **A run on a parabola** converges within three iterations; if it takes more than one, it returns
exactly the minimum and the curvature. So it is with every limit on trials that is large enough not
to cut its searches short. -/
theorem parabola_recovered (ha : 0 < a) (htolx : 0 < s.tolx) (htolfun : 0 < s.tolfun)
    (hpos : 0 < s.backtrack) (hlt : s.backtrack < 1) (hmin : 0 < s.minStep)
    (hshort : s.minStep < 2 / a) (htol : s.curvatureTol = 0) (hmax : 3 ≤ s.maxiter) :
    ∃ trials, ∀ limit ≥ trials, ∃ course r,
      (parabola a b c).run (fun _ => false) { s with trialLimit := limit } x0 = (course, .ok r) ∧
        r.ending.status = .converged ∧ r.nit ≤ 3 ∧
        (2 ≤ r.nit → r.x = #v[b / a] ∧ r.hessian = #v[#v[a]]) := by
  obtain ⟨trials, hample⟩ := exists_ample hlt hmin
  refine ⟨trials, fun limit hlimit => ?_⟩
  obtain ⟨course, st, ending, hrun, rfl, hon, hrec⟩ :=
    exists_run_recovered (b := b) (c := c) (s := { s with trialLimit := limit }) x0 ha htolx htolfun
      hpos ((lt_div_iff₀ ha).1 hshort) htol hmax (hample limit hlimit)
  refine ⟨course, st.result .converged, hrun, rfl, hrec.nit_le, fun htwo => ?_⟩
  obtain ⟨hH, hg⟩ := hrec.solved htwo
  exact ⟨hon.eq_minimum ha hg, eq_of_toMatrix hH⟩

end Runs

/-- A parabola whose first full step leads uphill. -/
theorem parabola_recovered_uphill :
    letI := solveByInverse
    let s : Settings ℝ := ⟨3, 1 / 1000000, 1 / 1000000, 1 / 2, 1 / 8, 0, 1, 0, false⟩
    (0 : ℝ) < 3 ∧ 0 < s.tolx ∧ 0 < s.tolfun ∧ 0 < s.backtrack ∧ s.backtrack < 1 ∧ 0 < s.minStep ∧
      s.minStep < 2 / 3 ∧ s.curvatureTol = 0 ∧ 3 ≤ s.maxiter ∧
      (parabola 3 6 1).value #v[0] < (parabola 3 6 1).value (#v[0] - #v[-6]) ∧
      ∃ trials, ∀ limit ≥ trials, ∃ course r,
        (parabola 3 6 1).run (fun _ => false) { s with trialLimit := limit } #v[0] =
            (course, .ok r) ∧
          r.ending.status = .converged ∧ r.nit ≤ 3 ∧
          (2 ≤ r.nit → r.x = #v[6 / 3] ∧ r.hessian = #v[#v[3]]) := by
  let := solveByInverse
  have : ExactSolver := solveByInverse_exact
  intro s
  have hthree : (0 : ℝ) < 3 := by norm_num
  have htolx : 0 < s.tolx := by norm_num [s]
  have htolfun : 0 < s.tolfun := by norm_num [s]
  have hpos : 0 < s.backtrack := by norm_num [s]
  have hlt : s.backtrack < 1 := by norm_num [s]
  have hmin : 0 < s.minStep := by norm_num [s]
  have hshort : s.minStep < 2 / 3 := by norm_num [s]
  have huphill : (parabola 3 6 1).value #v[0] < (parabola 3 6 1).value (#v[0] - #v[-6]) := by
    simp only [parabola, get_sub, get_singleton]
    norm_num
  exact ⟨hthree, htolx, htolfun, hpos, hlt, hmin, hshort, rfl, le_rfl, huphill,
    parabola_recovered hthree htolx htolfun hpos hlt hmin hshort rfl le_rfl⟩

end VariableMetric
