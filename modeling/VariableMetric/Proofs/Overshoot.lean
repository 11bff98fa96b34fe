import VariableMetric.Proofs.Quadratic

/-!
# Searches that overshoot

On a strictly convex quadratic objective the values along a direction of descent fall at first, and
are level with the start again at one step. A search in exact arithmetic takes the first of its
steps that is shorter than this one.

* `Ray.Found`: **what a search comes to** where the decreases are the steps shorter than some `τ`.
* `Ray.Found.le_step`, `Ray.Found.success_of_lt`: how long the step is, and when there is one.
* `value_lt_iff`: the decreases along a direction are the steps shorter than the level one.
* `update_along`: the update for a step along which the gradient changes by `A`.
* `search_on_quadratic`: **one search and the update after it**.
-/

namespace VariableMetric

open Matrix

variable {n : ℕ}

/-! ### Searches for a step that is short enough -/

section Searches

/-- **What a search comes to** where the decreases are the steps shorter than `τ`, and `K` is the
first trial whose step is not above the limit. -/
inductive Ray.Found (r : Ray ℝ n) (f : Vec ℝ n → ℝ) (τ : ℝ) (K : ℕ) (t : Searched ℝ n) : Prop
  /-- The first trial with a step that is short enough. -/
  | accepted {k : ℕ} (hk : IsLeast {j | j ≤ K ∧ r.factor ^ j < τ} k) (hsuccess : t.success = true)
      (hstep : t.step = r.factor ^ k) (hbacktracks : t.backtracks = k)
      (hx : t.x = r.origin + r.factor ^ k * r.direction) (hvalue : t.value = f t.x)
  /-- No step is short enough. -/
  | refused (hnone : ∀ j ≤ K, τ ≤ r.factor ^ j) (hsuccess : t.success = false) (hstep : t.step = 0)
      (hbacktracks : t.backtracks = K)

variable {r : Ray ℝ n} {f : Vec ℝ n → ℝ} {τ : ℝ} {K : ℕ}

/-- **Every search** of this kind comes to one of the two, if it is let come down to its limit. -/
theorem Ray.exists_found (hpos : 0 < r.factor) {full : Option ℝ}
    (hfull : ∀ v, full = some v → v = f (r.trialPoint 0))
    (hdec : ∀ k, f (r.trialPoint k) < r.value ↔ r.factor ^ k < τ)
    (hK : IsLeast {k | r.factor ^ k ≤ r.minStep} K) {limit : ℕ} (hlimit : K ≤ limit) :
    ∃ t, Id.run (r.search f full limit) = some t ∧ r.Found f τ K t := by
  obtain ⟨k, hrun, hlast, hfirst⟩ := r.exists_search f hfull ⟨K, hlimit, hK.1⟩
  refine ⟨_, hrun, ?_⟩
  have hkK : k ≤ K := by
    by_contra hlt
    exact absurd (hfirst K (not_le.1 hlt)).2 (not_lt.2 hK.1)
  have hbefore : ∀ i < k, τ ≤ r.factor ^ i := by
    intro i hi
    by_contra hlt
    exact absurd ((hdec i).2 (not_le.1 hlt)) (not_lt.2 (hfirst i hi).1)
  by_cases hshort : r.factor ^ k < τ
  · have hdown := (hdec k).2 hshort
    have hleast : IsLeast {j | j ≤ K ∧ r.factor ^ j < τ} k := by
      refine ⟨⟨hkK, hshort⟩, fun j hj => ?_⟩
      by_contra hlt
      exact absurd hj.2 (not_lt.2 (hbefore j (not_le.1 hlt)))
    refine .accepted hleast ?_ ?_ rfl (r.trialPoint_real k) rfl
    · rw [r.success_real hpos]
      exact decide_eq_true hdown
    · rw [r.step_real, if_pos hdown]
  · have hup : ¬ f (r.trialPoint k) < r.value := fun hdown => hshort ((hdec k).1 hdown)
    -- a search that comes to no decrease has come down to its limit
    have hend : k = K := le_antisymm hkK (hK.2 (hlast.resolve_left hup))
    refine .refused ?_ ?_ ?_ hend
    · intro j hj
      rcases Nat.lt_or_eq_of_le hj with hlt | heq
      · exact hbefore j (by omega)
      · rw [heq, ← hend]
        exact not_lt.1 hshort
    · rw [r.success_real hpos]
      exact decide_eq_false hup
    · rw [r.step_real, if_neg hup]

variable {t : Searched ℝ n}

/-- The search fails where no step is short enough. -/
theorem Ray.Found.success_eq_false_iff (h : r.Found f τ K t) :
    t.success = false ↔ ∀ j ≤ K, τ ≤ r.factor ^ j := by
  cases h with
  | accepted hk hsuccess hstep hbacktracks hx hvalue =>
    rw [hsuccess]
    refine iff_of_false nofun fun hnone => ?_
    exact absurd hk.1.2 (not_lt.2 (hnone _ hk.1.1))
  | refused hnone hsuccess hstep hbacktracks => exact iff_of_true hsuccess hnone

/-- A limit below `τ` leaves a step that is short enough. -/
theorem Ray.Found.success_of_lt (h : r.Found f τ K t)
    (hK : IsLeast {k | r.factor ^ k ≤ r.minStep} K) (hlt : r.minStep < τ) : t.success = true := by
  rw [← Bool.not_eq_false, h.success_eq_false_iff]
  intro hnone
  exact absurd hlt (not_lt.2 ((hnone K le_rfl).trans hK.1))

/-- **How long the step is**: the one before it was not short enough. -/
theorem Ray.Found.le_step (h : r.Found f τ K t) (hpos : 0 < r.factor) (hs : t.success = true) :
    min 1 (r.factor * τ) ≤ t.step := by
  cases h with
  | @accepted k hk hsuccess hstep hbacktracks hx hvalue =>
    rw [hstep]
    cases k with
    | zero => exact (min_le_left _ _).trans (pow_zero r.factor).ge
    | succ i =>
      have hlong : τ ≤ r.factor ^ i := by
        by_contra hlt
        have hle : i + 1 ≤ i := hk.2 ⟨by have hle := hk.1.1; omega, not_le.1 hlt⟩
        omega
      rw [pow_succ, mul_comm _ r.factor]
      exact (min_le_right _ _).trans (mul_le_mul_of_nonneg_left hlong hpos.le)
  | refused hnone hsuccess hstep hbacktracks => exact Bool.noConfusion (hs.symm.trans hsuccess)

end Searches

/-! ### Quadratic objectives -/

variable {A : Matrix (Fin n) (Fin n) ℝ} {H : Mat ℝ n n} {b : Vec ℝ n} {c : ℝ}

/-- **The update along a step** other than zero, with the change of the gradient that belongs to it,
is made and gives a positive definite matrix. -/
theorem update_along (hA : A.PosDef) (hH : H.toMatrix.PosDef) {s y : Vec ℝ n} (hs : s.get ≠ 0)
    (hy : y.get = A *ᵥ s.get) :
    (secantUpdate H s y 0).applied = true ∧ (secantUpdate H s y 0).matrix.toMatrix.PosDef := by
  refine ⟨secantUpdate_applied_iff.2 ⟨?_, form_pos hH hs⟩, posDef_secantUpdate hH s y le_rfl⟩
  rw [hy, dotProduct_comm]
  exact form_pos hA hs

/-- **The decreases along `-p`** are the steps shorter than the one that comes to a level value. -/
theorem value_lt_iff (hA : A.PosDef) {x z p : Vec ℝ n} (hp : p.get ≠ 0) {t : ℝ} (ht : 0 < t)
    (hz : z.get = x.get + t • (-p).get) :
    (quadratic A b c).value z < (quadratic A b c).value x ↔
      t < 2 * (((quadratic A b c).jet x).2.get ⬝ᵥ p.get) / (p.get ⬝ᵥ A *ᵥ p.get) := by
  set g := ((quadratic A b c).jet x).2 with hgrad
  have hq : 0 < p.get ⬝ᵥ A *ᵥ p.get := form_pos hA hp
  have hslope : (-p).get ⬝ᵥ (A *ᵥ x.get - b.get) = -(g.get ⬝ᵥ p.get) := by
    rw [← get_gradient (c := c), ← hgrad, neg_get, neg_dotProduct, dotProduct_comm]
  have hform : (-p).get ⬝ᵥ A *ᵥ (-p).get = p.get ⬝ᵥ A *ᵥ p.get := by
    rw [neg_get, mulVec_neg, dotProduct_neg, neg_dotProduct, neg_neg]
  have hvalue : (quadratic A b c).value z - (quadratic A b c).value x =
      t / 2 * (t * (p.get ⬝ᵥ A *ᵥ p.get) - 2 * (g.get ⬝ᵥ p.get)) := by
    rw [value_along hA.isHermitian hz, hslope, hform]
    ring
  have hhalf : 0 < t / 2 := half_pos ht
  rw [lt_div_iff₀ hq, ← sub_neg, hvalue, ← sub_neg (b := 2 * _)]
  exact smul_neg_iff_of_pos_left hhalf

/-- **One search on a strictly convex quadratic objective**, along the direction of a positive
definite matrix, from where the gradient is not zero. The values are level with the start at the
step `τ`. The search takes the first trial whose step is shorter than `τ`, and fails if there is
none down to the first trial `K` whose step is not above the limit. So it is successful if the limit
is below `τ`, and a step that it takes is one, or no shorter than `τ` times the factor. The update
after it is made, and gives a positive definite matrix. All of this is so whether the value of the
full step is known or not. -/
theorem search_on_quadratic (hA : A.PosDef) (hH : H.toMatrix.PosDef) {x p : Vec ℝ n}
    (hg : ((quadratic A b c).jet x).2 ≠ 0) (hp : H.mulVec p = ((quadratic A b c).jet x).2)
    {shrink minStep : ℝ} (hpos : 0 < shrink) (hlt : shrink < 1) (hmin : 0 < minStep)
    {full : Option ℝ} (hfull : ∀ v, full = some v → v = (quadratic A b c).value (x + -p)) :
    let f := (quadratic A b c).value
    let g := ((quadratic A b c).jet x).2
    let τ := 2 * (g.get ⬝ᵥ p.get) / (p.get ⬝ᵥ A *ᵥ p.get)
    let r : Ray ℝ n := ⟨x, -p, f x, shrink, minStep⟩
    ∃ K, IsLeast {k | shrink ^ k ≤ minStep} K ∧ ∀ limit ≥ K, ∃ t,
      Id.run (r.search f full limit) = some t ∧
      (∀ k, IsLeast {j | j ≤ K ∧ shrink ^ j < τ} k →
        t.success = true ∧ t.step = shrink ^ k ∧ t.backtracks = k ∧
          t.x = x + shrink ^ k * -p ∧ t.value = f t.x) ∧
      (t.success = false ↔ ∀ j ≤ K, τ ≤ shrink ^ j) ∧
      (t.success = false → t.step = 0 ∧ t.backtracks = K) ∧
      (minStep < τ → t.success = true) ∧
      (t.success = true → min 1 (shrink * τ) ≤ t.step ∧
        ∀ y : Vec ℝ n, y.get = A *ᵥ (t.x - x).get →
          (secantUpdate H (t.x - x) y 0).applied = true ∧
            (secantUpdate H (t.x - x) y 0).matrix.toMatrix.PosDef) := by
  intro f g τ r
  have hp0 : p.get ≠ 0 := get_ne_zero_of_mulVec hp hg
  obtain ⟨K, hK⟩ := exists_isLeast_pow hlt hmin
  refine ⟨K, hK, fun limit hlimit => ?_⟩
  have hget (k : ℕ) : (x + shrink ^ k * -p).get = x.get + shrink ^ k • (-p).get := by
    funext i
    rw [get_add, smul_get]
    rfl
  have hdec (k : ℕ) : f (r.trialPoint k) < r.value ↔ r.factor ^ k < τ := by
    refine value_lt_iff hA hp0 (pow_pos hpos k) ?_
    rw [r.trialPoint_real]
    exact hget k
  obtain ⟨t, hrun, hfound⟩ := r.exists_found hpos hfull hdec hK hlimit
  refine ⟨t, hrun, ?_, hfound.success_eq_false_iff, ?_, hfound.success_of_lt hK, fun hs =>
    ⟨hfound.le_step hpos hs, fun y hy => update_along hA hH ?_ hy⟩⟩
  · intro k hk
    cases hfound with
    | @accepted k' hk' hsuccess hstep hbacktracks hx hvalue =>
      obtain rfl : k' = k := hk'.unique hk
      exact ⟨hsuccess, hstep, hbacktracks, hx, hvalue⟩
    | refused hnone hsuccess hstep hbacktracks =>
      exact absurd hk.1.2 (not_lt.2 (hnone k hk.1.1))
  · intro hs
    cases hfound with
    | accepted hk hsuccess hstep hbacktracks hx hvalue =>
      exact Bool.noConfusion (hsuccess.symm.trans hs)
    | refused hnone hsuccess hstep hbacktracks => exact ⟨hstep, hbacktracks⟩
  · -- the step is a multiple of the direction
    cases hfound with
    | @accepted k hk hsuccess hstep hbacktracks hx hvalue =>
      have hmove : (t.x - x).get = shrink ^ k • (-p).get := by
        rw [sub_get, hx, hget, add_sub_cancel_left]
      rw [hmove, neg_get]
      exact smul_ne_zero (pow_pos hpos k).ne' (neg_ne_zero.2 hp0)
    | refused hnone hsuccess hstep hbacktracks => exact Bool.noConfusion (hs.symm.trans hsuccess)

/-- The value after half the step is level with the start, so the search halves the step once more,
and comes to the minimum. -/
theorem search_on_quadratic_level :
    let A : Matrix (Fin 2) (Fin 2) ℝ := diagonal ![4, 1]
    let o := quadratic A (0 : Vec ℝ 2) 0
    let x : Vec ℝ 2 := #v[1, 0]
    let p : Vec ℝ 2 := #v[4, 0]
    let r : Ray ℝ 2 := ⟨x, -p, o.value x, 1 / 2, 1 / 8⟩
    A.PosDef ∧ (Mat.identity 2 : Mat ℝ 2 2).toMatrix.PosDef ∧ (o.jet x).2 ≠ 0 ∧
      (Mat.identity 2).mulVec p = (o.jet x).2 ∧
      ∃ limit t, Id.run (r.search o.value none limit) = some t ∧ t.success = true ∧
        t.step = (1 / 2) ^ 2 ∧ t.backtracks = 2 ∧
        ∀ y : Vec ℝ 2, y.get = A *ᵥ (t.x - x).get →
          (secantUpdate (Mat.identity 2) (t.x - x) y 0).applied = true := by
  intro A o x p r
  have hA : A.PosDef := by
    refine .diagonal fun i => ?_
    fin_cases i <;> norm_num
  have hgrad : (o.jet x).2.get = ![4, 0] := by
    rw [get_gradient_form, get_pair]
    funext i
    fin_cases i <;> norm_num [A, mulVec_diagonal]
  have hp : (o.jet x).2 = p := vec_ext fun i => by rw [hgrad, get_pair]
  have hg : (o.jet x).2 ≠ 0 := by
    intro hzero
    rw [← get_eq_zero_iff, hgrad] at hzero
    exact four_ne_zero (congrFun hzero 0)
  have hsolves : (Mat.identity 2).mulVec p = (o.jet x).2 := by
    refine vec_ext fun i => ?_
    rw [get_mulVec, toMatrix_identity, one_mulVec, hp]
  have hlevel : 2 * ((o.jet x).2.get ⬝ᵥ p.get) / (p.get ⬝ᵥ A *ᵥ p.get) = 1 / 2 := by
    rw [hgrad, get_pair]
    norm_num [A, mulVec_diagonal, dotProduct, Fin.sum_univ_two]
  have hnone : ∀ v : ℝ, none = some v → v = o.value (x + -p) := nofun
  obtain ⟨K, hK, hsearch⟩ := search_on_quadratic (b := 0) (c := 0) hA posDef_identity hg hsolves
    (show (0 : ℝ) < 1 / 2 by norm_num) (by norm_num) (show (0 : ℝ) < 1 / 8 by norm_num) hnone
  obtain ⟨t, hrun, haccepts, -, -, -, hupdate⟩ := hsearch K le_rfl
  have hlong (j : ℕ) (hj : j < 2) : (1 / 2 : ℝ) ≤ (1 / 2) ^ j := by
    interval_cases j <;> norm_num
  have hleast : IsLeast {j | j ≤ K ∧ (1 / 2 : ℝ) ^ j <
      2 * ((o.jet x).2.get ⬝ᵥ p.get) / (p.get ⬝ᵥ A *ᵥ p.get)} 2 := by
    rw [hlevel]
    refine ⟨⟨?_, by norm_num⟩, fun j hj => ?_⟩
    · by_contra hlt
      have hle : (1 / 2 : ℝ) ≤ 1 / 8 := (hlong K (not_le.1 hlt)).trans hK.1
      norm_num at hle
    · by_contra hlt
      exact absurd hj.2 (not_lt.2 (hlong j (not_le.1 hlt)))
  obtain ⟨hsuccess, hstep, hbacktracks, -, -⟩ := haccepts 2 hleast
  exact ⟨hA, posDef_identity, hg, hsolves, K, t, hrun, hsuccess, hstep, hbacktracks,
    fun y hy => ((hupdate hsuccess).2 y hy).1⟩

end VariableMetric
