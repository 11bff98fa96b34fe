import VariableMetric.Proofs.Search
import VariableMetric.Proofs.Product

/-!
# Steps that are shortened

A search multiplies its step by a factor below one. The product is rounded, and a step of few units
can be rounded back to where it was.

* `Double.Shortens`: the factor shortens a step.
* `Double.product_lt`, `Double.le_product`: **a step that is shortened becomes shorter; one that is
  not stops every longer one from going below it.**
* `Double.InRange`: what a search is told is in range.
* `Ray.exists_units`: the steps of a search in units, and what holds of all of them.
* `Ray.exists_low`, `Ray.above`: whether the steps come down to the limit.
-/

namespace VariableMetric

namespace Double

open Binary

/-- **A factor shortens a step**: rounded to whole units, their product is below the step. -/
def Shortens (s u : ℕ) : Prop := roundDiv .nearest (u * s) perOne < u

instance (s u : ℕ) : Decidable (Shortens s u) := Nat.decLt _ _

section Gaps

variable {s u g : ℕ}

/-- Counts that fit are a unit of their place apart. -/
theorem Fits.gap {d j : ℕ} (h : Fits s) (hd : d = 2 ^ j) (hlt : s < 2 ^ 53 * d) :
    s + d ≤ 2 ^ 53 * d := by
  obtain ⟨m, k, hm, rfl⟩ := h
  subst hd
  rcases Nat.le_total k j with hk | hk
  · have hle : m * 2 ^ k ≤ m * 2 ^ j := Nat.mul_le_mul_left m (Nat.pow_le_pow_right two_pos hk)
    have hnext : (m + 1) * 2 ^ j ≤ 2 ^ 53 * 2 ^ j := Nat.mul_le_mul_right _ hm
    rw [Nat.succ_mul] at hnext
    omega
  · obtain ⟨i, rfl⟩ := Nat.exists_eq_add_of_le hk
    -- both are multiples of the smaller of the two places
    have heq : m * 2 ^ (j + i) = m * 2 ^ i * 2 ^ j := by ring
    rw [heq, Nat.mul_lt_mul_right (Nat.two_pow_pos j)] at hlt
    have hnext : (m * 2 ^ i + 1) * 2 ^ j ≤ 2 ^ 53 * 2 ^ j := Nat.mul_le_mul_right _ hlt
    rw [Nat.succ_mul] at hnext
    rw [heq]
    exact hnext

/-- A count that fits is a multiple of every place at which it has more than 53 bits. -/
theorem Fits.dvd (h : Fits u) (hlt : 2 ^ (g + 52) < u) : 2 ^ g ∣ u := by
  obtain ⟨m, k, hm, rfl⟩ := h
  have hg : g ≤ k := by
    by_contra hk
    have hle : m * 2 ^ k < 2 ^ 53 * 2 ^ k := Nat.mul_lt_mul_of_pos_right hm (Nat.two_pow_pos k)
    have hpow : 2 ^ (53 + k) ≤ 2 ^ (g + 52) := Nat.pow_le_pow_right two_pos (by omega)
    rw [pow_add] at hpow
    omega
  exact Dvd.dvd.mul_left (Nat.pow_dvd_pow 2 hg) m

end Gaps

section Steps

variable {s u p : ℕ}

/-- What a factor below one takes away from a step: half a unit or more, if it shortens it. -/
theorem shortens_iff :
    Shortens s u ↔ 2 * (u * s) + perOne < 2 * (u * perOne) ∨
      2 * (u * s) + perOne = 2 * (u * perOne) ∧ u % 2 = 1 :=
  roundDiv_lt_iff perOne_pos

/-- **A longer step is shortened** as well. -/
theorem Shortens.mono (h : Shortens s u) (hs : s < perOne) (hup : u ≤ p) : Shortens s p := by
  obtain ⟨w, rfl⟩ := Nat.exists_eq_add_of_le hup
  rcases Nat.eq_zero_or_pos w with rfl | hw
  · exact h
  have hless : w * s < w * perOne := Nat.mul_lt_mul_of_pos_left hs hw
  rw [shortens_iff] at h ⊢
  rw [Nat.add_mul, Nat.add_mul]
  omega

/-- A step whose product is rounded above the last place has more than 53 bits there. -/
theorem lt_of_productPlace (hs : s < perOne) (hg : productPlace u s ≠ 0) :
    2 ^ (productPlace u s + 1126) ≤ u * s ∧ 2 ^ (productPlace u s + 52) < u := by
  have hlog : productPlace u s + 1126 = (u * s).log2 := by
    unfold productPlace at hg ⊢
    omega
  have hne : u * s ≠ 0 := by
    intro h0
    rw [h0, Nat.log2_zero] at hlog
    omega
  have hle : 2 ^ (productPlace u s + 1126) ≤ u * s := hlog ▸ Nat.log2_self_le hne
  have hu : 0 < u := Nat.pos_of_ne_zero fun h0 => hne (by rw [h0, Nat.zero_mul])
  have hlt : u * s < u * perOne := Nat.mul_lt_mul_of_pos_left hs hu
  refine ⟨hle, ?_⟩
  rw [show productPlace u s + 1126 = productPlace u s + 52 + 1074 by omega,
    pow_perOne (productPlace u s + 52)] at hle
  exact (Nat.mul_lt_mul_right perOne_pos).1 (hle.trans_lt hlt)

theorem product_of_last (hg : productPlace u s = 0) :
    product u s = roundDiv .nearest (u * s) perOne := by
  unfold product
  rw [hg, pow_zero, Nat.mul_one, Nat.mul_one]

/-- A factor that fits and is below one is so by 53 bits. -/
theorem gap_one (hfit : Fits s) (hs : s < perOne) : s + belowOne ≤ perOne := by
  rw [perOne_eq] at hs ⊢
  exact hfit.gap (j := 1021) rfl hs

/-- **No step grows** by a factor below one. -/
theorem product_le (hu : Fits u) (hs : s < perOne) : product u s ≤ u := by
  have hone : u * s ≤ u * perOne := Nat.mul_le_mul_left u hs.le
  by_cases hg : productPlace u s = 0
  · rw [product_of_last hg]
    exact roundDiv_le perOne_pos hone
  · obtain ⟨c, hc⟩ := hu.dvd (lt_of_productPlace hs hg).2
    have hle : roundDiv .nearest (u * s) (perOne * 2 ^ productPlace u s) ≤ c := by
      refine roundDiv_le (Nat.mul_pos perOne_pos (Nat.two_pow_pos _)) (hone.trans_eq ?_)
      conv_lhs => rw [hc]
      ring
    calc product u s ≤ c * 2 ^ productPlace u s := Nat.mul_le_mul_right _ hle
      _ = u := by rw [Nat.mul_comm, ← hc]

/-- **A step that the factor shortens** becomes shorter; a long one does in any case. -/
theorem product_lt (hu : Fits u) (hfit : Fits s) (hs : s < perOne) (h : Shortens s u) :
    product u s < u := by
  by_cases hg : productPlace u s = 0
  · rw [product_of_last hg]
    exact h
  · obtain ⟨-, hlong⟩ := lt_of_productPlace hs hg
    obtain ⟨c, hc⟩ := hu.dvd hlong
    have hlt : roundDiv .nearest (u * s) (perOne * 2 ^ productPlace u s) < c := by
      refine (roundDiv_lt_iff (Nat.mul_pos perOne_pos (Nat.two_pow_pos _))).2 (.inl ?_)
      have hgap : u * (s + belowOne) ≤ u * perOne := Nat.mul_le_mul_left u (gap_one hfit hs)
      have hrest : 2 ^ (productPlace u s + 52) * belowOne < u * belowOne :=
        Nat.mul_lt_mul_of_pos_right hlong belowOne_pos
      have hhalf : perOne * 2 ^ productPlace u s =
          2 * (2 ^ (productPlace u s + 52) * belowOne) := by
        rw [perOne_eq]
        ring
      have hcu : c * (perOne * 2 ^ productPlace u s) = u * perOne := by
        conv_rhs => rw [hc]
        ring
      rw [Nat.mul_add] at hgap
      omega
    calc product u s < c * 2 ^ productPlace u s :=
          Nat.mul_lt_mul_of_pos_right hlt (Nat.two_pow_pos _)
      _ = u := by rw [Nat.mul_comm, ← hc]

/-- A step that the factor does not shorten is a short one. -/
theorem le_of_not_shortens (hfit : Fits s) (hs : s < perOne) (h : ¬ Shortens s p) :
    p ≤ 2 ^ 52 := by
  rw [shortens_iff] at h
  have hgap : p * (s + belowOne) ≤ p * perOne := Nat.mul_le_mul_left p (gap_one hfit hs)
  rw [Nat.mul_add] at hgap
  have hle : p * (2 * belowOne) ≤ 2 ^ 52 * (2 * belowOne) := by
    rw [show 2 ^ 52 * (2 * belowOne) = perOne by rw [perOne_eq]; ring, Nat.mul_left_comm]
    omega
  exact Nat.le_of_mul_le_mul_right hle (Nat.mul_pos two_pos belowOne_pos)

/-- **A factor below three quarters** shortens every step of more than one unit. -/
theorem shortens_of_lt (hs : 4 * s < 3 * perOne) (hu : 2 ≤ u) : Shortens s u := by
  rw [shortens_iff]
  have hless : u * (4 * s) ≤ u * (3 * perOne) := Nat.mul_le_mul_left u hs.le
  have hmore : 2 * perOne ≤ u * perOne := Nat.mul_le_mul_right perOne hu
  rw [Nat.mul_left_comm, Nat.mul_left_comm u 3] at hless
  rcases Nat.eq_or_lt_of_le hu with rfl | hlt
  · omega
  · have hmore' : 3 * perOne ≤ u * perOne := Nat.mul_le_mul_right perOne hlt
    have hpos := perOne_pos
    omega

/-- **A step that the factor does not shorten** stops every longer one from going below it. -/
theorem le_product (hfit : Fits s) (hs : s < perOne) (h : ¬ Shortens s p) (hpu : p ≤ u) :
    p ≤ product u s := by
  by_cases hg : productPlace u s = 0
  · rw [product_of_last hg]
    have hmono : roundDiv .nearest (p * s) perOne ≤ roundDiv .nearest (u * s) perOne :=
      roundDiv_mono perOne_pos (Nat.mul_le_mul_right s hpu)
    exact (not_lt.1 h).trans hmono
  · -- such a step is shorter than every one that is not rounded at the last place
    obtain ⟨hprod, -⟩ := lt_of_productPlace hs hg
    have hshort : p ≤ 2 ^ 52 := le_of_not_shortens hfit hs h
    have hlong : 2 ^ 52 ≤ roundDiv .nearest (u * s) (perOne * 2 ^ productPlace u s) := by
      refine le_roundDiv (Nat.mul_pos perOne_pos (Nat.two_pow_pos _)) (hprod.trans' (le_of_eq ?_))
      rw [show productPlace u s + 1126 = productPlace u s + 52 + 1074 by omega, pow_perOne]
      ring
    exact hshort.trans (hlong.trans (Nat.le_mul_of_pos_right _ (Nat.two_pow_pos _)))

end Steps

/-- **What a search is told is in range**: a factor between zero and one, and a positive finite
limit. -/
structure InRange (b μ : Float) : Prop where
  factor_pos : Scalar.lt 0 b = true
  factor_lt : Scalar.lt b 1 = true
  limit_pos : Scalar.lt 0 μ = true
  limit_finite : Scalar.isFinite μ = true

namespace InRange

variable {b μ : Float} (h : InRange b μ)
include h

/-- A number between zero and one is finite. -/
theorem factor_finite : Scalar.isFinite b = true := by
  have hone : (1 : Float).toModel.unpack = .finite .positive (2 ^ 52) (-52) (by decide) := by rfl
  have hlt := (lt_iff_unpack _ _).1 h.factor_lt
  have hpos := (lt_iff_unpack _ _).1 h.factor_pos
  rw [hone] at hlt
  rw [unpack_zero] at hpos
  change b.toModel.unpack.isFinite = true
  generalize b.toModel.unpack = a at hlt hpos ⊢
  rcases a with (_ | _) | _ | _ | _
  · cases hpos
  · cases hlt
  · cases hpos
  · rfl
  · rfl

theorem hasUnits_factor : HasUnits b.toModel.unpack (units b) :=
  hasUnits h.factor_pos h.factor_finite

theorem hasUnits_limit : HasUnits μ.toModel.unpack (units μ) :=
  hasUnits h.limit_pos h.limit_finite

theorem units_lt : units b < perOne :=
  (h.hasUnits_factor.lt_iff hasUnits_one).1 ((lt_iff_unpack _ _).1 h.factor_lt)

end InRange

end Double

/-! ### Steps -/

namespace Ray

open Double

variable {n : ℕ} {r : Ray Float n}

/-- **The steps of a search** are counts of units, the next of which is the product with the factor.
What this keeps holds of every step. -/
theorem exists_units {P : ℕ → ℕ → Prop} (h : InRange r.factor r.minStep) (hstart : P 0 perOne)
    (hnext : ∀ k u, Fits u → P k u → P (k + 1) (product u (units r.factor))) (k : ℕ) :
    ∃ u, HasUnits (r.scaleAt k).toModel.unpack u ∧ P k u := by
  suffices hle : ∃ u, HasUnits (r.scaleAt k).toModel.unpack u ∧ u ≤ perOne ∧ P k u by
    obtain ⟨u, hu, -, hP⟩ := hle
    exact ⟨u, hu, hP⟩
  induction k with
  | zero => exact ⟨perOne, hasUnits_one, le_rfl, hstart⟩
  | succ k ih =>
    obtain ⟨u, hu, hle, hP⟩ := ih
    rw [scaleAt_succ]
    exact ⟨_, hu.mul h.hasUnits_factor hle h.units_lt.le,
      (product_le hu.fits h.units_lt).trans hle, hnext k u hu.fits hP⟩

/-- **If a step of one unit above the limit is shortened** the steps come down to the limit. -/
theorem exists_low (h : InRange r.factor r.minStep)
    (hshort : Shortens (units r.factor) (units r.minStep + 1)) :
    ∃ k, Scalar.lt r.minStep (r.scaleAt k) = false := by
  -- until then every step is a unit shorter than the one before
  have hnext (k u : ℕ) (hfit : Fits u) (hP : u ≤ units r.minStep ∨ u + k ≤ perOne) :
      product u (units r.factor) ≤ units r.minStep ∨
        product u (units r.factor) + (k + 1) ≤ perOne := by
    rcases Nat.lt_or_ge (units r.minStep) u with habove | hlow
    · have hlt := product_lt hfit h.hasUnits_factor.fits h.units_lt
        (hshort.mono h.units_lt habove)
      omega
    · exact .inl ((product_le hfit h.units_lt).trans hlow)
  obtain ⟨k, hk⟩ : ∃ k, perOne < k := exists_gt perOne
  obtain ⟨u, hu, hlow⟩ := exists_units h (.inr (Nat.add_zero perOne).le) hnext k
  refine ⟨k, ?_⟩
  rw [← Bool.not_eq_true, lt_iff_unpack, h.hasUnits_limit.lt_iff hu]
  omega

/-- **Otherwise all of them stay above it.** -/
theorem above (h : InRange r.factor r.minStep)
    (hstall : ¬ Shortens (units r.factor) (units r.minStep + 1)) (k : ℕ) :
    Scalar.lt r.minStep (r.scaleAt k) = true := by
  have hfit := h.hasUnits_factor.fits
  have hstart : units r.minStep + 1 ≤ perOne := by
    have hshort := le_of_not_shortens hfit h.units_lt hstall
    have hpos := belowOne_pos
    rw [perOne_eq]
    omega
  obtain ⟨u, hu, habove⟩ := exists_units (P := fun _ u => units r.minStep + 1 ≤ u) h hstart
    (fun _ u _ hP => le_product hfit h.units_lt hstall hP) k
  rw [lt_iff_unpack, h.hasUnits_limit.lt_iff hu]
  exact habove

end Ray

end VariableMetric
