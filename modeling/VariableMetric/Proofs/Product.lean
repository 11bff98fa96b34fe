import VariableMetric.Binary.Rounding
import VariableMetric.Proofs.Units

/-!
# Products of doubles

The product of two doubles is the exact one, rounded to the nearest double, to the even one from the
middle.

* `Binary.roundDiv_lt_iff`: when a rounded quotient is below a number.
* `Double.Stands`: what is kept of a quotient while its last bits are cut off one by one.
* `Double.product`: **the count of units of a product**, from those of its factors.
* `Double.hasUnits_mul`: it is that of the product, where the factors are at most one.
-/

namespace VariableMetric

namespace Binary

/-- **A quotient rounded to the nearest number** is below `c` when it is less than half a step below
`c - 1`, or half a step if `c` is odd. -/
theorem roundDiv_lt_iff {a d c : ℕ} (hd : 0 < d) :
    roundDiv .nearest a d < c ↔ 2 * a + d < 2 * (c * d) ∨ 2 * a + d = 2 * (c * d) ∧ c % 2 = 1 := by
  have ha : d * (a / d) + a % d = a := Nat.div_add_mod a d
  have hr : a % d < d := Nat.mod_lt a hd
  set q := a / d
  set r := a % d
  -- the numbers that the quotient lies between, in units of the divisor
  have hstep {x y : ℕ} (h : x < y) : x * d + d ≤ y * d := by
    have hle : (x + 1) * d ≤ y * d := Nat.mul_le_mul_right d h
    rwa [Nat.add_mul, Nat.one_mul] at hle
  rw [Nat.mul_comm] at ha
  unfold roundDiv
  dsimp only
  change (if 2 * r < d then q else if d < 2 * r then q + 1 else q + q % 2) < c ↔ _
  split
  · rcases Nat.lt_or_ge q c with h | h
    · have hqc := hstep h
      omega
    · have hcq : c * d ≤ q * d := Nat.mul_le_mul_right d h
      omega
  split
  · rcases Nat.lt_or_ge (q + 1) c with h | h
    · have hqc := hstep h
      have hq : (q + 1) * d = q * d + d := Nat.succ_mul q d
      omega
    · have hcq : c * d ≤ (q + 1) * d := Nat.mul_le_mul_right d h
      have hq : (q + 1) * d = q * d + d := Nat.succ_mul q d
      omega
  · have hq : (q + 1) * d = q * d + d := Nat.succ_mul q d
    rcases lt_trichotomy (q + 1) c with h | h | h
    · have hqc := hstep h
      omega
    · subst h
      omega
    · have hcq := hstep h
      omega

theorem roundDiv_mul_right {a d c : ℕ} (hc : 0 < c) :
    roundDiv .nearest (a * c) (d * c) = roundDiv .nearest a d := by
  have hless : 2 * (a % d * c) < d * c ↔ 2 * (a % d) < d := by
    rw [← Nat.mul_assoc, Nat.mul_lt_mul_right hc]
  have hmore : d * c < 2 * (a % d * c) ↔ d < 2 * (a % d) := by
    rw [← Nat.mul_assoc, Nat.mul_lt_mul_right hc]
  simp only [roundDiv, Nat.mul_div_mul_right _ _ hc, Nat.mul_mod_mul_right, hless, hmore]

/-- A quotient that is at most a number is not rounded above it. -/
theorem roundDiv_le {a d c : ℕ} (hd : 0 < d) (h : a ≤ c * d) : roundDiv .nearest a d ≤ c := by
  have hc : (c + 1) * d = c * d + d := Nat.succ_mul c d
  refine Nat.lt_add_one_iff.1 ((roundDiv_lt_iff hd).2 (.inl ?_))
  omega

/-- A quotient that is at least a number is not rounded below it. -/
theorem le_roundDiv {a d c : ℕ} (hd : 0 < d) (h : c * d ≤ a) : c ≤ roundDiv .nearest a d := by
  by_contra hlt
  have hcases := (roundDiv_lt_iff hd).1 (not_le.1 hlt)
  omega

/-- A larger number is not rounded to a smaller one. -/
theorem roundDiv_mono {a b d : ℕ} (hd : 0 < d) (h : a ≤ b) :
    roundDiv .nearest a d ≤ roundDiv .nearest b d := by
  by_contra hlt
  have hb := (roundDiv_lt_iff hd).1 (not_le.1 hlt)
  have ha := mt (roundDiv_lt_iff hd).2 (lt_irrefl (roundDiv .nearest a d))
  omega

end Binary

namespace Double

open Binary
open Float.Model (UnpackedFloat Format totalExponent)
open Float.Model.UnpackedFloat

/-- **What is kept of a quotient**: its integer part, whether its rest is at least one half, and
whether it is neither zero nor one half. -/
def Stands (em : ExtendedMantissa) (num den : ℕ) : Prop :=
  ∃ rest < den, num = em.mantissa * den + rest ∧ (em.roundBit = true ↔ den ≤ 2 * rest) ∧
    (em.stickyBit = true ↔ rest ≠ 0 ∧ 2 * rest ≠ den)

theorem stands_start (m : ℕ) : Stands (.ofMantissaAndAccuracy m .exact) m 1 :=
  ⟨0, one_pos, by simp [ExtendedMantissa.ofMantissaAndAccuracy],
    by simp [ExtendedMantissa.ofMantissaAndAccuracy],
    by simp [ExtendedMantissa.ofMantissaAndAccuracy]⟩

/-- Cutting off a bit halves the quotient. -/
theorem Stands.shiftRightOne {em : ExtendedMantissa} {num den : ℕ} (h : Stands em num den) :
    Stands em.shiftRightOne num (den * 2) := by
  obtain ⟨rest, hlt, hnum, hround, hsticky⟩ := h
  have hm : 2 * (em.mantissa / 2) + em.mantissa % 2 = em.mantissa := Nat.div_add_mod _ 2
  have hsplit : em.mantissa * den = em.mantissa / 2 * (den * 2) + em.mantissa % 2 * den := by
    conv_lhs => rw [← hm]
    ring
  unfold ExtendedMantissa.shiftRightOne
  rcases Nat.mod_two_eq_zero_or_one em.mantissa with hbit | hbit
  · rw [hbit] at hsplit
    refine ⟨rest, by omega, by dsimp only; omega, ?_, ?_⟩
    · simp only [hbit]
      simp
      omega
    · simp only [Bool.or_eq_true, hround, hsticky]
      omega
  · rw [hbit] at hsplit
    refine ⟨den + rest, by omega, by dsimp only; omega, ?_, ?_⟩
    · simp only [hbit]
      simp
      omega
    · simp only [Bool.or_eq_true, hround, hsticky]
      omega

theorem Stands.shiftRight {em : ExtendedMantissa} {num den : ℕ} (h : Stands em num den) (k : ℕ) :
    Stands (em >>> k) num (den * 2 ^ k) := by
  change Stands (k.repeat ExtendedMantissa.shiftRightOne em) num (den * 2 ^ k)
  induction k with
  | zero => simpa [Nat.repeat] using h
  | succ k ih =>
    rw [Nat.repeat, pow_succ, ← Nat.mul_assoc]
    exact ih.shiftRightOne

/-- **The rounded integer part** is that of the quotient. -/
theorem Stands.roundedMantissa {em : ExtendedMantissa} {num den : ℕ} (h : Stands em num den) :
    em.roundedMantissa = roundDiv .nearest num den := by
  obtain ⟨rest, hlt, hnum, hround, hsticky⟩ := h
  have hquot : num / den = em.mantissa := by
    rw [hnum, Nat.mul_comm, Nat.mul_add_div (by omega), Nat.div_eq_of_lt hlt, Nat.add_zero]
  have hrest : num % den = rest := by
    rw [hnum, Nat.mul_comm, Nat.mul_add_mod, Nat.mod_eq_of_lt hlt]
  unfold roundDiv
  simp only [hquot, hrest]
  obtain ⟨m, round, sticky⟩ := em
  simp only at hround hsticky
  cases round <;> cases sticky <;> simp at hround hsticky <;>
    simp only [ExtendedMantissa.roundedMantissa, ExtendedMantissa.accuracy,
      Accuracy.roundToNearestEven]
  · rw [if_pos (by omega)]
  · rw [if_pos (by omega)]
  · rw [if_neg (by omega), if_neg (by omega)]
  · rw [if_neg (by omega), if_pos (by omega)]

/-! ### The product of two doubles -/

/-- The place at which a product is rounded, above the last one. -/
def productPlace (u v : ℕ) : ℕ := (u * v).log2 - 1126

/-- **The count of units of a product**, from those of its factors: the exact product rounded at the
place where it has 53 bits, or at the last place. -/
def product (u v : ℕ) : ℕ :=
  roundDiv .nearest (u * v) (perOne * 2 ^ productPlace u v) * 2 ^ productPlace u v

/-- A significand that is short enough is left as it is. -/
theorem shiftToTargetExponent_of_lt {m k : ℕ} {e : ℤ} (hm : m < 2 ^ 53) (he : e = (k : ℤ) - 1074) :
    shiftToTargetExponent .binary64 m e .exact = (.ofMantissaAndAccuracy m .exact, e) := by
  have hlog : m.log2 ≤ 52 := by
    by_cases h0 : m = 0
    · simp [h0]
    · have := (Nat.log2_lt h0).2 hm
      omega
  have hshift : (Format.binary64.targetExponent (totalExponent m e) - e).toNat = 0 := by
    change (max ((m.log2 : ℤ) + 1 + e - 53) (-1074) - e).toNat = 0
    omega
  simp only [shiftToTargetExponent, shiftToExponent, hshift]
  exact Prod.ext rfl (by simp)

/-- A significand of one bit too many is shifted once. -/
theorem shiftToTargetExponent_carry {k : ℕ} {e : ℤ} (he : e = (k : ℤ) - 1074) :
    (shiftToTargetExponent .binary64 (2 ^ 53) e .exact).1.mantissa = 2 ^ 52 ∧
      (shiftToTargetExponent .binary64 (2 ^ 53) e .exact).2 = e + 1 := by
  have hshift :
      (Format.binary64.targetExponent (totalExponent (2 ^ 53) e) - e).toNat = 1 := by
    change (max (((2 ^ 53 : ℕ).log2 : ℤ) + 1 + e - 53) (-1074) - e).toNat = 1
    rw [Nat.log2_two_pow]
    omega
  simp only [shiftToTargetExponent, shiftToExponent, hshift]
  exact ⟨rfl, rfl⟩

/-- **A significand rounded at place `k`**, where it has 53 bits, or at most so many at the last
place. -/
theorem hasUnits_round {m s k : ℕ} {e : ℤ} (hm : m ≠ 0) (he : e + s = (k : ℤ) - 1074)
    (hk : k ≤ 2044) (hplace : m.log2 = s + 52 ∨ k = 0 ∧ m.log2 ≤ s + 52) :
    HasUnits (roundWithAccuracy .binary64 .positive m e .exact)
      (roundDiv .nearest m (2 ^ s) * 2 ^ k) := by
  set r := roundDiv .nearest m (2 ^ s) with hr
  have htarget : Format.binary64.targetExponent (totalExponent m e) = (k : ℤ) - 1074 := by
    change max ((m.log2 : ℤ) + 1 + e - 53) (-1074) = (k : ℤ) - 1074
    omega
  have hshift : ((k : ℤ) - 1074 - e).toNat = s := by omega
  have hfirst : shiftToTargetExponent .binary64 m e .exact =
      (ExtendedMantissa.ofMantissaAndAccuracy m .exact >>> s, (k : ℤ) - 1074) := by
    simp only [shiftToTargetExponent, shiftToExponent, htarget, hshift, he]
  have hrounded : (ExtendedMantissa.ofMantissaAndAccuracy m .exact >>> s).roundedMantissa = r := by
    rw [((stands_start m).shiftRight s).roundedMantissa, Nat.one_mul]
  -- the rounded significand has 53 bits, or is the next power of two
  have hbelow : m < 2 ^ 53 * 2 ^ s := by
    rw [← pow_add]
    exact Nat.lt_log2_self.trans_le (Nat.pow_le_pow_right two_pos (by omega))
  have hmax : r ≤ 2 ^ 53 := roundDiv_le (Nat.two_pow_pos s) hbelow.le
  have hfull : 2 ^ 52 ≤ r ∨ k = 0 := by
    rcases hplace with hplace | ⟨hlast, -⟩
    · have habove : 2 ^ 52 * 2 ^ s ≤ m := by
        rw [← pow_add, Nat.add_comm, ← hplace]
        exact Nat.log2_self_le hm
      exact .inl (le_roundDiv (Nat.two_pow_pos s) habove)
    · exact .inr hlast
  unfold roundWithAccuracy
  simp only [hfirst, hrounded]
  rcases Nat.lt_or_eq_of_le hmax with hlt | hcarry
  · simp only [shiftToTargetExponent_of_lt hlt rfl]
    change HasUnits (if h : r = 0 then .zero .positive
      else .finite .positive r ((k : ℤ) - 1074) (Nat.pos_of_ne_zero h)) (r * 2 ^ k)
    split
    · rename_i hzero
      rw [hzero, Nat.zero_mul]
      exact .zero _
    · exact .finite _ hlt (by omega) hfull rfl
  · obtain ⟨hmant, hexp⟩ := shiftToTargetExponent_carry (k := k) rfl
    simp only [hcarry, hmant, hexp]
    rw [dif_neg (by norm_num), show 2 ^ 53 * 2 ^ k = 2 ^ 52 * 2 ^ (k + 1) by ring]
    exact .finite _ (by norm_num) (by omega) (.inl le_rfl) (by push_cast; ring)

theorem log2_mul_two_pow {m k : ℕ} (hm : m ≠ 0) : (m * 2 ^ k).log2 = m.log2 + k := by
  refine le_antisymm (Nat.lt_add_one_iff.1 ((Nat.log2_lt (by positivity)).2 ?_))
    ((Nat.le_log2 (by positivity)).2 ?_)
  · rw [show m.log2 + k + 1 = m.log2 + 1 + k by omega, pow_add]
    exact Nat.mul_lt_mul_of_pos_right Nat.lt_log2_self (Nat.two_pow_pos k)
  · rw [pow_add]
    exact Nat.mul_le_mul_right _ (Nat.log2_self_le hm)

theorem log2_mul_lt {u v p q : ℕ} (hu : u ≤ 2 ^ p) (hv : v ≤ 2 ^ q) :
    (u * v).log2 < p + q + 1 := by
  by_cases h0 : u * v = 0
  · rw [h0, Nat.log2_zero]
    exact Nat.succ_pos _
  · rw [Nat.log2_lt h0, pow_succ, pow_add]
    have hle : u * v ≤ 2 ^ p * 2 ^ q := Nat.mul_le_mul hu hv
    have hpos : 0 < 2 ^ p * 2 ^ q := by positivity
    omega

/-- **The product of two doubles** between zero and one, in units. -/
theorem hasUnits_mul {a b : UnpackedFloat} {u v : ℕ} (ha : HasUnits a u) (hb : HasUnits b v)
    (hu : u ≤ perOne) (hv : v ≤ perOne) : HasUnits (mul .binary64 a b) (product u v) := by
  have hlog : (u * v).log2 < 2149 := log2_mul_lt hu hv
  clear hu hv
  cases ha with
  | zero s =>
    have hprod : product 0 v = 0 := by simp [product, roundDiv]
    rw [hprod]
    cases hb with
    | zero s' => exact .zero _
    | finite => exact .zero _
  | @finite m k e hpos hm hk hfull he =>
    cases hb with
    | zero s' =>
      have hprod : product (m * 2 ^ k) 0 = 0 := by simp [product, roundDiv]
      rw [hprod]
      exact .zero _
    | @finite m' k' e' hpos' hm' hk' hfull' he' =>
      change HasUnits (roundWithAccuracy .binary64 .positive (m * m') (e + e') .exact) _
      have hne : m * m' ≠ 0 := (Nat.mul_pos hpos hpos').ne'
      have hexact : m * 2 ^ k * (m' * 2 ^ k') = m * m' * 2 ^ (k + k') := by ring
      rw [hexact, log2_mul_two_pow hne] at hlog
      have hplace : productPlace (m * 2 ^ k) (m' * 2 ^ k') =
          (m * m').log2 + (k + k') - 1126 := by
        unfold productPlace
        rw [hexact, log2_mul_two_pow hne]
      -- one of the factors has all bits in use, or both are at the last place
      have hlow : k + k' = 0 ∨ 52 ≤ (m * m').log2 := by
        rw [Nat.le_log2 hne]
        have hleft : m ≤ m * m' := Nat.le_mul_of_pos_right m hpos'
        have hright : m' ≤ m * m' := Nat.le_mul_of_pos_left m' hpos
        omega
      obtain ⟨s, hs⟩ : ∃ s, productPlace (m * 2 ^ k) (m' * 2 ^ k') + 1074 = s + (k + k') :=
        ⟨(m * m').log2 + (k + k') - 1126 + 1074 - (k + k'), by omega⟩
      have hround := hasUnits_round (s := s) (k := productPlace (m * 2 ^ k) (m' * 2 ^ k'))
        (e := e + e') hne (by omega) (by omega) (by omega)
      have hden : 2 ^ s * 2 ^ (k + k') =
          perOne * 2 ^ productPlace (m * 2 ^ k) (m' * 2 ^ k') := by
        rw [← pow_add, ← hs, pow_perOne, Nat.mul_comm]
      rwa [← roundDiv_mul_right (Nat.two_pow_pos (k + k')), ← hexact, hden] at hround

theorem HasUnits.mul {x y : Float} {u v : ℕ} (hx : HasUnits x.toModel.unpack u)
    (hy : HasUnits y.toModel.unpack v) (hu : u ≤ perOne) (hv : v ≤ perOne) :
    HasUnits (x * y).toModel.unpack (product u v) := by
  have hprod := hasUnits_mul hx hy hu hv
  change HasUnits
    (Float.Model.pack (UnpackedFloat.mul .binary64 x.toModel.unpack y.toModel.unpack)).unpack _
  rwa [unpack_pack hprod.regular]

end Double

end VariableMetric
