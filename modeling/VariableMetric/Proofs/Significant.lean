import Mathlib.Data.Int.Log
import Mathlib.Algebra.Order.Field.Power
import Mathlib.Data.Rat.Floor
import Mathlib.Tactic.FieldSimp
import Mathlib.Tactic.GCongr
import Mathlib.Tactic.Linarith
import Mathlib.Tactic.NormNum
import Mathlib.Tactic.Positivity
import Mathlib.Tactic.Ring
import VariableMetric.Decimal.Rounded
import VariableMetric.Proofs.Product

/-!
# Significant digits

A positive ratio is printed by its first few digits. They are found in integer arithmetic; what they
are is said in rational numbers.

* `magnitude_eq_log`: **the exponent of the leading digit**.
* `abs_roundDiv_sub_le`: a rounded quotient is at most one half away.
* `Rounded`: so many digits of a number, at most half a unit of the last of them away from it.
* `rounded_significant`: **these are the digits that are found**.
-/

namespace VariableMetric.Decimal

open Binary (roundDiv roundDiv_lt_iff roundDiv_le le_roundDiv)

/-! ### The leading digit -/

theorem lt_width (n : ℕ) : n < 10 ^ width n :=
  (Nat.length_toDigits_le_iff (by decide) Nat.length_toDigits_pos).1 le_rfl

theorem width_le {n k : ℕ} (hk : 0 < k) (h : n < 10 ^ k) : width n ≤ k :=
  (Nat.length_toDigits_le_iff (by decide) hk).2 h

theorem le_width {n : ℕ} (hn : 0 < n) : 10 ^ (width n - 1) ≤ n := by
  have hpos : 0 < width n := Nat.length_toDigits_pos
  by_contra hlt
  rw [not_le] at hlt
  rcases Nat.eq_zero_or_pos (width n - 1) with hone | hmore
  · rw [hone, pow_zero] at hlt
    omega
  · have hle := width_le hmore hlt
    omega

section Ratio

variable {num den : ℕ}

/-- The widths of the two parts of a ratio tell its exponent, up to one. -/
theorem width_bounds (hnum : 0 < num) (hden : 0 < den) :
    (10 : ℚ) ^ ((width num : ℤ) - width den - 1) < num / den ∧
      (num : ℚ) / den < 10 ^ ((width num : ℤ) - width den + 1) := by
  have hten : (10 : ℚ) ≠ 0 := by norm_num
  have hden' : (0 : ℚ) < den := by exact_mod_cast hden
  have hlow {n : ℕ} (hn : 0 < n) : (10 : ℚ) ^ (width n : ℤ) ≤ n * 10 := by
    have hpos : width n - 1 + 1 = width n := Nat.sub_add_cancel Nat.length_toDigits_pos
    have hle : (10 : ℚ) ^ (width n - 1) ≤ n := by exact_mod_cast le_width hn
    rw [zpow_natCast, ← hpos, pow_succ]
    gcongr
  have hhigh (n : ℕ) : (n : ℚ) < 10 ^ (width n : ℤ) := by
    rw [zpow_natCast]
    exact_mod_cast lt_width n
  constructor
  · rw [zpow_sub_one₀ hten, zpow_sub₀ hten, lt_div_iff₀ hden']
    calc (10 : ℚ) ^ (width num : ℤ) / 10 ^ (width den : ℤ) * 10⁻¹ * den
      _ < 10 ^ (width num : ℤ) / 10 ^ (width den : ℤ) * 10⁻¹ * 10 ^ (width den : ℤ) := by
        gcongr
        exact hhigh den
      _ = 10 ^ (width num : ℤ) / 10 := by field_simp
      _ ≤ num := by
        rw [div_le_iff₀ (by norm_num)]
        exact hlow hnum
  · rw [zpow_add_one₀ hten, zpow_sub₀ hten, div_lt_iff₀ hden']
    calc (num : ℚ)
      _ < 10 ^ (width num : ℤ) := hhigh num
      _ = 10 ^ (width num : ℤ) / 10 ^ (width den : ℤ) * 10 ^ (width den : ℤ) := by field_simp
      _ ≤ 10 ^ (width num : ℤ) / 10 ^ (width den : ℤ) * (den * 10) := by
        gcongr
        exact hlow hden
      _ = _ := by ring

theorem shift_pos (hden : 0 < den) (num : ℕ) (e : ℤ) : 0 < (shift num den e).2 := by
  unfold shift
  split
  · exact hden
  · exact Nat.mul_pos hden (Nat.pow_pos (by decide))

/-- **A ratio is shifted** by a power of ten. -/
theorem shift_eq (hden : 0 < den) (num : ℕ) (e : ℤ) :
    ((shift num den e).1 : ℚ) / (shift num den e).2 = num / den * 10 ^ e := by
  have hden' : (den : ℚ) ≠ 0 := by exact_mod_cast hden.ne'
  unfold shift
  split
  · rename_i he
    obtain ⟨k, rfl⟩ := Int.eq_ofNat_of_zero_le he
    simp only [tenTo, Nat.pow_eq, Int.toNat_natCast, zpow_natCast]
    push_cast
    ring
  · rename_i he
    obtain ⟨k, hk⟩ := Int.eq_ofNat_of_zero_le (show 0 ≤ -e by omega)
    obtain rfl : e = -k := by omega
    simp only [tenTo, Nat.pow_eq, neg_neg, Int.toNat_natCast, zpow_neg, zpow_natCast]
    push_cast
    field_simp

/-- **The exponent found** is that of the leading digit. -/
theorem magnitude_eq_log (hnum : 0 < num) (hden : 0 < den) :
    magnitude num den = Int.log 10 ((num : ℚ) / den) := by
  have hx : (0 : ℚ) < num / den := by positivity
  have hten : (1 : ℕ) < 10 := by norm_num
  obtain ⟨hlow, hhigh⟩ := width_bounds hnum hden
  set g : ℤ := (width num : ℤ) - width den with hg
  have hpos := shift_pos hden num (-g)
  have hpos' : (0 : ℚ) < (shift num den (-g)).2 := by exact_mod_cast hpos
  -- the guess is too large where the shifted ratio is below one
  have hguess : (shift num den (-g)).1 < (shift num den (-g)).2 ↔ (num : ℚ) / den < 10 ^ g := by
    have hratio := shift_eq hden num (-g)
    rw [zpow_neg] at hratio
    rw [← div_lt_one (by positivity : (0 : ℚ) < 10 ^ g), div_eq_mul_inv _ ((10 : ℚ) ^ g), ← hratio,
      div_lt_one hpos']
    exact Nat.cast_lt.symm
  have hlog {m : ℤ} (h : (10 : ℚ) ^ m ≤ num / den) (h' : (num : ℚ) / den < 10 ^ (m + 1)) :
      m = Int.log 10 ((num : ℚ) / den) := by
    have hle := (Int.zpow_le_iff_le_log hten hx).1 (by exact_mod_cast h)
    have hlt := (Int.lt_zpow_iff_log_lt hten hx).1 (by exact_mod_cast h')
    omega
  unfold magnitude
  simp only [← hg]
  split
  · rename_i hless
    refine hlog hlow.le ?_
    rw [sub_add_cancel]
    exact hguess.1 hless
  · rename_i hmore
    exact hlog (not_lt.1 (mt hguess.2 hmore)) hhigh

end Ratio

/-! ### Rounding -/

/-- **A rounded quotient** is at most one half away. -/
theorem abs_roundDiv_sub_le (a : ℕ) {d : ℕ} (hd : 0 < d) :
    |(roundDiv .nearest a d : ℚ) - a / d| ≤ 1 / 2 := by
  have hd' : (0 : ℚ) < d := by exact_mod_cast hd
  set r := roundDiv .nearest a d with hr
  have hlow : 2 * (r * d) ≤ 2 * a + d := by
    by_contra hlt
    exact absurd ((roundDiv_lt_iff hd).2 (.inl (not_le.1 hlt))) (lt_irrefl r)
  have hhigh : 2 * a + d ≤ 2 * ((r + 1) * d) := by
    rcases (roundDiv_lt_iff hd).1 (Nat.lt_succ_self r) with h | h
    · exact h.le
    · exact h.1.le
  have hlow' : 2 * ((r : ℚ) * d) ≤ 2 * a + d := by exact_mod_cast hlow
  have hhigh' : 2 * (a : ℚ) + d ≤ 2 * ((r + 1) * d) := by exact_mod_cast hhigh
  have hquotient : (a : ℚ) / d * d = a := div_mul_cancel₀ _ hd'.ne'
  rw [abs_le]
  constructor <;> nlinarith

section Ratio

variable {num den : ℕ}

/-- A ratio in units of a place is at most half a unit away. -/
theorem atPlace_close (hden : 0 < den) (num : ℕ) (places : ℤ) :
    |(atPlace places num den : ℚ) * 10 ^ (-places) - num / den| ≤ 10 ^ (-places) / 2 := by
  have hhalf := abs_roundDiv_sub_le (shift num den places).1 (shift_pos hden num places)
  have hunit : (10 : ℚ) ^ places * 10 ^ (-places) = 1 := by
    rw [← zpow_add₀ (by norm_num), add_neg_cancel, zpow_zero]
  have hback : (num : ℚ) / den =
      (shift num den places).1 / (shift num den places).2 * 10 ^ (-places) := by
    rw [shift_eq hden, mul_assoc, hunit, mul_one]
  have hpos : (0 : ℚ) < 10 ^ (-places) := by positivity
  rw [hback, ← sub_mul, abs_mul, abs_of_pos hpos]
  calc _ ≤ 1 / 2 * (10 : ℚ) ^ (-places) := mul_le_mul_of_nonneg_right hhalf hpos.le
    _ = _ := by ring

/-- With `k` digits after the leading one, a ratio has `k + 1` digits, or is rounded up to the next
power of ten. -/
theorem atPlace_bounds (hnum : 0 < num) (hden : 0 < den) (k : ℕ) :
    10 ^ k ≤ atPlace (k - Int.log 10 ((num : ℚ) / den)) num den ∧
      atPlace (k - Int.log 10 ((num : ℚ) / den)) num den ≤ 10 ^ (k + 1) := by
  have hx : (0 : ℚ) < num / den := by positivity
  have hten : (10 : ℚ) ≠ 0 := by norm_num
  set m := Int.log 10 ((num : ℚ) / den) with hm
  have hlow : (10 : ℚ) ^ m ≤ num / den := by
    exact_mod_cast Int.zpow_log_le_self (b := 10) (by norm_num) hx
  have hhigh : (num : ℚ) / den < 10 ^ (m + 1) := by
    exact_mod_cast Int.lt_zpow_succ_log_self (b := 10) (by norm_num) ((num : ℚ) / den)
  have hpos := shift_pos hden num (k - m)
  have hpos' : (0 : ℚ) < (shift num den (k - m)).2 := by exact_mod_cast hpos
  have hratio := shift_eq hden num (k - m)
  have hpow (a : ℤ) : (10 : ℚ) ^ (a - m + m) = 10 ^ m * 10 ^ (a - m) := by
    rw [zpow_add₀ hten, mul_comm]
  constructor
  · refine le_roundDiv hpos ?_
    have hle : (10 : ℚ) ^ k ≤ (shift num den (k - m)).1 / (shift num den (k - m)).2 := by
      rw [hratio]
      calc (10 : ℚ) ^ k = 10 ^ m * 10 ^ ((k : ℤ) - m) := by
            rw [← hpow, sub_add_cancel, zpow_natCast]
        _ ≤ _ := by gcongr
    rw [le_div_iff₀ hpos'] at hle
    exact_mod_cast hle
  · refine roundDiv_le hpos ?_
    have hlt : ((shift num den (k - m)).1 : ℚ) / (shift num den (k - m)).2 ≤ 10 ^ (k + 1) := by
      rw [hratio]
      calc (num : ℚ) / den * 10 ^ ((k : ℤ) - m)
        _ ≤ 10 ^ (m + 1) * 10 ^ ((k : ℤ) - m) := by gcongr
        _ = 10 ^ (k + 1) := by
          rw [← zpow_add₀ hten, ← zpow_natCast]
          congr 1
          push_cast
          ring
    rw [div_le_iff₀ hpos'] at hlt
    exact_mod_cast hlt

end Ratio

/-- **So many digits of a number**: `c` as an integer, the exponent of the first of them being `e`.
They are at most half a unit of the last digit of the number away from it; `e` is larger than the
exponent of the number only where they are rounded up to the next power of ten. -/
structure Rounded (count : ℕ) (x : ℚ) (c : ℕ) (e : ℤ) : Prop where
  low : 10 ^ (count - 1) ≤ c
  high : c < 10 ^ count
  exponent : e = Int.log 10 x ∨ e = Int.log 10 x + 1
  close : |(c : ℚ) * 10 ^ (e - (count - 1 : ℕ)) - x| ≤ 10 ^ (Int.log 10 x - (count - 1 : ℕ)) / 2

/-- **The digits found** are those of the ratio. -/
theorem rounded_significant {count num den : ℕ} (hcount : 0 < count) (hnum : 0 < num)
    (hden : 0 < den) :
    Rounded count ((num : ℚ) / den) (significant count num den).1
      (significant count num den).2 := by
  obtain ⟨k, rfl⟩ : ∃ k, count = k + 1 := ⟨count - 1, by omega⟩
  obtain ⟨hlow, hhigh⟩ := atPlace_bounds hnum hden k
  have hclose := atPlace_close hden num (k - Int.log 10 ((num : ℚ) / den))
  have hplaces (m : ℤ) : ((k + 1 : ℕ) : ℤ) - 1 - m = k - m := by omega
  have htenTo : tenTo (k + 1) = 10 ^ (k + 1) := rfl
  unfold significant
  simp only [magnitude_eq_log hnum hden, hplaces, htenTo]
  set m := Int.log 10 ((num : ℚ) / den) with hm
  rw [neg_sub] at hclose
  split
  · rename_i hcarry
    have htenth : (10 : ℕ) ^ (k + 1) / 10 = 10 ^ k := by
      rw [pow_succ, Nat.mul_div_cancel _ (by norm_num)]
    have hcarried : ((10 ^ k : ℕ) : ℚ) * 10 ^ (m + 1 - (k : ℤ)) =
        10 ^ (k + 1) * 10 ^ (m - (k : ℤ)) := by
      rw [add_sub_right_comm, zpow_add_one₀ (by norm_num)]
      push_cast
      ring
    rw [hcarry, htenth]
    refine ⟨le_rfl, Nat.pow_lt_pow_right (by norm_num) (Nat.lt_succ_self k), .inr rfl, ?_⟩
    rw [hcarry] at hclose
    rw [Nat.add_sub_cancel, hcarried]
    exact_mod_cast hclose
  · exact ⟨hlow, lt_of_le_of_ne hhigh ‹_›, .inl rfl, hclose⟩

end VariableMetric.Decimal
