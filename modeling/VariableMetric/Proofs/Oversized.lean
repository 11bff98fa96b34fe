import VariableMetric.Datum.Number
import VariableMetric.Proofs.Product

/-!
# Integers beyond all doubles

An integer is converted to the nearest double. There is none from the middle between the largest
double and the next power of two on.

* `Binary.tooLarge`: the first integer that has no nearest double.
* `Binary.round_int`: an integer rounded to a significand and its place.
* `Binary.ofInt?_eq_none_iff`, `Binary.isFinite_of_ofInt?`: **what an integer is converted to**.
* `Number.oversized`: a number that cannot be converted.
-/

namespace VariableMetric

namespace Double

open Float.Model (UnpackedFloat Format)
open Float.Model.UnpackedFloat

theorem unpack_ofBits (b : UInt64) :
    (Float.ofBits b).toModel.unpack = unpack .binary64 b.toBitVec := unpack_pack (regular_unpack _)

/-- The sign of a number. -/
def signOf : Bool → Sign
  | true => .negative
  | false => .positive

/-- The exponent of a word, as a number. -/
theorem exponent_toNat (b : UInt64) :
    (@unpackExponent .binary64 b.toBitVec).toNat = b.toNat / 2 ^ 52 % 2 ^ 11 := by
  change b.toNat >>> 52 % 2 ^ 11 = _
  rw [Nat.shiftRight_eq_div_pow]

/-- The fraction of a word. -/
theorem mantissa_toNat (b : UInt64) :
    (@unpackMantissa .binary64 b.toBitVec).toNat = b.toNat % 2 ^ 52 := by
  change b.toNat >>> 0 % 2 ^ 52 = _
  rw [Nat.shiftRight_zero]

/-- The sign of a word. -/
theorem sign_of_bits {b : UInt64} {negative : Bool} (h : b.toNat / 2 ^ 63 = negative.toNat) :
    Sign.ofBitVec (@unpackSign .binary64 b.toBitVec) = signOf negative := by
  have hbit : (@unpackSign .binary64 b.toBitVec).toNat = negative.toNat := by
    change b.toNat >>> 63 % 2 ^ 1 = _
    rw [Nat.shiftRight_eq_div_pow, h]
    cases negative <;> rfl
  cases negative with
  | false => exact if_pos (BitVec.eq_of_toNat_eq hbit)
  | true =>
    refine if_neg fun hzero => ?_
    rw [hzero] at hbit
    cases hbit

/-- **The parts of a double**, read off its bits: those of the exponent are neither all set nor all
clear. -/
theorem unpack_of_parts {b : UInt64} {negative : Bool} {e f : ℕ} (he : 0 < e) (he' : e < 2047)
    (hf : f < 2 ^ 52) (hb : b.toNat = negative.toNat * 2 ^ 63 + (e * 2 ^ 52 + f)) :
    (Float.ofBits b).toModel.unpack =
      .finite (signOf negative) (2 ^ 52 + f) ((e : ℤ) - 1075) (by omega) := by
  have hbias : (Format.binary64.exponentBias : ℤ) = 1023 := rfl
  have hone : negative.toNat ≤ 1 := Bool.toNat_le negative
  have hexp : (@unpackExponent .binary64 b.toBitVec).toNat = e := by
    rw [exponent_toNat]
    omega
  have hmant : (@unpackMantissa .binary64 b.toBitVec).toNat = f := by
    rw [mantissa_toNat]
    omega
  have hsign : Sign.ofBitVec (@unpackSign .binary64 b.toBitVec) = signOf negative :=
    sign_of_bits (by omega)
  have hinf : @unpackExponent .binary64 b.toBitVec ≠ -1#11 := by
    intro heq
    have hnat : e = 2047 := hexp ▸ congrArg BitVec.toNat heq
    omega
  have hsub : @unpackExponent .binary64 b.toBitVec ≠ 0#11 := by
    intro heq
    have hnat : e = 0 := hexp ▸ congrArg BitVec.toNat heq
    omega
  rw [unpack_ofBits, unpack]
  simp only [hsign, if_neg hinf, if_neg hsub]
  refine finite_congr ?_ ?_
  · rw [toNat_one_append, hmant]
  · rw [hexp, hbias]
    push_cast
    omega

end Double

namespace Binary

/-! ### Rounding -/

theorem unpack_assemble (negative : Bool) {m : ℕ} {q : ℤ} (hlow : 2 ^ 52 ≤ m) (hm : m < 2 ^ 53)
    (hq : -52 ≤ q) (hq' : q ≤ 971) :
    (assemble negative m q).toModel.unpack = .finite (Double.signOf negative) m q (by omega) := by
  have htwo (k : ℕ) : twoTo k = 2 ^ k := rfl
  have hsign : (if negative then 2 ^ 63 else 0) = negative.toNat * 2 ^ 63 := by
    cases negative <;> rfl
  have hone : negative.toNat ≤ 1 := Bool.toNat_le negative
  unfold assemble
  simp only [htwo, hsign, if_neg (not_lt.2 hlow)]
  have hbits : negative.toNat * 2 ^ 63 + ((q + 1075).toNat * 2 ^ 52 + (m - 2 ^ 52)) < 2 ^ 64 := by
    omega
  rw [Double.unpack_of_parts (by omega) (by omega) (by omega) (UInt64.toNat_ofNat_of_lt' hbits)]
  exact Double.finite_congr (by omega) (by omega)

/-- Rounding to a format: the significand has one bit more only if it is rounded up. -/
theorem Format.round_eq {f : Format} {dir : Direction} {num den m : ℕ} {q : ℤ} (hnum : num ≠ 0)
    (hq : max (log2 num den - f.bits + 1) f.least = q)
    (hm : roundDiv dir (scale num den (-q)).1 (scale num den (-q)).2 = m) :
    f.round dir num den =
      if m = 2 ^ f.bits then if f.greatest < q + 1 then none else some (m / 2, q + 1)
      else if f.greatest < q then none else some (m, q) := by
  have htwo : twoTo f.bits = 2 ^ f.bits := rfl
  unfold Format.round
  simp only [if_neg hnum, hq, hm, htwo]
  by_cases hup : m = 2 ^ f.bits
  · simp only [if_pos hup]
  · simp only [if_neg hup]

theorem log2_one {n : ℕ} (hn : n ≠ 0) : log2 n 1 = n.log2 := by
  have hone : (1 : ℕ).log2 = 0 := rfl
  have hle : 2 ^ n.log2 ≤ n := Nat.log2_self_le hn
  have hscale : scale n 1 (-(n.log2 : ℤ)) = (n, 2 ^ n.log2) := by
    unfold scale
    split
    · have h0 : n.log2 = 0 := by omega
      rw [h0]
      simp [twoTo]
    · simp [twoTo]
  unfold log2
  simp only [hone, Nat.cast_zero, sub_zero, hscale, if_neg (not_lt.2 hle)]

/-! ### Integers -/

/-- The first integer that is too large for a double: in the middle between the largest double and
the next power of two, from where rounding goes up. -/
@[irreducible]
def tooLarge : ℕ := 2 ^ 1024 - 2 ^ 970

/-- The significand of an integer, before it is rounded. -/
theorem scale_int {n : ℕ} (hn : n ≠ 0) :
    ∃ num den, scale n 1 (-((n.log2 : ℤ) - 52)) = (num, den) ∧ 0 < den ∧ 2 ^ 52 * den ≤ num ∧
      num ≤ 2 ^ 53 * den ∧ (52 < n.log2 → num = n ∧ den = 2 ^ (n.log2 - 52)) := by
  have hle : 2 ^ n.log2 ≤ n := Nat.log2_self_le hn
  have hlt : n ≤ 2 ^ (n.log2 + 1) := Nat.lt_log2_self.le
  rcases le_or_gt n.log2 52 with h | h
  · have hplace : (-((n.log2 : ℤ) - 52)).toNat = 52 - n.log2 := by omega
    refine ⟨n * 2 ^ (52 - n.log2), 1, ?_, one_pos, ?_, ?_, by omega⟩
    · rw [scale, if_pos (by omega), hplace]
      rfl
    · calc 2 ^ 52 * 1 = 2 ^ n.log2 * 2 ^ (52 - n.log2) := by
            rw [← pow_add, mul_one]; congr 1; omega
        _ ≤ n * 2 ^ (52 - n.log2) := Nat.mul_le_mul_right _ hle
    · calc n * 2 ^ (52 - n.log2) ≤ 2 ^ (n.log2 + 1) * 2 ^ (52 - n.log2) :=
            Nat.mul_le_mul_right _ hlt
        _ = 2 ^ 53 * 1 := by rw [← pow_add, mul_one]; congr 1; omega
  · have hplace : (- -((n.log2 : ℤ) - 52)).toNat = n.log2 - 52 := by omega
    refine ⟨n, 2 ^ (n.log2 - 52), ?_, Nat.two_pow_pos _, ?_, ?_, fun _ => ⟨rfl, rfl⟩⟩
    · rw [scale, if_neg (by omega), hplace, one_mul]
      rfl
    · calc 2 ^ 52 * 2 ^ (n.log2 - 52) = 2 ^ n.log2 := by rw [← pow_add]; congr 1; omega
        _ ≤ n := hle
    · calc n ≤ 2 ^ (n.log2 + 1) := hlt
        _ = 2 ^ 53 * 2 ^ (n.log2 - 52) := by rw [← pow_add]; congr 1; omega

/-- **An integer rounded to a double**: at the last place where it can be too large, it is so if it
is rounded up. -/
theorem round_int {n : ℕ} (hn : n ≠ 0) :
    ∃ m, 2 ^ 52 ≤ m ∧ m ≤ 2 ^ 53 ∧ (n.log2 = 1023 → (m = 2 ^ 53 ↔ tooLarge ≤ n)) ∧
      double.round .nearest n 1 =
        let q : ℤ := n.log2 - 52
        if m = 2 ^ 53 then if 971 < q + 1 then none else some (m / 2, q + 1)
        else if 971 < q then none else some (m, q) := by
  obtain ⟨num, den, hscale, hden, hlow, hle, hlong⟩ := scale_int hn
  refine ⟨roundDiv .nearest num den, le_roundDiv hden hlow, roundDiv_le hden hle, fun h => ?_, ?_⟩
  · obtain ⟨rfl, rfl⟩ := hlong (by omega)
    have hlarge : tooLarge = 2 ^ 53 * 2 ^ 971 - 2 ^ 970 := by decide +kernel
    have hhalf : (2 : ℕ) ^ 971 = 2 * 2 ^ 970 := by decide +kernel
    have hbelow := roundDiv_lt_iff (a := num) (c := 2 ^ 53) hden
    have hmax := roundDiv_le hden hle
    have hplace : num.log2 - 52 = 971 := by omega
    rw [hplace] at hbelow hmax ⊢
    omega
  · refine Format.round_eq hn ?_ (by rw [hscale])
    rw [log2_one hn]
    change max ((n.log2 : ℤ) - 53 + 1) (-1074) = _
    omega

theorem round_int_eq_none_iff (n : ℕ) : double.round .nearest n 1 = none ↔ tooLarge ≤ n := by
  have hpos : 0 < tooLarge := by decide +kernel
  have hlow : 2 ^ 1023 ≤ tooLarge := by decide +kernel
  have hhigh : tooLarge ≤ 2 ^ 1024 := by decide +kernel
  by_cases hn : n = 0
  · subst hn
    exact iff_of_false nofun (not_le.2 hpos)
  obtain ⟨m, -, -, hmiddle, hround⟩ := round_int hn
  rw [hround]
  rcases lt_trichotomy n.log2 1023 with h | h | h
  · have hlt := (Nat.log2_lt hn).1 h
    refine iff_of_false ?_ (by omega)
    dsimp only
    split <;> rw [if_neg (by omega)] <;> exact nofun
  · rw [← hmiddle h]
    dsimp only
    split <;> rename_i hup
    · exact iff_of_true (if_pos (by omega)) hup
    · rw [if_neg (by omega)]
      exact iff_of_false nofun hup
  · have hge := (Nat.le_log2 hn).1 h
    refine iff_of_true ?_ (by omega)
    dsimp only
    split <;> exact if_pos (by omega)

theorem round_int_eq_some {n m : ℕ} {q : ℤ} (hn : n ≠ 0)
    (h : double.round .nearest n 1 = some (m, q)) :
    2 ^ 52 ≤ m ∧ m < 2 ^ 53 ∧ -52 ≤ q ∧ q ≤ 971 := by
  obtain ⟨m', hlow, hm', -, hround⟩ := round_int hn
  rw [hround] at h
  dsimp only at h
  split at h <;> split at h <;> cases h <;> refine ⟨?_, ?_, ?_, ?_⟩ <;> omega

/-- **The integers that cannot be converted.** -/
theorem ofInt?_eq_none_iff {n : ℤ} : ofInt? n = none ↔ tooLarge ≤ n.natAbs := by
  rw [ofInt?, Option.map_eq_none_iff, round_int_eq_none_iff]

/-- **The others** are converted to finite doubles of their sign, at least one in size. -/
theorem unpack_of_ofInt? {n : ℤ} {x : Float} (hn : n ≠ 0) (h : ofInt? n = some x) :
    ∃ m q hpos, x.toModel.unpack = .finite (Double.signOf (n < 0)) m q hpos ∧
      2 ^ 52 ≤ m ∧ -52 ≤ q := by
  obtain ⟨⟨m, q⟩, hround, rfl⟩ := Option.map_eq_some_iff.1 h
  obtain ⟨hlow, hm, hq, hq'⟩ := round_int_eq_some (Int.natAbs_ne_zero.2 hn) hround
  exact ⟨m, q, _, unpack_assemble _ hlow hm hq hq', hlow, hq⟩

theorem isFinite_of_ofInt? {n : ℤ} {x : Float} (h : ofInt? n = some x) : x.isFinite = true := by
  by_cases hn : n = 0
  · subst hn
    cases h
    decide +kernel
  · obtain ⟨m, q, hpos, hunpack, -⟩ := unpack_of_ofInt? hn h
    change x.toModel.unpack.isFinite = true
    rw [hunpack]
    rfl

/-- **No integer is between zero and one**, converted to a double or not. -/
theorem ofIntNearest_outside (n : ℤ) :
    ¬ (Float.lt 0 (ofIntNearest n) = true ∧ Float.lt (ofIntNearest n) 1 = true) := by
  rintro ⟨hpos, hlt⟩
  cases h : ofInt? n with
  | none =>
    have hlarge : ofIntNearest n = infinite (n < 0) := by rw [ofIntNearest, h]; rfl
    rw [hlarge] at hpos hlt
    generalize decide (n < 0) = negative at hpos hlt
    cases negative with
    | false => exact absurd hlt (by decide +kernel)
    | true => exact absurd hpos (by decide +kernel)
  | some x =>
    have hx : ofIntNearest n = x := by rw [ofIntNearest, h]; rfl
    rw [hx] at hpos hlt
    by_cases hn : n = 0
    · subst hn
      cases h
      exact absurd hpos (by decide +kernel)
    obtain ⟨m, q, hm, hunpack, hlow, hq⟩ := unpack_of_ofInt? hn h
    have hone : (1 : Float).toModel.unpack = .finite .positive (2 ^ 52) (-52) (by norm_num) := by
      rfl
    replace hpos := (Double.lt_iff_unpack _ _).1 hpos
    replace hlt := (Double.lt_iff_unpack _ _).1 hlt
    rw [hunpack] at hpos hlt
    generalize decide (n < 0) = negative at hpos hlt
    cases negative with
    | false =>
      rw [hone, Double.lt_iff_place] at hlt
      simp only [Double.signOf, Double.place, Option.mem_def, Option.some.injEq, exists_eq_left',
        Prod.Lex.toLex_lt_toLex, lt_self_iff_false, true_and, false_or] at hlt
      push_cast at hlt
      omega
    | true => cases hpos

end Binary

namespace Number

/-- An integer beyond all doubles. -/
def oversized (a : Number) : Bool := a.int?.any fun n => Binary.tooLarge ≤ n.natAbs

theorem toFloat_of_oversized {a : Number} (h : a.oversized = true) :
    a.toFloat = .error .integerTooLarge := by
  cases hint : a.int? with
  | none => simp only [oversized, hint, Option.any_none, Bool.false_eq_true] at h
  | some n =>
    simp only [oversized, hint, Option.any_some, decide_eq_true_eq] at h
    simp only [toFloat, hint, Binary.ofInt?_eq_none_iff.2 h]

theorem exists_toFloat {a : Number} (h : a.oversized = false) : ∃ x, a.toFloat = .ok x := by
  cases hint : a.int? with
  | none => exact ⟨_, by rw [toFloat, hint]⟩
  | some n =>
    simp only [oversized, hint, Option.any_some, decide_eq_false_iff_not] at h
    obtain ⟨x, hx⟩ := Option.ne_none_iff_exists'.1 (mt Binary.ofInt?_eq_none_iff.1 h)
    exact ⟨x, by rw [toFloat, hint]; simp only [hx]⟩

end Number

end VariableMetric
