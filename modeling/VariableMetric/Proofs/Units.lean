import Mathlib
import VariableMetric.Proofs.Comparison

/-!
# Doubles in units of the smallest

Every finite double is a whole multiple of the smallest positive one. Doubles that are not negative
are handled by their count of it.

* `Double.units`: the count, `Double.perOne`: that of one.
* `Double.HasUnits`: **an unpacked double that is not negative, with its count**, in the form that
  doubles are unpacked to.
* `Double.HasUnits.lt_iff`: such doubles are compared by their counts.
* `Double.Regular`: what a double is unpacked to, `Double.unpack_pack`: packing it loses nothing.
* `Double.hasUnits`: every positive finite double is one.
-/

namespace VariableMetric

namespace Double

open Float.Model (UnpackedFloat Format)
open Float.Model.UnpackedFloat

/-- How many units one has: the smallest positive double is `2 ^ -1074`. -/
def perOne : ℕ := 2 ^ 1074

theorem perOne_pos : 0 < perOne := by
  unfold perOne
  positivity

theorem pow_perOne (k : ℕ) : 2 ^ (k + 1074) = 2 ^ k * perOne := pow_add 2 k 1074

/-- How many units the doubles just below one are apart. -/
def belowOne : ℕ := 2 ^ 1021

theorem belowOne_pos : 0 < belowOne := by
  unfold belowOne
  positivity

theorem perOne_eq : perOne = 2 ^ 53 * belowOne := by decide +kernel

/-- How often the smallest positive double goes into a finite one; its sign is left out. -/
def units (x : Float) : ℕ :=
  match x.toModel.unpack with
  | .finite _ m e _ => m * 2 ^ (e + 1074).toNat
  | _ => 0

/-- **An unpacked double that is not negative**, and its count of units: a significand of at most 53
bits at one of the places, all bits in use except at the last place. -/
inductive HasUnits : UnpackedFloat → ℕ → Prop
  | zero (s : Sign) : HasUnits (.zero s) 0
  | finite {m k : ℕ} {e : ℤ} (hpos : 0 < m) (hm : m < 2 ^ 53) (hk : k ≤ 2045)
      (hfull : 2 ^ 52 ≤ m ∨ k = 0) (he : e = (k : ℤ) - 1074) :
      HasUnits (.finite .positive m e hpos) (m * 2 ^ k)

/-- Within 53 bits, up to trailing zeros: what the count of every double is. -/
def Fits (u : ℕ) : Prop := ∃ m k, m < 2 ^ 53 ∧ u = m * 2 ^ k

theorem HasUnits.fits {a : UnpackedFloat} {u : ℕ} (h : HasUnits a u) : Fits u := by
  cases h with
  | zero s => exact ⟨0, 0, by norm_num, rfl⟩
  | @finite m k e hpos hm hk hfull he => exact ⟨m, k, hm, rfl⟩

theorem HasUnits.units_eq {x : Float} {u : ℕ} (h : HasUnits x.toModel.unpack u) :
    units x = u := by
  unfold units
  generalize x.toModel.unpack = a at h ⊢
  cases h with
  | zero s => rfl
  | @finite m k e hpos hm hk hfull he =>
    have hplace : (e + 1074).toNat = k := by omega
    simp only [hplace]

/-! ### Comparison -/

/-- At a higher place every count is larger. -/
theorem lt_of_place_lt {m m' k k' : ℕ} (hm : m < 2 ^ 53) (hfull : 2 ^ 52 ≤ m' ∨ k' = 0)
    (h : k < k') : m * 2 ^ k < m' * 2 ^ k' := by
  have hm' : 2 ^ 52 ≤ m' := by omega
  calc m * 2 ^ k < 2 ^ 53 * 2 ^ k := Nat.mul_lt_mul_of_pos_right hm (Nat.two_pow_pos k)
    _ = 2 ^ 52 * 2 ^ (k + 1) := by ring
    _ ≤ m' * 2 ^ k' := Nat.mul_le_mul hm' (Nat.pow_le_pow_right two_pos h)

/-- **Doubles that are not negative** are compared by their counts. -/
theorem HasUnits.lt_iff {a b : UnpackedFloat} {u v : ℕ} (ha : HasUnits a u) (hb : HasUnits b v) :
    a.lt b = true ↔ u < v := by
  rw [lt_iff_place]
  cases ha with
  | zero s =>
    cases hb with
    | zero s' => simp [place]
    | @finite m k e hpos hm hk hfull he =>
      simp [place, Prod.Lex.toLex_lt_toLex, hpos]
  | @finite m k e hpos hm hk hfull he =>
    cases hb with
    | zero s' => simp [place, Prod.Lex.toLex_lt_toLex]
    | @finite m' k' e' hpos' hm' hk' hfull' he' =>
      simp only [place, Option.mem_def, Option.some.injEq, exists_eq_left', Prod.Lex.toLex_lt_toLex,
        lt_self_iff_false, true_and, false_or, Nat.cast_lt]
      rcases lt_trichotomy k k' with h | rfl | h
      · have hlt := lt_of_place_lt hm hfull' h
        exact ⟨fun _ => hlt, fun _ => .inl (by omega)⟩
      · have he : e = e' := he.trans he'.symm
        rw [Nat.mul_lt_mul_right (Nat.two_pow_pos k)]
        simp [he]
      · have hlt := lt_of_place_lt hm' hfull h
        constructor
        · intro hplace
          omega
        · intro hcount
          omega

/-! ### Packing and unpacking -/

theorem log2_eq {m : ℕ} (hlow : 2 ^ 52 ≤ m) (hm : m < 2 ^ 53) : m.log2 = 52 := by
  have hne : m ≠ 0 := by omega
  have hle : 52 ≤ m.log2 := (Nat.le_log2 hne).2 hlow
  have hlt : m.log2 < 53 := (Nat.log2_lt hne).2 hm
  omega

theorem toNat_one_append {w : ℕ} (m : BitVec w) : (1#1 ++ m).toNat = 2 ^ w + m.toNat := by
  rw [BitVec.toNat_append, ← Nat.shiftLeft_add_eq_or_of_lt m.isLt, Nat.shiftLeft_eq]
  simp

theorem finite_congr {s : Sign} {m m' : ℕ} {e e' : ℤ} {hpos : 0 < m} {hpos' : 0 < m'} (hm : m = m')
    (he : e = e') : UnpackedFloat.finite s m e hpos = .finite s m' e' hpos' := by
  subst hm he
  rfl

/-- What a double is unpacked to: a finite one has its significand at one of the places, all bits in
use except at the last place. -/
inductive Regular : UnpackedFloat → Prop
  | notANumber : Regular .notANumber
  | infinity (s : Sign) : Regular (.infinity s)
  | zero (s : Sign) : Regular (.zero s)
  | finite {s : Sign} {m k : ℕ} {e : ℤ} (hpos : 0 < m) (hm : m < 2 ^ 53) (hk : k ≤ 2045)
      (hfull : 2 ^ 52 ≤ m ∨ k = 0) (he : e = (k : ℤ) - 1074) : Regular (.finite s m e hpos)

theorem HasUnits.regular {a : UnpackedFloat} {u : ℕ} (h : HasUnits a u) : Regular a := by
  cases h with
  | zero s => exact .zero s
  | @finite m k e hpos hm hk hfull he => exact .finite hpos hm hk hfull he

/-- **Packing loses nothing** of what a double is unpacked to. -/
theorem unpack_pack {a : UnpackedFloat} (h : Regular a) :
    (Float.Model.pack a).unpack = a := by
  change unpack .binary64 (pack .binary64 a) = a
  cases h with
  | notANumber => rfl
  | infinity s => cases s <;> rfl
  | zero s => cases s <;> rfl
  | @finite s m k e hpos hm hk hfull he =>
    have hexp : (e + Format.binary64.exponentBias +
        Format.binary64.mantissaBitsWithoutImplicit).toNat = k + 1 := by
      change (e + 1023 + 52).toNat = k + 1
      omega
    have hbits : Format.binary64.mantissaBits = 53 := rfl
    have hbias : (Format.binary64.exponentBias : ℤ) = 1023 := rfl
    unfold pack
    simp only [hexp, hbits]
    rw [if_neg (by norm_num; omega)]
    by_cases hnormal : 2 ^ 52 ≤ m
    · have hplace : (BitVec.ofNat 11 (k + 1)).toNat = k + 1 := by
        rw [BitVec.toNat_ofNat]
        omega
      have hlow : (BitVec.ofNat 52 m).toNat = m - 2 ^ 52 := by
        rw [BitVec.toNat_ofNat]
        omega
      have hinf : BitVec.ofNat 11 (k + 1) ≠ -1#11 := by
        intro heq
        have hnat : k + 1 = 2047 := hplace ▸ congrArg BitVec.toNat heq
        omega
      have hsub : BitVec.ofNat 11 (k + 1) ≠ 0#11 := by
        intro heq
        have hnat : k + 1 = 0 := hplace ▸ congrArg BitVec.toNat heq
        omega
      rw [if_pos (by rw [log2_eq hnormal hm]), UnpackedFloat.unpack]
      simp only [unpackMantissa_packComponents, unpackExponent_packComponents,
        unpackSign_packComponents, Sign.ofBitVec_toBitVec, if_neg hinf, if_neg hsub]
      refine finite_congr ?_ ?_
      · rw [toNat_one_append, hlow]
        omega
      · rw [hplace, hbias]
        push_cast
        omega
    · have hlast : k = 0 := hfull.resolve_left hnormal
      have hlog : m.log2 < 52 := (Nat.log2_lt hpos.ne').2 (not_le.1 hnormal)
      have hlow : (BitVec.ofNat 52 m).toNat = m := by
        rw [BitVec.toNat_ofNat]
        omega
      have hne : BitVec.ofNat 52 m ≠ 0#52 := by
        intro heq
        have hnat : m = 0 := hlow ▸ congrArg BitVec.toNat heq
        omega
      rw [if_neg (by omega), UnpackedFloat.unpack]
      simp only [unpackMantissa_packComponents, unpackExponent_packComponents,
        unpackSign_packComponents, Sign.ofBitVec_toBitVec, dif_neg hne]
      rw [if_neg (by decide), if_pos trivial]
      refine finite_congr hlow ?_
      rw [he, hlast, hbias]
      rfl

theorem regular_unpack (b : BitVec Format.binary64.numBits) : Regular (unpack .binary64 b) := by
  have hbias : (Format.binary64.exponentBias : ℤ) = 1023 := rfl
  have hfrac : (unpackMantissa b).toNat < 2 ^ 52 := (unpackMantissa b).isLt
  have hexp : (unpackExponent b).toNat < 2048 := (unpackExponent b).isLt
  unfold unpack
  dsimp only
  split
  · split
    · exact .infinity _
    · exact .notANumber
  rename_i hinf
  have hne : (unpackExponent b).toNat ≠ 2047 := fun h => hinf (BitVec.eq_of_toNat_eq h)
  split
  · rename_i hsub
    have hlast : (unpackExponent b).toNat = 0 := congrArg BitVec.toNat hsub
    split
    · exact .zero _
    · refine .finite (k := 0) _ (by omega) (by omega) (.inr rfl) ?_
      rw [hlast, hbias]
      rfl
  · rename_i hsub
    have hpos : (unpackExponent b).toNat ≠ 0 := fun h => hsub (BitVec.eq_of_toNat_eq h)
    have hval : (1#1 ++ unpackMantissa b).toNat = 2 ^ 52 + (unpackMantissa b).toNat :=
      toNat_one_append _
    refine .finite (k := (unpackExponent b).toNat - 1) _ (by omega) (by omega) (.inl (by omega)) ?_
    rw [hbias]
    push_cast
    omega

theorem Regular.hasUnits {a : UnpackedFloat} (h : Regular a)
    (hpos : (UnpackedFloat.zero .positive).lt a = true) (hfin : a.isFinite = true) :
    ∃ u, HasUnits a u := by
  cases h with
  | notANumber => cases hfin
  | infinity s => cases hfin
  | zero s => exact ⟨0, .zero s⟩
  | @finite s m k e hm0 hm hk hfull he =>
    cases s with
    | negative => cases hpos
    | positive => exact ⟨_, .finite hm0 hm hk hfull he⟩

theorem lt_iff_unpack (a b : Float) :
    Scalar.lt a b = true ↔ a.toModel.unpack.lt b.toModel.unpack = true := decide_eq_true_iff

theorem unpack_zero : (0 : Float).toModel.unpack = .zero .positive := by rfl

/-- **Every positive finite double** has its count of units. -/
theorem hasUnits {x : Float} (hpos : Scalar.lt 0 x = true) (hfin : Scalar.isFinite x = true) :
    HasUnits x.toModel.unpack (units x) := by
  rw [lt_iff_unpack, unpack_zero] at hpos
  obtain ⟨u, hu⟩ := (regular_unpack _).hasUnits hpos hfin
  rwa [hu.units_eq]

theorem units_one : units 1 = perOne := by decide +kernel

theorem hasUnits_one : HasUnits (1 : Float).toModel.unpack perOne :=
  units_one ▸ hasUnits (by decide +kernel) (by decide +kernel)

end Double

end VariableMetric
