import VariableMetric.Proofs.Numerals
import VariableMetric.Proofs.Oversized

/-!
# Doubles in print

A double is printed in the general form with so many significant digits. Read back exactly, a finite
one is at most half a unit of the last of these digits away from its exact value.

* `Double.exactValue?`: **the exact value of a finite double**.
* `Double.PartsOf`, `Double.partsOf_ofFloat`: the parts of a double are those it is unpacked to.
* `Decimal.lastUnit`: the unit of the last digit.
* `Decimal.Printed`, `Decimal.printed_general`: what is printed of a double.
* `Decimal.Printed.numeral?`: **what is printed is close to the exact value**.
* `Decimal.Printed.length_le`, `Decimal.Printed.word`: it is one word, and not a long one.
-/

namespace VariableMetric

namespace Double

open Float.Model (UnpackedFloat Format)
open Float.Model.UnpackedFloat
open Binary (Parts twoTo)

/-- **The exact value of a double**, `none` if it is not finite. -/
def exactValue? (x : Float) : Option ℚ :=
  match x.toModel.unpack with
  | .zero _ => some 0
  | .finite .positive m e _ => some (m * 2 ^ e)
  | .finite .negative m e _ => some (-(m * 2 ^ e))
  | _ => none

/-- The finite doubles have an exact value. -/
theorem isSome_exactValue? (x : Float) : (exactValue? x).isSome = Scalar.isFinite x := by
  change _ = x.toModel.unpack.isFinite
  unfold exactValue?
  generalize x.toModel.unpack = a
  match a with
  | .notANumber | .infinity _ | .zero _ | .finite .positive .. | .finite .negative .. => rfl

/-- What a double is unpacked to, and its parts. -/
inductive PartsOf : UnpackedFloat → Parts → Prop
  | nan : PartsOf .notANumber .nan
  | infinite (negative : Bool) : PartsOf (.infinity (signOf negative)) (.infinite negative)
  | zero (negative : Bool) : PartsOf (.zero (signOf negative)) (.finite negative 0 (-1074))
  | finite (negative : Bool) {m : ℕ} {q : ℤ} (hpos : 0 < m) (hm : m < 2 ^ 53) (hlow : -1074 ≤ q)
      (hhigh : q ≤ 971) : PartsOf (.finite (signOf negative) m q hpos) (.finite negative m q)

theorem PartsOf.of_eq {negative : Bool} {m m' : ℕ} {q q' : ℤ} {hpos : 0 < m} (hm : m = m')
    (hq : q = q') (hbits : m' < 2 ^ 53) (hlow : -1074 ≤ q') (hhigh : q' ≤ 971) :
    PartsOf (.finite (signOf negative) m q hpos) (.finite negative m' q') := by
  subst hm hq
  exact .finite negative hpos hbits hlow hhigh

/-- **The parts of a double** are those that it is unpacked to. -/
theorem partsOf_ofFloat (x : Float) : PartsOf x.toModel.unpack (Parts.ofFloat x) := by
  have htwo (k : ℕ) : twoTo k = 2 ^ k := rfl
  have hbias : (Format.binary64.exponentBias : ℤ) = 1023 := rfl
  change PartsOf (unpack .binary64 x.toBits.toBitVec) _
  set b := x.toBits with hb
  have hsize : b.toNat < 2 ^ 64 := b.toNat_lt
  have hsign : Sign.ofBitVec (@unpackSign .binary64 b.toBitVec) =
      signOf (decide (b.toNat / 2 ^ 63 = 1)) := by
    refine sign_of_bits ?_
    by_cases h : b.toNat / 2 ^ 63 = 1
    · rw [decide_eq_true h, h]
      rfl
    · have h0 : b.toNat / 2 ^ 63 = 0 := by omega
      rw [decide_eq_false h, h0]
      rfl
  have hexp := exponent_toNat b
  have hmant := mantissa_toNat b
  have hinf : @unpackExponent .binary64 b.toBitVec = -1#11 ↔ b.toNat / 2 ^ 52 % 2 ^ 11 = 2047 := by
    rw [← hexp, ← BitVec.toNat_inj]
    rfl
  have hsub : @unpackExponent .binary64 b.toBitVec = 0#11 ↔ b.toNat / 2 ^ 52 % 2 ^ 11 = 0 := by
    rw [← hexp, ← BitVec.toNat_inj]
    rfl
  have hzero : @unpackMantissa .binary64 b.toBitVec = 0#52 ↔ b.toNat % 2 ^ 52 = 0 := by
    rw [← hmant, ← BitVec.toNat_inj]
    rfl
  -- both sides split on the exponent: all of its bits set, all clear, or neither
  unfold Parts.ofFloat unpack
  simp only [htwo, ← hb, hsign, hinf, hsub, hzero]
  split
  · split
    · exact .infinite _
    · exact .nan
  · split
    · split
      · rename_i h
        rw [h]
        exact .zero _
      · rename_i hlast _
        refine .of_eq hmant ?_ (by omega) (by omega) (by omega)
        rw [hexp, hlast, hbias]
        rfl
    · have hval : (1#1 ++ @unpackMantissa .binary64 b.toBitVec).toNat =
          2 ^ 52 + b.toNat % 2 ^ 52 := by
        rw [toNat_one_append, hmant]
      refine .of_eq hval ?_ (by omega) (by omega) (by omega)
      rw [hexp, hbias]
      push_cast
      omega

end Double

namespace Decimal

open Binary (Parts scale twoTo)
open Double (exactValue? signOf PartsOf partsOf_ofFloat)

variable {count : ℕ}

/-- The unit of the last of so many digits of a number; zero has none to lose. -/
def lastUnit (count : ℕ) (v : ℚ) : ℚ :=
  if v = 0 then 0 else 10 ^ (Int.log 10 |v| - (count - 1 : ℕ))

@[simp] theorem lastUnit_signedBy (count : ℕ) (negative : Bool) (v : ℚ) :
    lastUnit count (signedBy negative v) = lastUnit count v := by
  have hzero : signedBy negative v = 0 ↔ v = 0 := by
    rw [← abs_eq_zero, abs_signedBy, abs_eq_zero]
  unfold lastUnit
  simp only [hzero, abs_signedBy]

/-- A significand and its place as a ratio. -/
theorem scale_eq (m : ℕ) (q : ℤ) :
    0 < (scale m 1 q).2 ∧ ((scale m 1 q).1 : ℚ) / (scale m 1 q).2 = m * 2 ^ q := by
  have htwo (k : ℕ) : twoTo k = 2 ^ k := rfl
  unfold scale
  split
  · rename_i hq
    obtain ⟨k, rfl⟩ := Int.eq_ofNat_of_zero_le hq
    simp [htwo]
  · rename_i hq
    obtain ⟨k, hk⟩ := Int.eq_ofNat_of_zero_le (show 0 ≤ -q by omega)
    obtain rfl : q = -k := by omega
    simp [htwo, div_eq_mul_inv]

/-- Three bits are worth less than a digit. -/
theorem two_zpow_bounds {q : ℤ} {k : ℕ} (h : q.natAbs ≤ 3 * k) :
    (10 : ℚ) ^ (-k : ℤ) ≤ 2 ^ q ∧ (2 : ℚ) ^ q ≤ 10 ^ (k : ℤ) := by
  have hbits : (2 : ℚ) ^ (3 * k : ℤ) ≤ 10 ^ (k : ℤ) := by
    rw [zpow_mul]
    exact zpow_le_zpow_left₀ (by positivity) (by norm_num) (by norm_num)
  constructor
  · calc (10 : ℚ) ^ (-k : ℤ) ≤ 2 ^ (-(3 * k) : ℤ) := by
          rw [zpow_neg, zpow_neg]
          exact inv_anti₀ (by positivity) hbits
      _ ≤ 2 ^ q := zpow_le_zpow_right₀ (by norm_num) (by omega)
  · exact (zpow_le_zpow_right₀ (by norm_num) (by omega)).trans hbits

/-- The leading digits of doubles have exponents of at most three digits. -/
theorem log_double_bounds {m : ℕ} {q : ℤ} (hpos : 0 < m) (hm : m < 2 ^ 53) (hlow : -1074 ≤ q)
    (hhigh : q ≤ 971) : (Int.log 10 ((m : ℚ) * 2 ^ q)).natAbs < 400 := by
  have hone : (1 : ℚ) ≤ m := by exact_mod_cast hpos
  have hbits : (m : ℚ) < 10 ^ (16 : ℤ) := by
    exact_mod_cast hm.trans (by norm_num : 2 ^ 53 < 10 ^ 16)
  have hv : (0 : ℚ) < m * 2 ^ q := by positivity
  -- 1074 bits are less than 358 digits, and the 53 of the significand less than 16
  obtain ⟨hleast, hmost⟩ := two_zpow_bounds (show q.natAbs ≤ 3 * 358 by omega)
  set k : ℤ := ((358 : ℕ) : ℤ) with hk
  have hsmall : (10 : ℚ) ^ (-k) ≤ m * 2 ^ q :=
    calc (10 : ℚ) ^ (-k) ≤ 1 * 2 ^ q := by rwa [one_mul]
      _ ≤ m * 2 ^ q := by gcongr
  have hlarge : (m : ℚ) * 2 ^ q < 10 ^ (16 + k) :=
    calc (m : ℚ) * 2 ^ q < 10 ^ (16 : ℤ) * 2 ^ q := by gcongr
      _ ≤ 10 ^ (16 : ℤ) * 10 ^ k := by gcongr
      _ = 10 ^ (16 + k) := (zpow_add₀ (by norm_num) _ _).symm
  have hten : (1 : ℕ) < 10 := by norm_num
  have hle := (Int.zpow_le_iff_le_log hten hv).1 (by exact_mod_cast hsmall)
  have hlt := (Int.lt_zpow_iff_log_lt hten hv).1 (by exact_mod_cast hlarge)
  omega

/-- **What is printed** of a double: the name of what is not finite, or else its sign and the
general form of its leading digits. -/
inductive Printed (count : ℕ) (x : Float) : String → Prop
  | name {text : String} (hnone : exactValue? x = none) (htext : text ∈ ["nan", "inf", "-inf"]) :
      Printed count x text
  | digits (negative : Bool) {c : ℕ} {e : ℤ} {v : ℚ} (hc : c < 10 ^ count) (he : e.natAbs < 1000)
      (hexact : exactValue? x = some (signedBy negative v))
      (hclose : |(c : ℚ) * 10 ^ (e - (count - 1 : ℕ)) - v| ≤ lastUnit count v / 2) :
      Printed count x (String.ofList
        (if negative then '-' :: generalForm count c e else generalForm count c e))

/-- **The leading digits** of the exact value of a double. -/
theorem leading_scale (hcount : 0 < count) {m : ℕ} {q : ℤ} (hm : m < 2 ^ 53) (hlow : -1074 ≤ q)
    (hhigh : q ≤ 971) {c : ℕ} {e : ℤ}
    (h : leading count (scale m 1 q).1 (scale m 1 q).2 = (c, e)) :
    c < 10 ^ count ∧ e.natAbs < 1000 ∧
      |(c : ℚ) * 10 ^ (e - (count - 1 : ℕ)) - m * 2 ^ q| ≤ lastUnit count (m * 2 ^ q) / 2 := by
  obtain ⟨hden, hratio⟩ := scale_eq m q
  by_cases hnum : (scale m 1 q).1 = 0
  · have hv : (m : ℚ) * 2 ^ q = 0 := by
      rw [← hratio, hnum, Nat.cast_zero, zero_div]
    rw [leading, if_pos hnum] at h
    cases h
    rw [hv]
    simp [lastUnit]
  · have hpos : 0 < m := by
      refine Nat.pos_of_ne_zero fun hzero => hnum ?_
      rw [hzero, scale]
      split <;> simp
    have hv : (0 : ℚ) < m * 2 ^ q := by positivity
    have hrounded := rounded_significant hcount (Nat.pos_of_ne_zero hnum) hden
    rw [leading, if_neg hnum] at h
    rw [h, hratio] at hrounded
    have hbounds := log_double_bounds hpos hm hlow hhigh
    have hexp := hrounded.exponent
    refine ⟨hrounded.high, by omega, ?_⟩
    rw [lastUnit, if_neg hv.ne', abs_of_pos hv]
    exact hrounded.close

/-- The exact value of a double, from what it is unpacked to. -/
theorem exactValue?_of_finite {x : Float} {negative : Bool} {m : ℕ} {q : ℤ} {hpos : 0 < m}
    (h : x.toModel.unpack = .finite (signOf negative) m q hpos) :
    exactValue? x = some (signedBy negative (m * 2 ^ q)) := by
  unfold exactValue?
  rw [h]
  cases negative <;> rfl

/-- **What is printed** of a double. -/
theorem printed_general (hcount : 0 < count) (x : Float) : Printed count x (general count x) := by
  have hparts := partsOf_ofFloat x
  unfold general withSign
  generalize hunpack : x.toModel.unpack = a at hparts
  generalize Parts.ofFloat x = p at hparts
  cases hparts with
  | nan => exact .name (by rw [exactValue?, hunpack]) (by simp)
  | infinite negative =>
    refine .name (by rw [exactValue?, hunpack]) ?_
    cases negative <;> simp
  | zero negative =>
    dsimp only
    rw [generalDigits_eq hcount]
    have hv : exactValue? x = some (signedBy negative ((0 : ℕ) * 2 ^ (-1074 : ℤ))) := by
      rw [exactValue?, hunpack]
      cases negative <;> simp [signedBy]
    obtain ⟨hc, he, hclose⟩ :=
      leading_scale hcount (by norm_num : 0 < 2 ^ 53) le_rfl (by norm_num) rfl
    exact .digits negative hc he hv hclose
  | @finite negative m q hpos hm hlow hhigh =>
    dsimp only
    rw [generalDigits_eq hcount]
    obtain ⟨hc, he, hclose⟩ := leading_scale hcount hm hlow hhigh rfl
    exact .digits negative hc he (exactValue?_of_finite hunpack) hclose

/-! ### Read back -/

section Printed

variable {x : Float} {text : String}

/-- **What is printed is close to the exact value.** -/
theorem Printed.numeral? (h : Printed count x text) (hcount : 0 < count) {v : ℚ}
    (hv : exactValue? x = some v) :
    ∃ w, numeral? text = some w ∧ |w - v| ≤ lastUnit count v / 2 := by
  cases h with
  | name hnone _ =>
    rw [hv] at hnone
    cases hnone
  | @digits negative c e u hc he hexact hclose =>
    have hu : v = signedBy negative u := Option.some.inj (hv.symm.trans hexact)
    refine ⟨signedBy negative (c * 10 ^ (e - (count - 1 : ℕ))), ?_, ?_⟩
    · obtain ⟨⟨d, ds, htext, hd⟩, -⟩ := plain_generalForm hcount c e
      have hread := unsigned?_generalForm hcount c e
      rw [htext] at hread ⊢
      rw [Decimal.numeral?, String.toList_ofList, signed_digits negative hd]
      simp only [hread, Option.map_some]
    · rw [hu, signedBy_sub, abs_signedBy, lastUnit_signedBy]
      exact hclose

/-- What is printed is not long: a sign, the digits, a point and an exponent of three digits. -/
theorem Printed.length_le (h : Printed count x text) (hcount : 0 < count) :
    text.length ≤ count + 7 := by
  cases h with
  | name _ htext =>
    have hnames : ∀ t ∈ ["nan", "inf", "-inf"], t.length ≤ 7 := by decide
    exact (hnames text htext).trans (Nat.le_add_left 7 count)
  | @digits negative c e u hc he hexact hclose =>
    have hlength := length_generalForm_le hcount hc he
    rw [String.length_ofList]
    cases negative <;> simp <;> omega

/-- What is printed is one word. -/
theorem Printed.word (h : Printed count x text) (hcount : 0 < count) :
    text.toList ≠ [] ∧ ∀ c ∈ text.toList, Text.isBlank c = false := by
  cases h with
  | name _ htext =>
    have hnames : ∀ t ∈ ["nan", "inf", "-inf"],
        t.toList ≠ [] ∧ ∀ c ∈ t.toList, Text.isBlank c = false := by
      simp [Text.isBlank, Text.blanks]
    exact hnames text htext
  | @digits negative c e u hc he hexact hclose =>
    obtain ⟨⟨d, ds, htext, -⟩, hplain⟩ := plain_generalForm hcount c e
    rw [String.toList_ofList]
    cases negative with
    | false => exact ⟨by simp [htext], fun d hd => (hplain d hd).not_blank⟩
    | true =>
      refine ⟨by simp, fun d hd => ?_⟩
      rcases List.mem_cons.1 hd with rfl | hd
      · decide
      · exact (hplain d hd).not_blank

end Printed

end Decimal

end VariableMetric
