import Mathlib.Data.EReal.Basic
import VariableMetric.Backtracking
import VariableMetric.Proofs.Exact
import VariableMetric.Proofs.Search

/-!
# Extended numbers

The real numbers, two infinities, and a value that stands for an undefined outcome: doubles without
their rounding, where a run is reasoned about exactly though its values may be anything.

* `Extended`: the numbers, with the arithmetic and the comparisons of doubles.
* `Extended.place`: the places of the comparable ones.
* `Ray.scaleAt_eq`: **the steps of a search are the powers of its factor**.
-/

namespace VariableMetric

/-- A real number, an infinity of either sign, or neither. -/
inductive Extended where
  | finite (r : ℝ)
  | infinite (negative : Bool)
  | nan

namespace Extended

noncomputable section

/-- Absolute value. -/
def abs : Extended → Extended
  | finite r => finite |r|
  | infinite _ => infinite false
  | nan => nan

def neg : Extended → Extended
  | finite r => finite (-r)
  | infinite negative => infinite !negative
  | nan => nan

/-- Opposite infinities have no sum. -/
def add : Extended → Extended → Extended
  | finite a, finite b => finite (a + b)
  | finite _, infinite negative | infinite negative, finite _ => infinite negative
  | infinite negative, infinite negative' =>
    if negative = negative' then infinite negative else nan
  | _, _ => nan

/-- Zero and an infinity have no product. -/
def mul : Extended → Extended → Extended
  | finite a, finite b => finite (a * b)
  | finite r, infinite negative | infinite negative, finite r =>
    if r = 0 then nan else infinite (negative ^^ decide (r < 0))
  | infinite negative, infinite negative' => infinite (negative ^^ negative')
  | _, _ => nan

/-- Zero has one sign only, and what is divided by it keeps its own. -/
def div : Extended → Extended → Extended
  | finite a, finite b =>
    if b ≠ 0 then finite (a / b) else if a = 0 then nan else infinite (decide (a < 0))
  | finite _, infinite _ => finite 0
  | infinite negative, finite r => infinite (negative ^^ decide (r < 0))
  | _, _ => nan

/-- **The place of a number** among the comparable ones. -/
def place : Extended → Option EReal
  | finite r => some r
  | infinite true => some ⊥
  | infinite false => some ⊤
  | nan => none

instance : Scalar Extended where
  zero := finite 0
  one := finite 1
  add := add
  sub a b := add a (neg b)
  mul := mul
  div := div
  neg := neg
  abs := abs
  lt a b := decide (∃ p ∈ a.place, ∃ q ∈ b.place, p < q)
  le a b := decide (∃ p ∈ a.place, ∃ q ∈ b.place, p ≤ q)
  isFinite
    | finite _ => true
    | _ => false

end

theorem le_iff (a b : Extended) :
    Scalar.le a b = true ↔ ∃ p ∈ a.place, ∃ q ∈ b.place, p ≤ q := decide_eq_true_iff

theorem lt_iff (a b : Extended) :
    Scalar.lt a b = true ↔ ∃ p ∈ a.place, ∃ q ∈ b.place, p < q := decide_eq_true_iff

@[simp] theorem finite_lt (r t : ℝ) : Scalar.lt (finite r) (finite t) = decide (r < t) := by
  rw [Bool.eq_iff_iff, lt_iff, decide_eq_true_iff]
  simp [place]

@[simp] theorem finite_le (r t : ℝ) : Scalar.le (finite r) (finite t) = decide (r ≤ t) := by
  rw [Bool.eq_iff_iff, le_iff, decide_eq_true_iff]
  simp [place]

@[simp] theorem nan_lt (a : Extended) : Scalar.lt nan a = false := by
  rw [← Bool.not_eq_true, lt_iff]
  simp [place]

@[simp] theorem zero_eq : (0 : Extended) = finite 0 := rfl

@[simp] theorem one_eq : (1 : Extended) = finite 1 := rfl

@[simp] theorem finite_add (r t : ℝ) : finite r + finite t = finite (r + t) := rfl

@[simp] theorem finite_mul (r t : ℝ) : finite r * finite t = finite (r * t) := rfl

@[simp] theorem nan_sub (a : Extended) : nan - a = nan := by cases a <;> rfl

@[simp] theorem abs_nan : Scalar.abs nan = nan := rfl

/-- All but one are comparable. -/
theorem le_self_iff (a : Extended) : Scalar.le a a = true ↔ a ≠ nan := by
  rw [le_iff]
  rcases a with r | (_ | _) | _ <;> simp [place]

instance : Scalar.Ordered Extended :=
  .of_place place le_iff lt_iff
    (fun a h => by
      cases a with
      | finite r => rfl
      | infinite negative => cases h
      | nan => cases h)
    (by rw [zero_eq, one_eq, finite_lt]; exact decide_eq_true zero_lt_one)

theorem one_mul_eq (a : Extended) : 1 * a = a := by
  cases a with
  | finite r => rw [one_eq, finite_mul, one_mul]
  | infinite negative =>
    change mul (finite 1) (infinite negative) = _
    simp [mul, not_lt.2 (zero_le_one (α := ℝ))]
  | nan => rfl

/-- Zero times a finite number vanishes; zero times an infinity would not. -/
theorem add_zero_mul (a : Extended) {b : Extended} (h : Scalar.isFinite b = true) :
    a + 0 * b = a := by
  cases b with
  | finite r =>
    rw [zero_eq, finite_mul, zero_mul]
    cases a with
    | finite t => rw [finite_add, add_zero]
    | infinite | nan => rfl
  | infinite | nan => cases h

theorem one_mul_vec {n : ℕ} (d : Vec Extended n) : (1 : Extended) * d = d := by
  refine Vector.ext fun i hi => ?_
  rw [Vector.getElem_hmul, one_mul_eq]

theorem add_zero_mul_vec {n : ℕ} (x : Vec Extended n) {d : Vec Extended n}
    (hd : allFinite d = true) : x + (0 : Extended) * d = x := by
  refine Vector.ext fun i hi => ?_
  rw [Vector.getElem_add, Vector.getElem_hmul]
  exact add_zero_mul _ (Vector.all_eq_true.1 hd i hi)

section Line

variable (a b : Extended)

theorem line_add : (#v[a] : Vec Extended 1) + #v[b] = #v[a + b] := by
  refine Vector.ext fun i hi => ?_
  obtain rfl : i = 0 := by omega
  rw [Vector.getElem_add]
  rfl

theorem line_mul : a * (#v[b] : Vec Extended 1) = #v[a * b] := by
  refine Vector.ext fun i hi => ?_
  obtain rfl : i = 0 := by omega
  rw [Vector.getElem_hmul]
  rfl

theorem line_neg : -(#v[a] : Vec Extended 1) = #v[-a] := by
  refine Vector.ext fun i hi => ?_
  obtain rfl : i = 0 := by omega
  rw [Vector.getElem_neg]
  rfl

end Line

end Extended

/-- A solver for systems whose matrix is the identity. -/
@[reducible] def solveIdentity : Solver Extended where
  solveAll? _ sides := some sides

variable {n : ℕ} {r : Ray Extended n} {b : ℝ}

/-- Steps shrunk by a finite factor are its powers. -/
theorem scaleAfter_finite (b : ℝ) (k : ℕ) : scaleAfter (.finite b) k = Extended.finite (b ^ k) := by
  induction k with
  | zero =>
    rw [pow_zero]
    rfl
  | succ k ih => rw [scaleAfter_succ, ih, Extended.finite_mul, pow_succ]

/-- **The steps of a search are the powers of its factor.** -/
theorem Ray.scaleAt_eq (hb : r.factor = .finite b) (k : ℕ) : r.scaleAt k = .finite (b ^ k) := by
  rw [scaleAt, hb, scaleAfter_finite]

/-- A trial is the last if it is a decrease or its power of the factor is not above the limit. -/
theorem Ray.settled_eq {μ : ℝ} (hb : r.factor = .finite b) (hμ : r.minStep = .finite μ) (k : ℕ)
    (v : Extended) :
    r.settled (r.trialAt k v) = (Scalar.lt v r.value || decide (b ^ k ≤ μ)) := by
  have hstep : Scalar.lt r.minStep (r.scaleAt k) = decide (μ < b ^ k) := by
    rw [scaleAt_eq hb, hμ, Extended.finite_lt]
  change (Scalar.lt v r.value || !Scalar.lt r.minStep (r.scaleAt k)) = _
  rw [hstep, ← decide_not]
  simp only [not_lt]

end VariableMetric
