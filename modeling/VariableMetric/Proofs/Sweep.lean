import Mathlib.Analysis.SpecialFunctions.Log.Basic
import Mathlib.Analysis.SpecialFunctions.Trigonometric.Basic
import VariableMetric.Expression.Graph
import VariableMetric.Proofs.Exact

/-!
# What a sweep collects

In exact arithmetic a recorded computation has a slope in every coordinate, by the chain rule read
from the coordinates up. A sweep runs the other way, from the value down, and adds to what it has
collected.

* `Precision.exact`: nothing is rounded.
* `Graph.slope`: **the slope of a recorded computation** in a coordinate.
* `sweep_collects`: **a sweep adds the slope**, times what comes in at the value.
* `sweep_idle`, `gradient_eq_sweep`: what takes no gradient need not be swept.
* `gradient_eq_slope`: the gradient of a recorded computation is the vector of its slopes.
* `value_applyBinary`, `slope_applyBinary`, `slope_applyPower`: the rules for each step.
-/

namespace VariableMetric

noncomputable instance : Elementary ℝ where
  toScalar := inferInstance
  sqrt := Real.sqrt
  exp := Real.exp
  log := Real.log
  sin := Real.sin
  cos := Real.cos
  tanh := Real.tanh
  sinh := Real.sinh
  cosh := Real.cosh
  ofNat k := k

/-- Exact arithmetic: nothing is rounded, and gradients can be handed out. -/
def Precision.exact {α : Type} (name : String) : Precision α := ⟨name, id, id, true⟩

namespace Graph

variable {m : ℕ} {name : String}

/-- What a power passes back for one that comes in: each product passes its share on to the factor
and to the product before it. -/
def powerSlope (base : ℝ) : List ℝ → ℝ
  | [] => 0
  | [w] => base + w
  | w :: below => w + base * powerSlope base below

/-- **The slope of a recorded computation** in a coordinate. -/
noncomputable def slope (name : String) (i : Fin m) : Graph ℝ m → ℝ
  | number _ | fixed _ | leaf _ => 0
  | coordinate j _ => if j = i then 1 else 0
  | unary op v a => passUnary (.exact name) op 1 a.value v * slope name i a
  | binary op _ a b =>
    passFirst (.exact name) op 1 b.value * slope name i a +
      passSecond (.exact name) op 1 a.value b.value * slope name i b
  | power _ partials a => powerSlope a.value (partials.drop 1) * slope name i a

/-- What has been collected for a coordinate. -/
def Collected.at (acc : Collected ℝ m) (i : Fin m) : ℝ := acc.elim 0 (·.get i)

theorem factor_exact (g : Graph ℝ m) : g.factor (.exact name) = g.value := by
  cases g <;> rfl

theorem at_collect (acc : Collected ℝ m) (i j : Fin m) (share : ℝ) :
    (collect (.exact name) acc j share).at i = acc.at i + if j = i then share else 0 := by
  have halone : (Vector.ofFn fun k : Fin m => if k = j then share else 0).get i =
      if j = i then share else 0 := by
    rw [get_ofFn]
    exact if_congr eq_comm rfl rfl
  cases acc with
  | none => exact halone.trans (zero_add _).symm
  | some v =>
    change (Vector.zipWith (fun a b => a + b) v
      (Vector.ofFn fun k => if k = j then share else 0)).get i = v.get i + _
    rw [← halone]
    exact Vector.getElem_zipWith _

/-- What a one-place step passes back is a multiple of what comes in, -/
theorem passUnary_exact (op : UnaryOp) (g u v : ℝ) :
    passUnary (.exact name) op g u v = g * passUnary (.exact name) op 1 u v := by
  cases op <;> simp only [passUnary, Precision.exact, id] <;> ring

/-- and so is what a two-place step passes back. -/
theorem passFirst_exact (op : BinaryOp) (g v : ℝ) :
    passFirst (.exact name) op g v = g * passFirst (.exact name) op 1 v := by
  cases op <;> simp only [passFirst, Precision.exact, id] <;> ring

theorem passSecond_exact (op : BinaryOp) (g u v : ℝ) :
    passSecond (.exact name) op g u v = g * passSecond (.exact name) op 1 u v := by
  cases op <;> simp only [passSecond, Precision.exact, id] <;> ring

/-- **What a power passes back** is added to what was collected for its base. -/
theorem passPower_exact (name : String) (base g : ℝ) (below : List ℝ) (acc : Option ℝ) :
    (passPower (.exact name) base g below acc).getD 0 =
      acc.getD 0 + g * powerSlope base below := by
  have hadd (acc : Option ℝ) (share : ℝ) :
      (passPower.add (.exact name) acc share).getD 0 = acc.getD 0 + share := by
    cases acc with
    | none => exact (zero_add share).symm
    | some a => rfl
  induction below generalizing g acc with
  | nil => simp [passPower, powerSlope]
  | cons w below ih =>
    cases below with
    | nil =>
      simp only [passPower, hadd, powerSlope]
      simp only [Precision.exact, id]
      ring
    | cons w' below =>
      simp only [passPower, ih, hadd, powerSlope]
      simp only [Precision.exact, id]
      ring

/-- **A sweep adds the slope**, times what comes in, by induction over the recorded computation. -/
theorem sweep_collects (name : String) (a : Graph ℝ m) (g : ℝ) (acc : Collected ℝ m) (i : Fin m) :
    (a.sweep (.exact name) g acc).at i = acc.at i + g * a.slope name i := by
  induction a generalizing g acc with
  | number v => simp [sweep, slope]
  | fixed v => simp [sweep, slope]
  | leaf v => simp [sweep, slope]
  | coordinate j v =>
    simp only [sweep, at_collect, slope]
    split <;> simp
  | unary op v a ih =>
    simp only [sweep, slope, ih]
    rw [passUnary_exact]
    ring
  | binary op v a b iha ihb =>
    simp only [sweep, slope, iha, ihb, factor_exact]
    rw [passFirst_exact, passSecond_exact]
    ring
  | power v partials a ih =>
    have hpass := passPower_exact name a.value g (partials.drop 1) none
    simp only [sweep, slope]
    -- a power with no partial products passes nothing back, and its slope is zero
    cases hshare : passPower (.exact name) a.value g (partials.drop 1) none with
    | none =>
      rw [hshare] at hpass
      simp only [Option.getD_none, zero_add] at hpass
      simp only
      rw [← mul_assoc, ← hpass, zero_mul, add_zero]
    | some share =>
      rw [hshare] at hpass
      simp only [Option.getD_some, Option.getD_none, zero_add] at hpass
      simp only [ih]
      rw [hpass, mul_assoc]

/-! ### The gradient -/

section Idle

variable {α : Type} [Elementary α] {n : ℕ}

/-- **A sweep is idle** where nothing takes a gradient. -/
theorem sweep_idle (p : Precision α) {a : Graph α n} (h : a.takesGradient = false) (g : α)
    (acc : Collected α n) : a.sweep p g acc = acc := by
  induction a generalizing g acc with
  | number v => rfl
  | fixed v => rfl
  | leaf v => cases h
  | coordinate i v => cases h
  | unary op v a ih => exact ih h _ acc
  | binary op v a b iha ihb =>
    obtain ⟨ha, hb⟩ := Bool.or_eq_false_iff.1 h
    rw [sweep, ihb hb]
    exact iha ha _ acc
  | power v partials a ih =>
    rw [sweep]
    split
    · exact ih h _ acc
    · rfl

/-- **The gradient is swept**, whether anything takes it or not. -/
theorem gradient_eq_sweep (p : Precision α) (a : Graph α n) :
    a.gradient p = (a.sweep p 1 none).getD (Vector.ofFn fun _ => 0) := by
  unfold gradient
  cases htakes : a.takesGradient with
  | true => rfl
  | false =>
    rw [sweep_idle p htakes]
    rfl

end Idle

/-- **The gradient** of a recorded computation has its slopes. -/
theorem gradient_eq_slope (a : Graph ℝ m) (i : Fin m) :
    (a.gradient (.exact name)).get i = a.slope name i := by
  have hcollect := sweep_collects name a 1 none i
  have hnone : Collected.at (none : Collected ℝ m) i = 0 := rfl
  rw [hnone, zero_add, one_mul] at hcollect
  rw [gradient_eq_sweep]
  -- where nothing has been collected the gradient is filled with zeros
  cases hsweep : a.sweep (.exact name) 1 none with
  | none =>
    rw [hsweep] at hcollect
    exact (get_ofFn _ i).trans hcollect
  | some v =>
    rw [hsweep] at hcollect
    exact hcollect

/-! ### The rules for each step -/

/-- A negation has the negated value, and the negated slope. -/
theorem value_neg (a : Graph ℝ m) : (a.applyUnary (.exact name) .neg).value = -a.value := by
  cases a <;> rfl

theorem slope_neg (a : Graph ℝ m) (i : Fin m) :
    (a.applyUnary (.exact name) .neg).slope name i = -a.slope name i := by
  cases a with
  | number v => exact neg_zero.symm
  | _ => exact neg_one_mul _

theorem isNumber_applyUnary (op : UnaryOp) (a : Graph ℝ m) :
    (a.applyUnary (.exact name) op).isNumber = a.isNumber := by
  cases a <;> rfl

theorem eq_number {a : Graph ℝ m} (h : a.isNumber = true) : a = number a.value := by
  cases a with
  | number v => rfl
  | _ => cases h

theorem slope_of_isNumber {a : Graph ℝ m} (h : a.isNumber = true) (i : Fin m) :
    a.slope name i = 0 := by
  rw [eq_number h]
  rfl

theorem operand_exact (op : BinaryOp) (a : Graph ℝ m) :
    a.operand (.exact name) op = a.value := by
  cases op <;> cases a <;> rfl

/-- **The cases of a two-place step.** -/
theorem applyBinary_cases (name : String) (op : BinaryOp) (a b : Graph ℝ m) :
    (a.isNumber = true ∧ b.isNumber = true ∧
      a.applyBinary (.exact name) op b = number (op.apply a.value b.value)) ∨
    (op = .div ∧ a.isNumber = true ∧ b.isNumber = false ∧
      a.applyBinary (.exact name) op b =
        binary .mul (1 / b.value * a.value) (unary .reciprocal (1 / b.value) b) (number a.value)) ∨
    (¬(a.isNumber = true ∧ b.isNumber = true) ∧
      a.applyBinary (.exact name) op b = binary op (op.apply a.value b.value) a b) := by
  unfold applyBinary
  split
  case h_1 u v => exact .inl ⟨rfl, rfl, rfl⟩
  case h_2 u hnumber =>
    have hb : b.isNumber = false := by
      cases b with
      | number v => exact absurd rfl (hnumber v)
      | _ => rfl
    refine .inr (.inl ⟨rfl, rfl, hb, ?_⟩)
    cases b with
    | number v => cases hb
    | _ => rfl
  case h_3 hdiv hnumbers =>
    refine .inr (.inr ⟨?_, ?_⟩)
    · rintro ⟨ha, hb⟩
      exact hnumbers _ _ (eq_number ha) (eq_number hb)
    · rw [operand_exact, operand_exact]
      rfl

theorem isNumber_applyBinary (op : BinaryOp) (a b : Graph ℝ m) :
    (a.applyBinary (.exact name) op b).isNumber = (a.isNumber && b.isNumber) := by
  obtain ⟨ha, hb, heq⟩ | ⟨-, -, hb, heq⟩ | ⟨hnumbers, heq⟩ := applyBinary_cases name op a b
  · rw [heq, ha, hb]
    rfl
  · rw [heq, hb, Bool.and_false]
    rfl
  · rw [heq]
    simpa [isNumber] using hnumbers

/-- **The value** of a two-place step. -/
theorem value_applyBinary (op : BinaryOp) (a b : Graph ℝ m) :
    (a.applyBinary (.exact name) op b).value = op.apply a.value b.value := by
  obtain ⟨-, -, heq⟩ | ⟨hop, -, -, heq⟩ | ⟨-, heq⟩ := applyBinary_cases name op a b
  · rw [heq]
    rfl
  · rw [heq, hop]
    exact one_div_mul_eq_div _ _
  · rw [heq]
    rfl

end Graph

/-- The slope of a two-place step, given the values and the slopes of its operands. -/
noncomputable def BinaryOp.slope (op : BinaryOp) (u v du dv : ℝ) : ℝ :=
  match op with
  | .add => du + dv
  | .sub => du - dv
  | .mul => du * v + u * dv
  | .div => (du * v - u * dv) / (v * v)

namespace Graph

variable {m : ℕ} {name : String}

/-- **The slope of a two-place step**: the sum, product and quotient rules. -/
theorem slope_applyBinary (op : BinaryOp) (a b : Graph ℝ m) (i : Fin m)
    (hdiv : op = .div → b.value ≠ 0) :
    (a.applyBinary (.exact name) op b).slope name i =
      op.slope a.value b.value (a.slope name i) (b.slope name i) := by
  obtain ⟨ha, hb, heq⟩ | ⟨hop, ha, -, heq⟩ | ⟨-, heq⟩ := applyBinary_cases name op a b
  · rw [heq, slope_of_isNumber ha, slope_of_isNumber hb]
    cases op <;> simp [slope, BinaryOp.slope]
  · -- a number over something tracked is recorded as a product with the reciprocal
    have hb := hdiv hop
    rw [heq, hop, slope_of_isNumber ha]
    simp only [slope, passFirst, passSecond, passUnary, value, Precision.exact, id, BinaryOp.slope]
    field_simp
    ring
  · rw [heq]
    cases op with
    | add => simp only [slope, passFirst, passSecond, BinaryOp.slope]; ring
    | sub => simp only [slope, passFirst, passSecond, BinaryOp.slope]; ring
    | mul =>
      simp only [slope, passFirst, passSecond, BinaryOp.slope, Precision.exact, id]
      ring
    | div =>
      have hb := hdiv rfl
      simp only [slope, passFirst, passSecond, BinaryOp.slope, Precision.exact, id]
      field_simp
      ring

/-- The powers of a number, the highest first. -/
def powers (v : ℝ) : ℕ → List ℝ
  | 0 => []
  | k + 1 => v ^ (k + 1) :: powers v k

/-- What powers pass back: a power's slope is the exponent times the next lower power. -/
theorem powerSlope_powers (v : ℝ) (k : ℕ) :
    powerSlope v (powers v (k + 1)) = (k + 2) * v ^ (k + 1) := by
  induction k with
  | zero =>
    simp only [powers, powerSlope]
    norm_num
    ring
  | succ k ih =>
    have hstep : powerSlope v (powers v (k + 2)) =
        v ^ (k + 2) + v * powerSlope v (powers v (k + 1)) := rfl
    rw [hstep, ih]
    push_cast
    ring

end Graph

theorem powerOf_eq_pow (v : ℝ) (k : ℕ) : powerOf v (k + 1) = v ^ (k + 1) := by
  have hfold (b : ℝ) : (List.replicate k v).foldl (· * ·) b = b * v ^ k := by
    induction k generalizing b with
    | zero => simp
    | succ k ih => rw [List.replicate_succ, List.foldl_cons, ih, pow_succ', mul_assoc]
  rw [powerOf, Nat.add_sub_cancel, hfold, pow_succ']

namespace Graph

variable {m : ℕ} {name : String}

/-- The partial products of a power, as they are made one by one. -/
theorem foldl_powers {step : List ℝ → ℝ → List ℝ} (hfirst : ∀ v, step [] v = [v])
    (hnext : ∀ w rest v, step (w :: rest) v = w * v :: w :: rest) (v : ℝ) (k : ℕ) :
    (List.replicate k v).foldl step [] = powers v k := by
  induction k with
  | zero => rfl
  | succ k ih =>
    rw [List.replicate_succ', List.foldl_append, ih]
    cases k with
    | zero => simp [powers, hfirst]
    | succ k => simp [powers, hnext, pow_succ]

theorem applyPower_one {a : Graph ℝ m} (h : a.isNumber = false) :
    a.applyPower (.exact name) 1 = a := by
  cases a with
  | number v => cases h
  | _ => rfl

theorem applyPower_of_tracked {a : Graph ℝ m} (h : a.isNumber = false) (j : ℕ) :
    a.applyPower (.exact name) (j + 2) =
      power (a.value ^ (j + 2)) (powers a.value (j + 2)) a := by
  cases a with
  | number v => cases h
  | _ =>
    unfold applyPower
    simp only
    rw [foldl_powers (fun _ => rfl) fun _ _ _ => rfl]
    rfl

/-- **The cases of a power**: a number stays one, a first power is its base, and a higher power
comes with its partial products. -/
theorem applyPower_cases (name : String) (a : Graph ℝ m) (k : ℕ) :
    (a.isNumber = true ∧ a.applyPower (.exact name) (k + 1) = number (a.value ^ (k + 1))) ∨
    (a.isNumber = false ∧ k = 0 ∧ a.applyPower (.exact name) (k + 1) = a) ∨
    (a.isNumber = false ∧ ∃ j, k = j + 1 ∧ a.applyPower (.exact name) (k + 1) =
      power (a.value ^ (k + 1)) (powers a.value (k + 1)) a) := by
  cases hnumber : a.isNumber with
  | true =>
    rw [eq_number hnumber]
    exact .inl ⟨rfl, congrArg number (powerOf_eq_pow a.value k)⟩
  | false =>
    cases k with
    | zero => exact .inr (.inl ⟨rfl, rfl, applyPower_one hnumber⟩)
    | succ j => exact .inr (.inr ⟨rfl, j, rfl, applyPower_of_tracked hnumber j⟩)

theorem isNumber_applyPower (a : Graph ℝ m) (k : ℕ) :
    (a.applyPower (.exact name) (k + 1)).isNumber = a.isNumber := by
  obtain ⟨ha, heq⟩ | ⟨-, -, heq⟩ | ⟨ha, -, -, heq⟩ := applyPower_cases name a k
  · rw [heq, ha]
    rfl
  · rw [heq]
  · rw [heq, ha]
    rfl

/-- **The value** of a power. -/
theorem value_applyPower (a : Graph ℝ m) (k : ℕ) :
    (a.applyPower (.exact name) (k + 1)).value = a.value ^ (k + 1) := by
  obtain ⟨-, heq⟩ | ⟨-, hk, heq⟩ | ⟨-, -, -, heq⟩ := applyPower_cases name a k
  · rw [heq]
    rfl
  · rw [heq, hk, zero_add, pow_one]
  · rw [heq]
    rfl

/-- **The slope of a power**: the exponent times the next lower power, times the slope of the
base. -/
theorem slope_applyPower (a : Graph ℝ m) (k : ℕ) (i : Fin m) :
    (a.applyPower (.exact name) (k + 1)).slope name i =
      (k + 1) * a.value ^ k * a.slope name i := by
  obtain ⟨ha, heq⟩ | ⟨-, hk, heq⟩ | ⟨-, j, hj, heq⟩ := applyPower_cases name a k
  · rw [heq, slope_of_isNumber ha, mul_zero]
    rfl
  · rw [heq, hk]
    simp
  · rw [heq, hj]
    change powerSlope a.value (powers a.value (j + 1)) * a.slope name i = _
    rw [powerSlope_powers]
    push_cast
    ring

end Graph

end VariableMetric
