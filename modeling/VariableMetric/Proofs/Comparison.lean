import Mathlib.Data.Prod.Lex
import VariableMetric.Scalar

/-!
# Comparisons

A run decides by comparisons, and a value that cannot be compared answers `false` to each of them.

* `Scalar.Ordered`: **what is assumed of the comparisons** where a proof speaks of decreases.
* `Scalar.Ordered.of_place`: it holds where the comparable values have places in a linear order.
* `Double.place`: the places of the doubles; all but NaN have one, and are comparable
  (`Double.le_self_iff`).
-/

namespace VariableMetric

namespace Scalar

/-- **What is assumed of comparisons**: those of the comparable values are those of an order. A
value is comparable when it is below or equal to itself. -/
class Ordered (α : Type) [Scalar α] : Prop where
  lt_iff {a b : α} : lt a b = true ↔ le a b = true ∧ le b a = false
  le_left {a b : α} : le a b = true → le a a = true
  le_trans {a b c : α} : le a b = true → le b c = true → le a c = true
  le_self_of_isFinite {a : α} : isFinite a = true → le a a = true
  zero_lt_one : lt (0 : α) 1 = true

section Laws

variable {α : Type} [Scalar α] [Ordered α] {a b c : α}

theorem le_of_lt (h : lt a b = true) : le a b = true := (Ordered.lt_iff.1 h).1

theorem le_self_of_lt (h : lt a b = true) : le a a = true := Ordered.le_left (le_of_lt h)

theorem lt_of_le_of_lt (h : le a b = true) (h' : lt b c = true) : lt a c = true := by
  obtain ⟨hbc, hcb⟩ := Ordered.lt_iff.1 h'
  refine Ordered.lt_iff.2 ⟨Ordered.le_trans h hbc, ?_⟩
  by_contra hca
  have hcb' : le c b = true := Ordered.le_trans (Bool.not_eq_false _ ▸ hca) h
  exact Bool.false_ne_true (hcb ▸ hcb')

theorem lt_trans (h : lt a b = true) (h' : lt b c = true) : lt a c = true :=
  lt_of_le_of_lt (le_of_lt h) h'

theorem lt_irrefl (a : α) : lt a a = false := by
  by_contra h
  obtain ⟨hle, hnle⟩ := Ordered.lt_iff.1 (Bool.not_eq_false _ ▸ h)
  exact Bool.false_ne_true (hnle ▸ hle)

end Laws

/-- **Places in a linear order.** The comparable values have one, and are compared by it. -/
theorem Ordered.of_place {α κ : Type} [Scalar α] [LinearOrder κ] (place : α → Option κ)
    (hle : ∀ a b : α, le a b = true ↔ ∃ p ∈ place a, ∃ q ∈ place b, p ≤ q)
    (hlt : ∀ a b : α, lt a b = true ↔ ∃ p ∈ place a, ∃ q ∈ place b, p < q)
    (hfin : ∀ a : α, isFinite a = true → (place a).isSome) (hone : lt (0 : α) 1 = true) :
    Ordered α where
  lt_iff {a b} := by
    rw [hlt, hle, ← Bool.not_eq_true, hle]
    constructor
    · rintro ⟨p, hp, q, hq, hpq⟩
      refine ⟨⟨p, hp, q, hq, hpq.le⟩, ?_⟩
      rintro ⟨q', hq', p', hp', hqp⟩
      cases Option.mem_unique hp hp'
      cases Option.mem_unique hq hq'
      exact absurd hqp hpq.not_ge
    · rintro ⟨⟨p, hp, q, hq, -⟩, hnot⟩
      exact ⟨p, hp, q, hq, lt_of_not_ge fun hqp => hnot ⟨q, hq, p, hp, hqp⟩⟩
  le_left {a b} h := by
    obtain ⟨p, hp, -⟩ := (hle a b).1 h
    exact (hle a a).2 ⟨p, hp, p, hp, le_rfl⟩
  le_trans {a b c} h h' := by
    obtain ⟨p, hp, q, hq, hpq⟩ := (hle a b).1 h
    obtain ⟨q', hq', t, ht, hqt⟩ := (hle b c).1 h'
    cases Option.mem_unique hq hq'
    exact (hle a c).2 ⟨p, hp, t, ht, hpq.trans hqt⟩
  le_self_of_isFinite {a} h := by
    obtain ⟨p, hp⟩ := Option.isSome_iff_exists.1 (hfin a h)
    exact (hle a a).2 ⟨p, hp, p, hp, le_rfl⟩
  zero_lt_one := hone

end Scalar

/-! ### Doubles -/

namespace Double

open Float.Model (UnpackedFloat)

/-- **The place of a double**, by its sign, its exponent and its significand. Zeros of both signs
have the same place, and NaN has none. -/
def place : UnpackedFloat → Option (ℤ ×ₗ ℤ ×ₗ ℤ)
  | .notANumber => none
  | .infinity .negative => some (toLex (-2, toLex (0, 0)))
  | .finite .negative m e _ => some (toLex (-1, toLex (-e, -m)))
  | .zero _ => some (toLex (0, toLex (0, 0)))
  | .finite .positive m e _ => some (toLex (1, toLex (e, m)))
  | .infinity .positive => some (toLex (2, toLex (0, 0)))

section Lexicographic

variable (i j : ℤ) (k l : ℕ)

theorem isLE_then :
    ((compare i j).then (compare k l)).isLE = true ↔ i < j ∨ i = j ∧ k ≤ l := by
  rcases lt_trichotomy i j with h | rfl | h
  · simp [compare_lt_iff_lt.2 h, h]
  · simp [Std.isLE_compare]
  · simp [compare_gt_iff_gt.2 h, h.ne', h.le]

theorem then_eq_lt : (compare i j).then (compare k l) = .lt ↔ i < j ∨ i = j ∧ k < l := by
  rcases lt_trichotomy i j with h | rfl | h
  · simp [compare_lt_iff_lt.2 h, h]
  · simp [compare_lt_iff_lt]
  · simp [compare_gt_iff_gt.2 h, h.ne', h.le]

theorem swap_then :
    ((compare i j).then (compare k l)).swap = (compare j i).then (compare l k) := by
  rw [Ordering.swap_then, ← Std.OrientedOrd.eq_swap, ← Std.OrientedOrd.eq_swap]

end Lexicographic

theorem le_iff_place (a b : UnpackedFloat) :
    a.le b = true ↔ ∃ p ∈ place a, ∃ q ∈ place b, p ≤ q := by
  -- signs decide, except between finite doubles of the same sign
  rcases a with (_ | _) | _ | _ | ⟨_ | _, m, e, hm⟩ <;>
    rcases b with (_ | _) | _ | _ | ⟨_ | _, m', e', hm'⟩ <;>
    dsimp only [UnpackedFloat.le, UnpackedFloat.compare, place] <;>
    simp [swap_then, isLE_then, Prod.Lex.toLex_le_toLex]
  case finite.negative.finite.negative => omega
  all_goals rfl

theorem lt_iff_place (a b : UnpackedFloat) :
    a.lt b = true ↔ ∃ p ∈ place a, ∃ q ∈ place b, p < q := by
  rcases a with (_ | _) | _ | _ | ⟨_ | _, m, e, hm⟩ <;>
    rcases b with (_ | _) | _ | _ | ⟨_ | _, m', e', hm'⟩ <;>
    dsimp only [UnpackedFloat.lt, UnpackedFloat.compare, place] <;>
    simp [swap_then, then_eq_lt, Prod.Lex.toLex_lt_toLex]
  case finite.negative.finite.negative => omega
  all_goals rfl

theorem isSome_place_iff (a : UnpackedFloat) : (place a).isSome ↔ a.isNaN = false := by
  rcases a with (_ | _) | _ | _ | ⟨_ | _, m, e, hm⟩ <;>
    dsimp only [place, UnpackedFloat.isNaN] <;>
    simp

theorem isSome_place {a : UnpackedFloat} (h : a.isFinite = true) : (place a).isSome := by
  rcases a with (_ | _) | _ | _ | ⟨_ | _, m, e, hm⟩ <;> first | rfl | cases h

/-- **A double is comparable** unless it is NaN. -/
theorem le_self_iff (a : Float) : Scalar.le a a = true ↔ a.isNaN = false := by
  have hle : Scalar.le a a = true ↔ a.toModel.unpack.le a.toModel.unpack = true :=
    decide_eq_true_iff
  have hplace : Scalar.le a a = true ↔ (place a.toModel.unpack).isSome := by
    rw [hle, le_iff_place]
    constructor
    · rintro ⟨p, hp, -⟩
      exact Option.isSome_of_mem hp
    · intro hsome
      obtain ⟨p, hp⟩ := Option.isSome_iff_exists.1 hsome
      exact ⟨p, hp, p, hp, le_rfl⟩
  rw [hplace, isSome_place_iff]
  rfl

/-- Between finite doubles one is at or below the other. -/
theorem le_of_not_lt {a b : Float} (ha : a.isFinite = true) (hb : b.isFinite = true)
    (h : Float.lt b a = false) : Float.le a b = true := by
  obtain ⟨p, hp⟩ := Option.isSome_iff_exists.1 (isSome_place (a := a.toModel.unpack) ha)
  obtain ⟨q, hq⟩ := Option.isSome_iff_exists.1 (isSome_place (a := b.toModel.unpack) hb)
  have hnot : ¬ q < p := fun hlt =>
    of_decide_eq_false h ((lt_iff_place _ _).2 ⟨q, hq, p, hp, hlt⟩)
  exact decide_eq_true ((le_iff_place _ _).2 ⟨p, hp, q, hq, not_lt.1 hnot⟩)

/-- A number equals itself. -/
theorem beq_self {a : UnpackedFloat} (h : a.isNaN = false) : a.beq a = true := by
  rcases a with (_ | _) | _ | _ | ⟨_ | _, m, e, hm⟩
  case notANumber => cases h
  case finite.negative | finite.positive =>
    dsimp only [UnpackedFloat.beq, UnpackedFloat.compare]
    rw [Std.ReflOrd.compare_self, Std.ReflOrd.compare_self]
    rfl
  all_goals rfl

end Double

/-- The comparisons of the doubles are those of an order, NaN apart. -/
instance : Scalar.Ordered Float :=
  .of_place (fun a => Double.place a.toModel.unpack)
    (fun a b => by
      rw [← Double.le_iff_place]
      exact decide_eq_true_iff)
    (fun a b => by
      rw [← Double.lt_iff_place]
      exact decide_eq_true_iff)
    (fun _ => Double.isSome_place) (by decide +kernel)

end VariableMetric
