import Mathlib
import VariableMetric.Algebra.Secant
import VariableMetric.Proofs.PlainSearch
import VariableMetric.Proofs.Units

/-!
# Values that are not finite

No value is tested for being finite once a run has started. What becomes of one is left to the
comparisons: NaN answers `false` to all of them, and each of the infinities to all but some.

* `Double.lt_finite_iff`, `Double.finite_lt_iff`: how such a value compares with a finite one.
* `Ray.value_of_last`: the value that a search comes to is that of the full step, or one it asked
  for.
* `nonfinite_decrease`: **minus infinity is the only one that a search takes for a decrease.**
* `nonfinite_curvature`: **plus infinity is the only one that a secant update divides by.**
-/

namespace VariableMetric

namespace Double

open Float.Model (UnpackedFloat)
open Float.Model.UnpackedFloat

/-- A double is known by what it is unpacked to. -/
theorem eq_infinite_iff {v : Float} {negative : Bool} :
    v = Binary.infinite negative ↔
      v.toModel.unpack = .infinity (if negative then .negative else .positive) := by
  have hinf : (Binary.infinite negative).toModel.unpack =
      .infinity (if negative then .negative else .positive) := by
    cases negative <;> rfl
  rw [← hinf]
  constructor
  · rintro rfl
    rfl
  · intro h
    exact Float.toBits_inj.1 (UInt64.toBitVec_inj.1
      ((unpack_inj_of_valid v.toModel.valid (Binary.infinite negative).toModel.valid).1 h))

/-- Each infinity is on its side of the finite numbers; NaN is on none. -/
theorem unpacked_compares {a b : UnpackedFloat} (ha : a.isFinite = false) (hb : b.isFinite = true) :
    (a.lt b = true ↔ a = .infinity .negative) ∧ (b.lt a = true ↔ a = .infinity .positive) := by
  rcases b with _ | _ | _ | _
  · cases hb
  · cases hb
  all_goals
    rcases a with (_ | _) | _ | _ | _
    · exact ⟨iff_of_true rfl rfl, iff_of_false nofun nofun⟩
    · exact ⟨iff_of_false nofun nofun, iff_of_true rfl rfl⟩
    · exact ⟨iff_of_false nofun nofun, iff_of_false nofun nofun⟩
    · cases ha
    · cases ha

section Comparison

variable {v w : Float} (hv : Scalar.isFinite v = false) (hw : Scalar.isFinite w = true)
include hv hw

/-- **Minus infinity alone is below a finite number**, of the values that are not finite. -/
theorem lt_finite_iff : Scalar.lt v w = true ↔ v = Binary.infinite true := by
  rw [lt_iff_unpack, eq_infinite_iff]
  exact (unpacked_compares hv hw).1

/-- **Plus infinity alone is above one.** -/
theorem finite_lt_iff : Scalar.lt w v = true ↔ v = Binary.infinite false := by
  rw [lt_iff_unpack, eq_infinite_iff]
  exact (unpacked_compares hv hw).2

end Comparison

end Double

/-! ### Decreases -/

namespace Ray

section Values

variable {α : Type} [Scalar α] {n : ℕ} {r : Ray α n} {f : Vec α n → α}

/-- **The last trial of a search** is the one it began with, or has a value that was asked for. -/
theorem value_of_last {limit k : ℕ} {v : α} {t : Trial α n}
    (h : r.last f limit (r.trialAt k v) = some t) : t = r.trialAt k v ∨ t.value = f t.point := by
  induction limit generalizing k v with
  | zero =>
    cases hs : r.settled (r.trialAt k v) with
    | true =>
      rw [last_of_settled f 0 hs] at h
      exact .inl (Option.some.inj h).symm
    | false =>
      rw [last_zero f hs] at h
      cases h
  | succ limit ih =>
    cases hs : r.settled (r.trialAt k v) with
    | true =>
      rw [last_of_settled f _ hs] at h
      exact .inl (Option.some.inj h).symm
    | false =>
      rw [last_succ f limit hs] at h
      rcases ih h with rfl | ht
      · exact .inr rfl
      · exact .inr ht

variable [Scalar.Ordered α]

/-- A step that was accepted has a value that is a decrease. -/
theorem accepts_of_success {asked : ℕ} {t : Trial α n} (h : (r.conclude asked t).success = true) :
    r.accepts t.value = true := by
  by_contra hrejects
  have hstep : (r.conclude asked t).step = 0 := if_neg hrejects
  rw [Searched.success, hstep, Scalar.lt_irrefl] at h
  cases h

/-- **What a search has found**, where it was successful: a decrease, and the value of the full step
that was known or one that was asked for. -/
theorem search_success {full : Option α} {limit : ℕ} {found : Searched α n}
    (h : Id.run (r.search f full limit) = some found) (hs : found.success = true) :
    r.accepts found.value = true ∧ (full = some found.value ∨ found.value = f found.x) := by
  rw [run_search] at h
  obtain ⟨t, ht, rfl⟩ := Option.map_eq_some_iff.1 h
  refine ⟨accepts_of_success hs, ?_⟩
  rcases value_of_last ht with rfl | hvalue
  · cases full with
    | some v => exact .inl rfl
    | none => exact .inr rfl
  · exact .inr hvalue

end Values

end Ray

/-- **What becomes of a trial value that is not finite**, where the value at the start is. Minus
infinity is taken for a decrease, and no other. A search that is successful comes to a finite value,
or to minus infinity where that is the value of the full step that was known or one that was asked
for. Any other value that is not finite is followed by the next trial as long as the step is above
the limit. -/
theorem nonfinite_decrease {n : ℕ} {r : Ray Float n} (hvalue : Scalar.isFinite r.value = true) :
    (∀ v, Scalar.isFinite v = false → (r.accepts v = true ↔ v = Binary.infinite true)) ∧
    (∀ f full limit found, Id.run (r.search f full limit) = some found → found.success = true →
      Scalar.isFinite found.value = true ∨
        found.value = Binary.infinite true ∧
          (full = some found.value ∨ found.value = f found.x)) ∧
    ∀ f limit k v, Scalar.isFinite v = false → v ≠ Binary.infinite true →
      Scalar.lt r.minStep (r.scaleAt k) = true →
      r.last f (limit + 1) (r.trialAt k v) =
        r.last f limit (r.trialAt (k + 1) (f (r.trialPoint (k + 1)))) := by
  have haccepts (v : Float) (hv : Scalar.isFinite v = false) :
      r.accepts v = true ↔ v = Binary.infinite true := Double.lt_finite_iff hv hvalue
  refine ⟨haccepts, ?_, ?_⟩
  · intro f full limit found h hs
    obtain ⟨hacc, hfrom⟩ := Ray.search_success h hs
    cases hfinite : Scalar.isFinite found.value with
    | true => exact .inl rfl
    | false => exact .inr ⟨(haccepts _ hfinite).1 hacc, hfrom⟩
  · intro f limit k v hv hne habove
    have hrejects : r.accepts v = false :=
      Bool.eq_false_iff.2 fun hacc => hne ((haccepts v hv).1 hacc)
    exact Ray.last_succ f limit (Ray.unsettled_of_above hrejects habove)

/-- A full step to NaN is followed by the next trial. -/
theorem nonfinite_decrease_nan :
    let r : Ray Float 1 := ⟨0, 0, 0, 0.5, 1e-12⟩
    Scalar.isFinite r.value = true ∧ Scalar.lt r.minStep (r.scaleAt 0) = true ∧
      ∀ f limit, r.last f (limit + 1) (r.trialAt 0 Binary.nan) =
        r.last f limit (r.trialAt 1 (f (r.trialPoint 1))) := by
  intro r
  have hvalue : Scalar.isFinite r.value = true := by decide +kernel
  have habove : Scalar.lt r.minStep (r.scaleAt 0) = true := by decide +kernel
  have hnan : Scalar.isFinite Binary.nan = false := by decide +kernel
  have hne : Binary.nan ≠ Binary.infinite true := by decide +kernel
  refine ⟨hvalue, habove, ?_⟩
  intro f limit
  exact (nonfinite_decrease hvalue).2.2 f limit 0 Binary.nan hnan hne habove

/-- **A search that takes minus infinity for a decrease.** -/
theorem infinite_decrease :
    let r : Ray Float 1 := ⟨0, 0, 0, 0.5, 1e-12⟩
    Scalar.isFinite r.value = true ∧ ∃ found,
      Id.run (r.search (fun _ => 1) (some (Binary.infinite true)) 0) = some found ∧
        found.success = true ∧ Scalar.isFinite found.value = false := by
  intro r
  have hsettled : r.settled (r.trialAt 0 (Binary.infinite true)) = true := by decide +kernel
  refine ⟨by decide +kernel, r.conclude 0 (r.trialAt 0 (Binary.infinite true)), ?_, ?_, ?_⟩
  · rw [Ray.run_search]
    exact congrArg (Option.map _) (Ray.last_of_settled _ 0 hsettled)
  · decide +kernel
  · decide +kernel

/-! ### Curvature -/

/-- What a secant update divides by. -/
def Curvature.denominators {α : Type} {n : ℕ} (c : Curvature α n) : List α := [c.along, c.model]

/-- An update is made where both of its denominators are above the threshold. -/
theorem applied_iff_denominators {α : Type} [Scalar α] {n : ℕ} {h : Mat α n n} {dx y : Vec α n}
    {tol : α} : (secantUpdate h dx y tol).applied = true ↔
      ∀ d ∈ (secantUpdate h dx y tol).curvature.denominators, Scalar.lt tol d = true := by
  unfold secantUpdate Curvature.usable Curvature.denominators
  dsimp only
  split
  · rename_i huse
    rw [Bool.and_eq_true] at huse
    simpa using huse
  · rename_i hnot
    rw [Bool.and_eq_true] at hnot
    simpa using hnot

/-- **What becomes of a denominator that is not finite**, with a finite threshold that is not
negative. The matrix is left as it was where a denominator is NaN or minus infinity. It is updated
just where each of them is finite and above the threshold, or plus infinity, and so they are
positive. -/
theorem nonfinite_curvature {n : ℕ} {h : Mat Float n n} {dx y : Vec Float n} {tol : Float}
    (hfinite : Scalar.isFinite tol = true) (hnonneg : Scalar.le 0 tol = true) :
    let u := secantUpdate h dx y tol
    (u.applied = false → u.matrix = h) ∧
    ((∃ d ∈ u.curvature.denominators, Scalar.isFinite d = false ∧ d ≠ Binary.infinite false) →
      u.applied = false) ∧
    (u.applied = true ↔ ∀ d ∈ u.curvature.denominators,
      Scalar.isFinite d = true ∧ Scalar.lt tol d = true ∨ d = Binary.infinite false) ∧
    (u.applied = true → ∀ d ∈ u.curvature.denominators, Scalar.lt 0 d = true) := by
  intro u
  have happlied : u.applied = true ↔ ∀ d ∈ u.curvature.denominators, Scalar.lt tol d = true :=
    applied_iff_denominators
  have habove (d : Float) : Scalar.lt tol d = true ↔
      Scalar.isFinite d = true ∧ Scalar.lt tol d = true ∨ d = Binary.infinite false := by
    cases hd : Scalar.isFinite d with
    | true =>
      have hne : d ≠ Binary.infinite false := by
        rintro rfl
        exact absurd hd (by decide +kernel)
      simp [hne]
    | false => simp [Double.finite_lt_iff hd hfinite]
  refine ⟨?_, ?_, ?_, ?_⟩
  · intro hskipped
    simp only [u, secantUpdate] at hskipped ⊢
    split at hskipped
    · cases hskipped
    · rename_i hnot
      rw [if_neg hnot]
  · rintro ⟨d, hmem, hd, hne⟩
    by_contra happ
    have hlt := happlied.1 (Bool.not_eq_false _ ▸ happ) d hmem
    exact hne ((Double.finite_lt_iff hd hfinite).1 hlt)
  · rw [happlied]
    exact forall₂_congr fun d _ => habove d
  · intro happ d hmem
    exact Scalar.lt_of_le_of_lt hnonneg (happlied.1 happ d hmem)

/-- An update along a step whose curvature is NaN is left out. -/
theorem nonfinite_curvature_nan :
    let u := secantUpdate (Mat.identity 1) #v[1] #v[Binary.nan] (1e-12 : Float)
    Scalar.isFinite (1e-12 : Float) = true ∧ Scalar.le 0 (1e-12 : Float) = true ∧
      u.applied = false ∧ u.matrix = Mat.identity 1 := by
  intro u
  have hfinite : Scalar.isFinite (1e-12 : Float) = true := by decide +kernel
  have hnonneg : Scalar.le 0 (1e-12 : Float) = true := by decide +kernel
  obtain ⟨hmatrix, hskips, -⟩ :=
    @nonfinite_curvature 1 (Mat.identity 1) #v[1] #v[Binary.nan] 1e-12 hfinite hnonneg
  have hskipped : u.applied = false :=
    hskips ⟨u.curvature.along, .head _, by decide +kernel, by decide +kernel⟩
  exact ⟨hfinite, hnonneg, hskipped, hmatrix hskipped⟩

/-- **An update that divides by plus infinity** puts NaN into the matrix. -/
theorem infinite_curvature :
    let u := secantUpdate (Mat.identity 1) #v[1] #v[Binary.infinite false] (1e-12 : Float)
    Scalar.isFinite (1e-12 : Float) = true ∧ Scalar.le 0 (1e-12 : Float) = true ∧
      Scalar.isFinite u.curvature.along = false ∧ u.applied = true ∧
      (u.matrix.entry 0 0).isNaN = true := by
  decide +kernel

end VariableMetric
