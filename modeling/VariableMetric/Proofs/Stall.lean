import VariableMetric.Algebra.Factors
import VariableMetric.Proofs.PlainSearch
import VariableMetric.Proofs.Shortening

/-!
# Searches that never end

A search on doubles ends when its step is no longer above the limit. It can come to a step that is
rounded back to itself first, and then goes on for ever unless a value decreases.

* `Ray.isSome_last`, `Ray.last_eq_none`: a search ends with its steps, or not at all.
* `Ray.Ends`, `Oracle.Ends`: a search ends whatever the values are, an iteration on an objective.
* `Ray.ends_iff`, `Oracle.ends_iff`: **they do if and only if the factor shortens a step of one unit
  above the limit.**
* `Ray.ends_of_safe`: factors and limits with which every search ends.
* `ends_iff_shortens`: when searches and iterations end, of every factor and limit in range.
-/

namespace VariableMetric

namespace Ray

section Trials

variable {α : Type} [Scalar α] {n : ℕ} {r : Ray α n}

/-- **A search does not end** while its step is above the limit and no value is accepted. -/
theorem last_eq_none {f : Vec α n → α} (habove : ∀ k, Scalar.lt r.minStep (r.scaleAt k) = true)
    (hf : ∀ x, r.accepts (f x) = false) (limit j : ℕ) {v : α} (hv : r.accepts v = false) :
    r.last f limit (r.trialAt j v) = none := by
  induction limit generalizing j v with
  | zero => exact last_zero f (unsettled_of_above hv (habove j))
  | succ limit ih =>
    rw [last_succ f limit (unsettled_of_above hv (habove j))]
    exact ih _ (hf _)

/-- Whatever it is answered, a search asks no further than to where its step is not above the limit.
-/
theorem keeps_shrink {limit j k : ℕ} {v : α} (hj : j ≤ k) (hk : k ≤ j + limit)
    (hlow : Scalar.lt r.minStep (r.scaleAt k) = false) :
    (r.shrink Descent.value limit (r.trialAt j v)).Keeps (fun _ => True) (· ≠ .searchUnfinished)
      fun t => t.isSome = true := by
  induction limit generalizing j v with
  | zero =>
    obtain rfl : k = j := by omega
    rw [shrink_of_settled r 0 (settled_of_low hlow)]
    rfl
  | succ limit ih =>
    cases hs : r.settled (r.trialAt j v) with
    | true =>
      rw [shrink_of_settled r _ hs]
      rfl
    | false =>
      have hne : k ≠ j := by
        rintro rfl
        rw [settled_of_low hlow] at hs
        cases hs
      rw [shrink_succ r limit hs]
      exact .ask trivial fun v' => ih (by omega) (by omega)

/-- **A search ends** at the latest where its step is not above the limit. -/
theorem isSome_last (f : Vec α n → α) {limit j k : ℕ} {v : α} (hj : j ≤ k) (hk : k ≤ j + limit)
    (hlow : Scalar.lt r.minStep (r.scaleAt k) = false) :
    (r.last f limit (r.trialAt j v)).isSome = true := by
  obtain ⟨c, hcomes, -⟩ := r.shrink_answered ⟨f, fun x => (f x, x)⟩ limit j v
  exact ((keeps_shrink hj hk hlow).comes hcomes).2

end Trials

end Ray

/-! ### Iterations -/

section Iterations

variable {α : Type} [Scalar α] {n : ℕ} {s : Settings α} {st : State α n}

/-- An iteration whose search came to no end fails. -/
theorem Finds.eq_unfinished {o : Oracle α n}
    {out : Course α n × Except Fault (State α n × Option Ending)} (h : Finds s o st none out) :
    out.2 = .error .searchUnfinished := by
  cases h
  rfl

/-- **A search that ends is all that an iteration waits for**; any answer takes it on. -/
abbrev Descent.Finishes {β : Type} (d : Descent α n β) : Prop :=
  d.Keeps (fun _ => True) (· ≠ .searchUnfinished) fun _ => True

/-- **An iteration** whose steps come down to the limit in time does not wait for ever. -/
theorem finishes_iterate [Solver α] {k : ℕ} (hk : k ≤ s.trialLimit)
    (hlow : ∀ d, Scalar.lt s.minStep ((st.ray s d).scaleAt k) = false) :
    (iterate s st).Finishes := by
  rw [iterate_eq]
  have hdirection : (searchDirection s st).Finishes := by
    rw [searchDirection_eq_solved]
    dsimp only
    cases (st.solved s).solution with
    | none =>
      split
      · exact .ask trivial fun _ h => nomatch h
      · exact fun h => nomatch h
    | some p =>
      split
      · exact .ask trivial fun _ => trivial
      · trivial
  refine hdirection.bind fun d _ => .ask trivial fun vg => ?_
  exact keeps_afterFull (fun _ _ => trivial)
    ((st.begun.ray s d).keeps_shrink (Nat.zero_le k) (by omega) (hlow d)) (by simp)
    (fun _ _ _ => trivial) fun _ _ _ _ _ _ => trivial

end Iterations

/-! ### Doubles -/

namespace Double

open Float.Model (UnpackedFloat)

theorem unpack_nan : Binary.nan.toModel.unpack = .notANumber := by rfl

/-- NaN is below nothing. -/
theorem nan_lt (x : Float) : Scalar.lt Binary.nan x = false := by
  rw [← Bool.not_eq_true, lt_iff_unpack, unpack_nan]
  intro h
  cases h

/-- The distance of NaN from anything is NaN. -/
theorem abs_nan_sub (x : Float) : Scalar.abs (Binary.nan - x) = Binary.nan := by
  have hsub : UnpackedFloat.sub .binary64 .notANumber x.toModel.unpack = .notANumber := by
    cases x.toModel.unpack <;> rfl
  have hnan : Binary.nan - x = Binary.nan := by
    change Float.ofModel (Float.Model.pack
      (UnpackedFloat.sub .binary64 Binary.nan.toModel.unpack x.toModel.unpack)) = Binary.nan
    rw [unpack_nan, hsub]
    decide +kernel
  rw [hnan]
  decide +kernel

end Double

/-- **A search ends**, whatever the values are, if it is given enough trials. -/
def Ray.Ends {n : ℕ} (r : Ray Float n) : Prop :=
  ∀ (f : Vec Float n → Float) (full : Option Float),
    ∃ least, ∀ limit ≥ least, (Id.run (r.search f full limit)).isSome = true

/-- **An iteration on an objective ends**, if its search is given enough trials. -/
def Oracle.Ends {n : ℕ} (o : Oracle Float n) (s : Settings Float) (st : State Float n) : Prop :=
  ∃ least, ∀ limit ≥ least, ∀ stop past,
    ((iterate { s with trialLimit := limit } st).hold (o.answer stop) past).2 ≠
      .error .searchUnfinished

section Ending

open Double

variable {n : ℕ}

/-- Every trial of a search that stalls is followed by another, if no value is accepted. -/
theorem Ray.search_unending {r : Ray Float n} (h : InRange r.factor r.minStep)
    (hstall : ¬ Shortens (units r.factor) (units r.minStep + 1)) {f : Vec Float n → Float}
    {full : Option Float} (hf : ∀ x, r.accepts (f x) = false)
    (hfull : ∀ v ∈ full, r.accepts v = false) (limit : ℕ) :
    Id.run (r.search f full limit) = none := by
  have hfirst : r.accepts (full.getD (f (r.trialPoint 0))) = false := by
    cases full with
    | none => exact hf _
    | some v => exact hfull v rfl
  rw [run_search, last_eq_none (r.above h hstall) hf limit 0 hfirst]
  rfl

/-- **A search ends** if and only if the factor shortens a step of one unit above the limit. -/
theorem Ray.ends_iff {r : Ray Float n} (h : InRange r.factor r.minStep) :
    r.Ends ↔ Shortens (units r.factor) (units r.minStep + 1) := by
  constructor
  · intro hends
    by_contra hstall
    obtain ⟨least, hleast⟩ := hends (fun _ => Binary.nan) none
    have hsome := hleast least le_rfl
    rw [search_unending h hstall (fun _ => nan_lt _) (by simp)] at hsome
    cases hsome
  · intro hshort f full
    obtain ⟨k, hlow⟩ := exists_low h hshort
    refine ⟨k, fun limit hlimit => ?_⟩
    rw [run_search, Option.isSome_map]
    exact isSome_last f (Nat.zero_le k) (by omega) hlow

/-- **Where every search ends**: the factor is below three quarters, or the limit is not below the
smallest double with all bits of the significand in use. -/
theorem Ray.ends_of_safe {r : Ray Float n} (h : InRange r.factor r.minStep)
    (hsafe : Scalar.lt r.factor 0.75 = true ∨
      Scalar.lt r.minStep (Float.ofBits 0x0010000000000000) = false) : r.Ends := by
  rw [ends_iff h]
  have hlimit : 0 < units r.minStep := by
    have hpos := (lt_iff_unpack _ _).1 h.limit_pos
    rw [unpack_zero] at hpos
    exact (HasUnits.lt_iff (.zero .positive) h.hasUnits_limit).1 hpos
  rcases hsafe with hfactor | hlimit'
  · have hunits : units 0.75 = 3 * (perOne / 4) := by decide +kernel
    have hper : 4 * (perOne / 4) = perOne := by decide +kernel
    have hlt := (h.hasUnits_factor.lt_iff
      (hasUnits (x := 0.75) (by decide +kernel) (by decide +kernel))).1
        ((lt_iff_unpack _ _).1 hfactor)
    rw [hunits] at hlt
    exact shortens_of_lt (by omega) (by omega)
  · have hunits : units (Float.ofBits 0x0010000000000000) = 2 ^ 52 := by decide +kernel
    rw [← Bool.not_eq_true, lt_iff_unpack, h.hasUnits_limit.lt_iff
      (hasUnits (by decide +kernel) (by decide +kernel)), hunits] at hlimit'
    by_contra hstall
    have hshort := le_of_not_shortens h.hasUnits_factor.fits h.units_lt hstall
    omega

/-- **An iteration ends** in the same cases: otherwise an objective that answers NaN everywhere
keeps its search going. -/
theorem Oracle.ends_iff {s : Settings Float} {st : State Float n} {d : Vec Float n}
    (h : InRange s.backtrack s.minStep) (hd : st.Leads s d) :
    (∀ o : Oracle Float n, o.Ends s st) ↔ Shortens (units s.backtrack) (units s.minStep + 1) := by
  constructor
  · intro hends
    by_contra hstall
    set o : Oracle Float n := ⟨fun _ => Binary.nan, fun x => (Binary.nan, x)⟩
    obtain ⟨least, hleast⟩ := hends o
    set s' : Settings Float := { s with trialLimit := least }
    have hr : InRange (st.ray s' d).factor (st.ray s' d).minStep := h
    have hplain : (st.ray s' d).plain o.value s'.trialLimit = none :=
      Ray.search_unending hr hstall (fun _ => nan_lt _) (by simp) least
    have hlarge : withinTolerance s' (Binary.nan - st.value) d = false := by
      rw [withinTolerance, abs_nan_sub, nan_lt, Bool.false_and]
    have hfinds := finds_shorter (s := s') (o := o) (fun _ => rfl) hd (nan_lt _) hlarge
      (fun _ => false) []
    rw [hplain] at hfinds
    exact hleast least le_rfl _ _ hfinds.eq_unfinished
  · intro hshort o
    have hr (d : Vec Float n) : InRange (st.ray s d).factor (st.ray s d).minStep := h
    obtain ⟨k, hlow⟩ := Ray.exists_low (hr d) hshort
    refine ⟨k, fun limit hlimit stop past hunfinished => ?_⟩
    have hfinishes : (iterate { s with trialLimit := limit } st).Finishes :=
      finishes_iterate hlimit fun _ => hlow
    exact hfinishes.hold hunfinished rfl

/-- **When searches on doubles end.** With a factor and a limit in range, a search ends whatever the
values are, and an iteration that has a direction on every objective, if and only if the factor
shortens a step of one unit above the limit. -/
theorem ends_iff_shortens {b μ : Float} (h : InRange b μ) :
    (∀ {n : ℕ} (r : Ray Float n), r.factor = b → r.minStep = μ →
      (r.Ends ↔ Shortens (units b) (units μ + 1))) ∧
    ∀ {n : ℕ} (s : Settings Float) (st : State Float n) (d : Vec Float n), s.backtrack = b →
      s.minStep = μ → st.Leads s d →
      ((∀ o : Oracle Float n, o.Ends s st) ↔ Shortens (units b) (units μ + 1)) := by
  constructor
  · rintro n r rfl rfl
    exact Ray.ends_iff h
  · rintro n s st d rfl rfl hd
    exact Oracle.ends_iff h hd

/-- With a factor of one half and a limit of `1e-12` every search ends. -/
theorem ends_iff_shortens_half :
    InRange 0.5 1e-12 ∧ ∀ {n : ℕ} (r : Ray Float n), r.factor = 0.5 → r.minStep = 1e-12 →
      r.Ends := by
  have h : InRange 0.5 1e-12 :=
    ⟨by decide +kernel, by decide +kernel, by decide +kernel, by decide +kernel⟩
  have hshort : Shortens (units 0.5) (units 1e-12 + 1) := by decide +kernel
  refine ⟨h, ?_⟩
  intro n r hb hμ
  exact ((ends_iff_shortens h).1 r hb hμ).2 hshort

/-- **A search that never ends.** Two units times three quarters are rounded back to two units, and
so the step stays above a limit of one unit. -/
theorem unending_three_quarters :
    InRange 0.75 (Float.ofBits 1) ∧ ∀ limit, Id.run
      ((⟨0, 0, 0, 0.75, Float.ofBits 1⟩ : Ray Float 1).search (fun _ => 1) none limit) = none := by
  have h : InRange 0.75 (Float.ofBits 1) :=
    ⟨by decide +kernel, by decide +kernel, by decide +kernel, by decide +kernel⟩
  have hstall : ¬ Shortens (units 0.75) (units (Float.ofBits 1) + 1) := by decide +kernel
  refine ⟨h, ?_⟩
  intro limit
  have hrejects : Scalar.lt (1 : Float) 0 = false := by decide +kernel
  exact Ray.search_unending (r := ⟨0, 0, 0, 0.75, Float.ofBits 1⟩) h hstall (fun _ => hrejects)
    (by simp) limit

end Ending

end VariableMetric
