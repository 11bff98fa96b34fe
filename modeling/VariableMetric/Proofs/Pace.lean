import VariableMetric.Proofs.Direction
import VariableMetric.Proofs.PlainSearch

/-!
# Runs in exact arithmetic

Over the reals, on a deterministic objective whose two modes agree, an iteration is settled by the
values along its direction.

* `Ray.exists_last`: a search comes to the first trial that settles it.
* `Settings.Ample`: the limit on the trials of a search is large enough.
* `Pace`: **what an iteration does**: it takes the first step that is a decrease, or rests where it
  is stationary, or gives up.
* `Pace.takes`: the first step that is a decrease is taken.
* `hold_paces`: every iteration that has a direction does one of these.
* `Oracle.exists_run_paced`: **invariants of runs**. If there is always a direction a run returns,
  with what its last pace leaves.
-/

namespace VariableMetric

open Course

namespace Ray

section Trials

variable {α : Type} [Scalar α] {n : ℕ}

/-- Trial `k` of a search on the values of a function. -/
def trialOn (r : Ray α n) (f : Vec α n → α) (k : ℕ) : Trial α n := r.trialAt k (f (r.trialPoint k))

/-- **The first trial that settles a search** on the values of a function is its last. -/
theorem exists_last (r : Ray α n) (f : Vec α n → α) {limit j : ℕ}
    (h : ∃ k ≤ limit, r.settled (r.trialOn f (j + k)) = true) :
    ∃ k, r.last f limit (r.trialOn f j) = some (r.trialOn f (j + k)) ∧
      r.settled (r.trialOn f (j + k)) = true ∧
      ∀ i < k, r.settled (r.trialOn f (j + i)) = false := by
  induction limit generalizing j with
  | zero =>
    obtain ⟨k, hk, hs⟩ := h
    obtain rfl : k = 0 := by omega
    exact ⟨0, last_of_settled f 0 hs, hs, fun i hi => absurd hi (Nat.not_lt_zero i)⟩
  | succ limit ih =>
    cases hs : r.settled (r.trialOn f j) with
    | true => exact ⟨0, last_of_settled f _ hs, hs, fun i hi => absurd hi (Nat.not_lt_zero i)⟩
    | false =>
      obtain ⟨k, hk, hk'⟩ := h
      have hpos : k ≠ 0 := by
        rintro rfl
        rw [Nat.add_zero, hs] at hk'
        cases hk'
      -- the rest of the search begins at the next trial
      have hnext : ∃ k ≤ limit, r.settled (r.trialOn f (j + 1 + k)) = true := by
        refine ⟨k - 1, by omega, ?_⟩
        rw [show j + 1 + (k - 1) = j + k by omega]
        exact hk'
      obtain ⟨l, hlast, hset, hfirst⟩ := ih hnext
      refine ⟨l + 1, ?_, ?_, ?_⟩
      · rw [show j + (l + 1) = j + 1 + l by omega, ← hlast]
        exact last_succ f limit hs
      · rw [show j + (l + 1) = j + 1 + l by omega]
        exact hset
      · intro i hi
        cases i with
        | zero => exact hs
        | succ i =>
          rw [show j + (i + 1) = j + 1 + i by omega]
          exact hfirst i (by omega)

end Trials

variable {n : ℕ} (r : Ray ℝ n)

theorem scaleAt_real (k : ℕ) : r.scaleAt k = r.factor ^ k := by
  induction k with
  | zero => rfl
  | succ k ih => rw [scaleAt_succ, ih, pow_succ]

/-- Over the reals the full step is scaled by one. -/
theorem trialPoint_real (k : ℕ) : r.trialPoint k = r.origin + r.factor ^ k * r.direction := by
  unfold trialPoint
  split
  · rename_i hk
    refine vec_ext fun i => ?_
    rw [hk, get_add, get_add, get_smul, pow_zero, one_mul]
  · rw [pointAt, scaleAt_real]

theorem settled_real (f : Vec ℝ n → ℝ) (k : ℕ) :
    r.settled (r.trialOn f k) = true ↔
      f (r.trialPoint k) < r.value ∨ r.factor ^ k ≤ r.minStep := by
  have hscale : (r.trialOn f k).scale = r.factor ^ k := r.scaleAt_real k
  rw [settled, hscale, Bool.or_eq_true_iff, Bool.not_eq_true', accepts]
  simp [trialOn, trialAt]

/-- **A search over the reals** comes to the first step that is a decrease, or else to the first
that is not above the limit, whether the value of the full step is known or not. -/
theorem exists_search (f : Vec ℝ n → ℝ) {full : Option ℝ}
    (hfull : ∀ v, full = some v → v = f (r.trialPoint 0)) {limit : ℕ}
    (h : ∃ k ≤ limit, r.factor ^ k ≤ r.minStep) :
    ∃ k, Id.run (r.search f full limit) =
        some (r.conclude (if full.isSome then 0 else 1) (r.trialOn f k)) ∧
      (f (r.trialPoint k) < r.value ∨ r.factor ^ k ≤ r.minStep) ∧
      ∀ i < k, r.value ≤ f (r.trialPoint i) ∧ r.minStep < r.factor ^ i := by
  obtain ⟨K, hK, hlow⟩ := h
  have hsettled : ∃ k ≤ limit, r.settled (r.trialOn f (0 + k)) = true := by
    refine ⟨K, hK, ?_⟩
    rw [Nat.zero_add, settled_real]
    exact .inr hlow
  obtain ⟨k, hlast, hset, hfirst⟩ := r.exists_last f hsettled
  simp only [Nat.zero_add] at hlast hset hfirst
  have hvalue : full.getD (f (r.trialPoint 0)) = f (r.trialPoint 0) := by
    cases full with
    | none => rfl
    | some v => exact hfull v rfl
  refine ⟨k, ?_, (r.settled_real f k).1 hset, ?_⟩
  · rw [run_search, hvalue]
    exact congrArg (Option.map _) hlast
  · intro i hi
    have hnot := mt (r.settled_real f i).2 (Bool.eq_false_iff.1 (hfirst i hi))
    rw [not_or, not_lt, not_le] at hnot
    exact hnot

/-- The same of a plain search. -/
theorem exists_plain (f : Vec ℝ n → ℝ) {limit : ℕ} (h : ∃ k ≤ limit, r.factor ^ k ≤ r.minStep) :
    ∃ k, r.plain f limit = some (r.conclude 1 (r.trialOn f k)) ∧
      (f (r.trialPoint k) < r.value ∨ r.factor ^ k ≤ r.minStep) ∧
      ∀ i < k, r.value ≤ f (r.trialPoint i) ∧ r.minStep < r.factor ^ i :=
  r.exists_search f (fun v (hv : none = some v) => nomatch hv) h

/-- The step that a search comes to: none, unless the trial is a decrease. -/
theorem step_real (asked : ℕ) (f : Vec ℝ n → ℝ) (k : ℕ) :
    (r.conclude asked (r.trialOn f k)).step =
      if f (r.trialPoint k) < r.value then r.factor ^ k else 0 := by
  have hstep : (r.conclude asked (r.trialOn f k)).step =
      if decide (f (r.trialPoint k) < r.value) = true then r.scaleAt k else 0 := rfl
  rw [hstep, scaleAt_real]
  simp only [decide_eq_true_eq]

/-- A trial is accepted when it is a decrease, if its step is positive. -/
theorem success_real (hpos : 0 < r.factor) (asked : ℕ) (f : Vec ℝ n → ℝ) (k : ℕ) :
    (r.conclude asked (r.trialOn f k)).success = decide (f (r.trialPoint k) < r.value) := by
  rw [Searched.success, step_real, real_lt]
  by_cases hlt : f (r.trialPoint k) < r.value
  · rw [if_pos hlt, decide_eq_true hlt]
    exact decide_eq_true (pow_pos hpos k)
  · rw [if_neg hlt, decide_eq_false hlt]
    exact decide_eq_false (lt_irrefl 0)

end Ray

/-- **No search is cut short**: its steps come down to their limit before the limit on its trials is
met. -/
def Settings.Ample (s : Settings ℝ) : Prop := ∃ k ≤ s.trialLimit, s.backtrack ^ k ≤ s.minStep

/-- The powers of a factor below one come down to every limit above zero. -/
theorem exists_isLeast_pow {β μ : ℝ} (hlt : β < 1) (hμ : 0 < μ) :
    ∃ K, IsLeast {k | β ^ k ≤ μ} K := by
  classical
  obtain ⟨k, hk⟩ := exists_pow_lt_of_lt_one hμ hlt
  have hsome : ∃ k, β ^ k ≤ μ := ⟨k, hk.le⟩
  exact ⟨Nat.find hsome, Nat.find_spec hsome, fun k hk => Nat.find_min' hsome hk⟩

/-- With a factor below one this is so whenever the limit on trials is large enough. -/
theorem exists_ample {s : Settings ℝ} (hlt : s.backtrack < 1) (hmin : 0 < s.minStep) :
    ∃ k, ∀ limit ≥ k, Settings.Ample { s with trialLimit := limit } := by
  obtain ⟨k, hk⟩ := exists_isLeast_pow hlt hmin
  exact ⟨k, fun limit hlimit => ⟨k, hlimit, hk.1⟩⟩

variable {n : ℕ} {s : Settings ℝ} {o : Oracle ℝ n} {st st' : State ℝ n} {e : Option Ending}

/-- The point at the step of trial `k` along `d`. -/
def State.stepTo (s : Settings ℝ) (st : State ℝ n) (d : Vec ℝ n) (k : ℕ) : Vec ℝ n :=
  st.x + s.backtrack ^ k * d

/-- **What an iteration does** from state `st` along `d`: the state that it leads to, and the ending
if it is the last. -/
inductive Pace (s : Settings ℝ) (o : Oracle ℝ n) (st : State ℝ n) (d : Vec ℝ n) :
    State ℝ n → Option Ending → Prop
  /-- It takes the first step that is a decrease. -/
  | moves {k values gradients : ℕ} {x : Vec ℝ n} {st' : State ℝ n} {e : Option Ending}
      (hx : x = st.stepTo s d k) (hlt : o.value x < st.value)
      (hfirst : ∀ i < k, st.value ≤ o.value (st.stepTo s d i) ∧ s.minStep < s.backtrack ^ i)
      (hst : st' = (st.begun.counted values gradients).moved s x (o.value x) (o.jet x).2)
      (he : e = movedEnding s st x (o.value x)) : Pace s o st d st' e
  /-- It is stationary. -/
  | rests {st' : State ℝ n} {e : Option Ending}
      (hle : st.value ≤ o.value (st.x + d))
      (hsmall : withinTolerance s (o.value (st.x + d) - st.value) d = true)
      (hst : st' = st.begun.counted 0 1) (he : e = some .converged) : Pace s o st d st' e
  /-- No step down to the limit is a decrease. -/
  | ends {k values : ℕ} {st' : State ℝ n} {e : Option Ending}
      (hlarge : withinTolerance s (o.value (st.x + d) - st.value) d = false)
      (hnone : ∀ i ≤ k, st.value ≤ o.value (st.stepTo s d i)) (hlimit : s.backtrack ^ k ≤ s.minStep)
      (hst : st' = st.begun.counted values 1) (he : e = some .stepUnderflow) : Pace s o st d st' e

/-- **The first step that is a decrease is taken**, unless the iteration is stationary. -/
theorem Pace.takes {d : Vec ℝ n} {j : ℕ} (h : Pace s o st d st' e)
    (hlt : o.value (st.stepTo s d j) < st.value)
    (hbefore : ∀ i < j, st.value ≤ o.value (st.stepTo s d i) ∧ s.minStep < s.backtrack ^ i) :
    st.value ≤ o.value (st.x + d) ∧ e = some .converged ∨
      ∃ values gradients, st' = (st.begun.counted values gradients).moved s (st.stepTo s d j)
          (o.value (st.stepTo s d j)) (o.jet (st.stepTo s d j)).2 ∧
        e = movedEnding s st (st.stepTo s d j) (o.value (st.stepTo s d j)) := by
  cases h with
  | @moves k values gradients x st' e hx hdec hfirst hst he =>
    obtain rfl : k = j := by
      rcases lt_trichotomy k j with hk | hk | hk
      · exact absurd (hbefore k hk).1 (not_le.2 (hx ▸ hdec))
      · exact hk
      · exact absurd (hfirst j hk).1 (not_le.2 hlt)
    exact .inr ⟨values, gradients, hx ▸ hst, hx ▸ he⟩
  | rests hle hsmall hst he => exact .inl ⟨hle, he⟩
  | @ends k values st' e hlarge hnone hlimit hst he =>
    -- the search has come past the step
    have hk : j ≤ k := not_lt.1 fun hk => absurd (hbefore k hk).2 (not_lt.2 hlimit)
    exact absurd (hnone j hk) (not_le.2 hlt)

section Iterations

variable [Solver ℝ] {d : Vec ℝ n}

/-- An iteration that is not stationary moves or ends. -/
theorem hold_searches (ho : ∀ x, (o.jet x).1 = o.value x) (hpos : 0 < s.backtrack)
    (hample : s.Ample) (hd : st.Leads s d)
    (hmove : st.value ≤ o.value (st.x + d) →
      withinTolerance s (o.value (st.x + d) - st.value) d = false)
    (stop : ℕ → Bool) (past : Course ℝ n) :
    ∃ c st' e, (iterate s st).hold (o.answer stop) past = (c, .ok (st', e)) ∧
      Pace s o st d st' e := by
  set r := st.ray s d with hr
  have hpoint (k : ℕ) : r.trialPoint k = st.stepTo s d k := r.trialPoint_real k
  obtain ⟨k, hplain, hlast, hfirst⟩ := r.exists_plain o.value hample
  have hsuccess := r.success_real hpos 1 o.value k
  simp only [hpoint] at hlast hfirst hsuccess
  have hfinds :=
    iterate_finds ho hd (fun hlt => hmove (not_lt.1 (of_decide_eq_false hlt))) stop past
  rw [← hr, hplain] at hfinds
  rcases hout : (iterate s st).hold (o.answer stop) past with ⟨c, out⟩
  rw [hout] at hfinds
  cases hfinds with
  | accepted hstep hst hrec =>
    have hlt : o.value (st.stepTo s d k) < st.value :=
      of_decide_eq_true (hsuccess.symm.trans hstep)
    exact ⟨c, _, _, rfl, .moves (hpoint k) (hpoint k ▸ hlt) hfirst hst rfl⟩
  | rejected hstep hst hrec =>
    have hle : st.value ≤ o.value (st.stepTo s d k) :=
      not_lt.1 (of_decide_eq_false (hsuccess.symm.trans hstep))
    have hnone : ∀ i ≤ k, st.value ≤ o.value (st.stepTo s d i) := by
      intro i hi
      rcases Nat.lt_or_eq_of_le hi with hi | rfl
      · exact (hfirst i hi).1
      · exact hle
    have hlow : s.backtrack ^ k ≤ s.minStep := hlast.resolve_left (not_lt.2 hle)
    have hzero : st.stepTo s d 0 = st.x + d := (hpoint 0).symm.trans rfl
    exact ⟨c, _, _, rfl, .ends (hmove (hzero ▸ hnone 0 (Nat.zero_le k))) hnone hlow hst rfl⟩

/-- **Every iteration** that has a direction does one of these, if no search is cut short. -/
theorem hold_paces (ho : ∀ x, (o.jet x).1 = o.value x) (hpos : 0 < s.backtrack)
    (hample : s.Ample) (hd : st.Leads s d)
    (stop : ℕ → Bool) (past : Course ℝ n) :
    ∃ c st' e, (iterate s st).hold (o.answer stop) past = (c, .ok (st', e)) ∧
      Pace s o st d st' e := by
  by_cases hrest : st.value ≤ o.value (st.x + d) ∧
      withinTolerance s (o.value (st.x + d) - st.value) d = true
  · obtain ⟨hle, hsmall⟩ := hrest
    have hlt : Scalar.lt (o.jet (st.x + d)).1 st.value = false := by
      rw [ho]
      exact decide_eq_false (not_lt.2 hle)
    obtain ⟨c, hc⟩ := iterate_rests (o := o) hd hlt (by rw [ho]; exact hsmall) stop past
    exact ⟨c, _, _, hc, .rests hle hsmall rfl rfl⟩
  · refine hold_searches ho hpos hample hd (fun hle => ?_) stop past
    exact Bool.eq_false_iff.2 fun hsmall => hrest ⟨hle, hsmall⟩

end Iterations

section Runs

variable [Solver ℝ] {x0 : Vec ℝ n} (ho : ∀ x, (o.jet x).1 = o.value x) (hpos : 0 < s.backtrack)
  (hample : s.Ample)
include ho hpos hample

namespace Oracle

/-- **A run that always has a direction returns**, if every pace from where `P` holds leaves `P`, or
`Q` with the ending. `Q` holds where it ends, at the limit too. -/
theorem exists_run_paced {P : State ℝ n → Prop} {Q : State ℝ n → Ending → Prop}
    (hstart : P (.start s x0 (o.jet x0).1 (o.jet x0).2))
    (hleads : ∀ st, P st → st.nit < s.maxiter → ∃ d, st.Leads s d)
    (hnext : ∀ st d st' e, P st → st.nit < s.maxiter → st.Leads s d → Pace s o st d st' e →
      e.elim (P st') (Q st'))
    (hfull : ∀ st, P st → st.nit = s.maxiter → Q st .iterationLimit) :
    ∃ c st ending, o.run (fun _ => false) s x0 = (c, .ok (st.result ending)) ∧ Q st ending := by
  -- by induction on the iterations that are left, from any head of the loop where `P` holds
  have hrest (b : ℕ) : ∀ c st, AtHead s x0 c st none → (∀ q ∈ c, q.By o) → P st →
      st.nit + b = s.maxiter →
      ∃ c st ending, o.run (fun _ => false) s x0 = (c, .ok (st.result ending)) ∧ Q st ending := by
    induction b with
    | zero =>
      intro c st hat hby hP hn
      exact ⟨_, st, _, run_of_leaving hat (.limit hn) hby, hfull st hP hn⟩
    | succ b ih =>
      intro c st hat hby hP hn
      have hlt : st.nit < s.maxiter := by omega
      obtain ⟨d, hd⟩ := hleads st hP hlt
      obtain ⟨c', st', e, hhold, hpace⟩ := hold_paces ho hpos hample hd (fun _ => false) []
      obtain ⟨hi, hanswered⟩ := Dialogue.hold_eq_ok_iff.1 hhold
      have hby' : ∀ q ∈ c ++ ⟨.stop, false⟩ :: c', q.By o := by
        rw [List.forall_mem_append, List.forall_mem_cons]
        exact ⟨hby, trivial, (answered_iff.1 hanswered).1⟩
      cases e with
      | some ending =>
        exact ⟨_, st', _, run_of_leaving (hat.next hlt hi) .ended hby',
          hnext st d st' _ hP hlt hd hpace⟩
      | none =>
        have hn' : st'.nit + b = s.maxiter := by
          rw [(passage_of_iterate hi).nit_eq]
          omega
        exact ih _ st' (hat.next hlt hi) hby' (hnext st d st' none hP hlt hd hpace) hn'
  refine hrest s.maxiter _ _ (.start (allFinite_real _)) (by_starting rfl) hstart ?_
  exact Nat.zero_add _

end Oracle

end Runs

end VariableMetric
