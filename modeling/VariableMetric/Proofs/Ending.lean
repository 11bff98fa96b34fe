import Mathlib.Order.Bounds.Defs
import VariableMetric.Proofs.Extended
import VariableMetric.Proofs.Records

/-!
# What the ending of a run means

Whatever the answers to a run are, its records and its last iteration bear its ending out.

* `Record.Settled`: value and point changed little from one record to the next.
* `AtHead.advances`: an iteration with another one after it accepted a step and did not settle.
* `Ray.Settles.rejects`: **when a search fails**: no trial is a decrease, and only the last step is
  not above the limit.
* `Stationary`, `Underflow`: the two ways to end without a step.
* `meaning_of_ending`: what each ending says of the run.
-/

namespace VariableMetric

open Course

section Records

variable {α : Type} [Scalar α] {n : ℕ}

/-- **Value and point changed little** from `p` to `q`. -/
def Record.Settled (s : Settings α) (p q : Record α n) : Prop :=
  ∃ change, q.change = some change ∧ Scalar.lt (Scalar.abs change) s.tolfun = true ∧
    Scalar.lt (normInf (q.x - p.x)) s.tolx = true

/-- A step was accepted from `p` to `q`, and did not settle the run. -/
def Record.Advances (s : Settings α) (p q : Record α n) : Prop :=
  Scalar.lt 0 q.step = true ∧ ¬ p.Settled s q

/-- The result has what the state had one iteration before. -/
structure Result.Retains (r : Result α n) (st : State α n) : Prop where
  x_eq : r.x = st.x
  value_eq : r.value = st.value
  gradient_eq : r.gradient = st.gradient
  hessian_eq : r.hessian = st.hessian
  history_eq : r.history = st.history
  nit_eq : r.nit = st.nit + 1

/-- **A stationary end.** The last iteration began in state `st`. Its full step changed little and
was no decrease, and everything was left as it was. -/
def Stationary [Solver α] (s : Settings α) (x0 : Vec α n) (c : Course α n) (r : Result α n) :
    Prop :=
  ∃ c₀ st d v g, AtHead s x0 c₀ st none ∧ st.Leads s d ∧
    c = c₀ ++ ⟨.stop, false⟩ :: opening s st d v g ++
      [⟨.record (st.recordTo (st.begun.counted 0 1) 0 0), ()⟩] ++
        finishing (st.begun.counted 0 1) .converged ∧
    Scalar.lt v st.value = false ∧
    Scalar.lt (Scalar.abs (v - st.value)) s.tolfun = true ∧ Scalar.lt (normInf d) s.tolx = true ∧
    r.Retains st

variable {s : Settings α} {st st' : State α n} {x : Vec α n} {v : α} {k : ℕ} {step : α}

theorem settled_iff {p : Record α n} (hx : p.x = st.x) (hst' : st'.x = x) (hv : st'.value = v) :
    p.Settled s (st.recordTo st' k step) ↔ withinTolerance s (v - st.value) (x - st.x) = true := by
  subst hst' hv
  rw [withinTolerance, Bool.and_eq_true, ← hx]
  constructor
  · rintro ⟨change, hchange, hsmall⟩
    cases hchange
    exact hsmall
  · exact fun hsmall => ⟨_, rfl, hsmall⟩

theorem movedEnding_eq_none (h : movedEnding s st x v = none) :
    withinTolerance s (v - st.value) (x - st.x) = false := by
  unfold movedEnding at h
  split at h
  · cases h
  · rename_i hnot
    exact Bool.eq_false_iff.2 hnot

theorem movedEnding_eq_some {ending : Ending} (h : movedEnding s st x v = some ending) :
    ending = .converged ∧ withinTolerance s (v - st.value) (x - st.x) = true := by
  unfold movedEnding at h
  split at h
  · rename_i hsmall
    cases h
    exact ⟨rfl, hsmall⟩
  · cases h

/-- Every iteration that another one follows accepted a step and did not settle the run. -/
theorem AtHead.advances [Solver α] [Scalar.Ordered α] {x0 : Vec α n} {c : Course α n}
    {e : Option Ending} (h : AtHead s x0 c st e) :
    (records c).dropLast.IsChain (Record.Advances s) ∧
      (e = none → (records c).IsChain (Record.Advances s)) := by
  induction h with
  | start => exact ⟨.nil, fun _ => .singleton _⟩
  | @next c c' st st' e hat _ hi ih =>
    obtain ⟨⟨rs, q, hrs, -, hqx, -⟩, -, -⟩ := hat.told
    have hchain := ih.2 rfl
    cases (passage_of_iterate hi).progress with
    | @moves x g v a step values gradients k hst he hrec hstep hacc hv ha hlt =>
      rw [records_next hrec, List.dropLast_concat]
      refine ⟨hchain, fun hnone => ?_⟩
      rw [hrs, List.append_assoc]
      refine List.isChain_append_cons_cons.2 ⟨hrs ▸ hchain, ⟨hstep, ?_⟩, .singleton _⟩
      intro hset
      have hsmall : withinTolerance s (v - st.value) (x - st.x) = true :=
        (settled_iff hqx (by rw [hst]; rfl) (by rw [hst]; rfl)).1 hset
      rw [movedEnding_eq_none (he ▸ hnone)] at hsmall
      cases hsmall
    | @stays values gradients k ending hst he hrec hacc hwhy =>
      rw [records_next hrec, List.dropLast_concat]
      refine ⟨hchain, fun hnone => ?_⟩
      rw [he] at hnone
      cases hnone

/-- An iteration after which the run ends is the last one. -/
theorem AtHead.last [Solver α] {x0 : Vec α n} {c : Course α n} {ending : Ending}
    (h : AtHead s x0 c st (some ending)) :
    ∃ c₀ c' st₀, AtHead s x0 c₀ st₀ none ∧ c = c₀ ++ ⟨.stop, false⟩ :: c' ∧
      Passage s st₀ c' st (some ending) := by
  cases h with
  | @next c₀ c' st₀ _ _ hat _ hi => exact ⟨c₀, c', st₀, hat, rfl, passage_of_iterate hi⟩

end Records

section Search

variable {α : Type} [Scalar α] {n : ℕ} {r : Ray α n}

/-- **When a search fails**, all of its steps being positive: no trial is a decrease, and the last
step is the first that is not above the limit. -/
theorem Ray.Settles.rejects {k : ℕ} {v : α} {vs : List α} (h : r.Settles k v vs)
    (hpos : ∀ k, Scalar.lt 0 (r.scaleAt k) = true)
    (hfail : Scalar.lt 0 (r.stepOf (k + vs.length) ((v :: vs).getLast (by simp))) = false) :
    (∀ w ∈ v :: vs, Scalar.lt w r.value = false) ∧
      (∀ i < vs.length, Scalar.lt r.minStep (r.scaleAt (k + i)) = true) ∧
      Scalar.lt r.minStep (r.scaleAt (k + vs.length)) = false := by
  induction vs generalizing k v with
  | nil =>
    -- a decrease would have come to a positive step
    have hrej : Scalar.lt v r.value = false := by
      by_contra hacc
      have hstep : r.stepOf k v = r.scaleAt k := if_pos (Bool.not_eq_false _ ▸ hacc)
      have hlt := hpos k
      rw [← hstep] at hlt
      exact Bool.false_ne_true (hfail.symm.trans hlt)
    refine ⟨?_, fun i hi => absurd hi (Nat.not_lt_zero i), ?_⟩
    · intro w hw
      exact List.mem_singleton.1 hw ▸ hrej
    · have hset : (Scalar.lt v r.value || !Scalar.lt r.minStep (r.scaleAt k)) = true := h
      rw [hrej, Bool.false_or, Bool.not_eq_true'] at hset
      exact hset
  | cons w vs ih =>
    obtain ⟨hnot, hrest⟩ := h
    have hshift : k + (w :: vs).length = k + 1 + vs.length := by rw [List.length_cons]; omega
    rw [hshift, List.getLast_cons (List.cons_ne_nil w vs)] at hfail
    obtain ⟨hall, hsteps, hlast⟩ := ih hrest hfail
    -- a trial that another one follows is no decrease, and its step is above the limit
    have hboth : (Scalar.lt v r.value || !Scalar.lt r.minStep (r.scaleAt k)) = false := hnot
    rw [Bool.or_eq_false_iff, Bool.not_eq_false'] at hboth
    refine ⟨?_, ?_, hshift ▸ hlast⟩
    · intro u hu
      rcases List.mem_cons.1 hu with rfl | hu
      · exact hboth.1
      · exact hall u hu
    · intro i hi
      cases i with
      | zero => exact hboth.2
      | succ i =>
        have hi' : i < vs.length := by rw [List.length_cons] at hi; omega
        rw [show k + (i + 1) = k + 1 + i by omega]
        exact hsteps i hi'

/-- The exchanges of the trials, by their steps. -/
theorem trials_eq_mapIdx (k : ℕ) (vs : List α) :
    r.trials k vs = vs.mapIdx fun i w => ⟨.value (r.pointAt (r.scaleAt (k + 1 + i))), w⟩ := by
  induction vs generalizing k with
  | nil => rfl
  | cons w vs ih =>
    rw [Ray.trials, ih, List.mapIdx_cons]
    refine congrArg₂ _ rfl ?_
    congr 1
    funext i w
    rw [show k + 1 + 1 + i = k + 1 + (i + 1) by omega]

end Search

variable {n : ℕ}

/-- **When a search fails**, over the extended numbers: no trial is a decrease, and the last power
of the factor is the first that is not above the limit. -/
theorem Ray.Settles.isLeast {r : Ray Extended n} {b μ : ℝ} {v : Extended} {vs : List Extended}
    (h : r.Settles 0 v vs) (hb : r.factor = .finite b) (hb0 : 0 < b) (hμ : r.minStep = .finite μ)
    (hfail : Scalar.lt 0 (r.stepOf vs.length ((v :: vs).getLast (by simp))) = false) :
    (∀ w ∈ v :: vs, Scalar.lt w r.value = false) ∧ IsLeast {k | b ^ k ≤ μ} vs.length := by
  have hpos (k : ℕ) : Scalar.lt 0 (r.scaleAt k) = true := by
    rw [scaleAt_eq hb, Extended.zero_eq, Extended.finite_lt]
    exact decide_eq_true (pow_pos hb0 k)
  have habove (k : ℕ) : Scalar.lt r.minStep (r.scaleAt k) = decide (μ < b ^ k) := by
    rw [scaleAt_eq hb, hμ, Extended.finite_lt]
  rw [← Nat.zero_add vs.length] at hfail
  obtain ⟨hall, hsteps, hlast⟩ := h.rejects hpos hfail
  rw [Nat.zero_add, habove, decide_eq_false_iff_not, not_lt] at hlast
  refine ⟨hall, hlast, fun k hk => ?_⟩
  by_contra hlt
  have hstep := hsteps k (not_le.1 hlt)
  rw [Nat.zero_add, habove, decide_eq_true_iff] at hstep
  exact absurd hk (not_le.2 hstep)

variable [Solver Extended]

/-- **An end by underflow.** The last iteration began in state `st`. Its full step was no decrease,
nor was a step of any power of the factor `b` up to the first that is not above the limit `μ`, and
everything was left as it was. -/
def Underflow (s : Settings Extended) (b μ : ℝ) (x0 : Vec Extended n) (c : Course Extended n)
    (r : Result Extended n) : Prop :=
  ∃ c₀ st d v g vs, AtHead s x0 c₀ st none ∧ st.Leads s d ∧
    c = c₀ ++ ⟨.stop, false⟩ :: opening s st d v g ++
      vs.mapIdx (fun i w => ⟨.value (st.x + Extended.finite (b ^ (i + 1)) * d), w⟩) ++
      [⟨.remark (.noDecrease r.nit vs.length), ()⟩,
        ⟨.record (st.recordTo (st.begun.counted vs.length 1) vs.length 0), ()⟩] ++
      finishing (st.begun.counted vs.length 1) .stepUnderflow ∧
    IsLeast {k | b ^ k ≤ μ} vs.length ∧ (∀ w ∈ v :: vs, Scalar.lt w st.value = false) ∧
    r.Retains st

variable {s : Settings Extended} {b μ : ℝ} {x0 : Vec Extended n} {c : Course Extended n}
  {r : Result Extended n}

/-- **A run that ends without a step** does so in one of the two ways. -/
theorem Standstill.ends {c₀ c' : Course Extended n} {st st' : State Extended n} {ending : Ending}
    (h : Standstill s st c' st' ending) (hat : AtHead s x0 c₀ st none)
    (hb : s.backtrack = .finite b) (hb0 : 0 < b) (hμ : s.minStep = .finite μ)
    (hc : c = c₀ ++ ⟨.stop, false⟩ :: c' ++ finishing st' ending) :
    ending = .converged ∧ Stationary s x0 c (st'.result ending) ∨
      ending = .stepUnderflow ∧ Underflow s b μ x0 c (st'.result ending) := by
  cases h with
  | @stationary d g v c' st' hd hlt hsmall hst hc' =>
    rw [withinTolerance, Bool.and_eq_true] at hsmall
    subst hst hc'
    refine .inl ⟨rfl, c₀, st, d, v, g, hat, hd, ?_, hlt, hsmall.1, hsmall.2, ?_⟩
    · rw [hc]
      simp only [List.append_assoc, List.cons_append]
    · exact ⟨rfl, rfl, rfl, rfl, rfl, rfl⟩
  | @underflow d g v vs c' st' hd hlt hlarge hset hlen hfail hst hc' =>
    obtain ⟨hreject, hleast⟩ := hset.isLeast hb hb0 hμ hfail
    have htrials : (st.ray s d).trials 0 vs = vs.mapIdx fun i w =>
        ⟨.value (st.x + Extended.finite (b ^ (i + 1)) * d), w⟩ := by
      rw [trials_eq_mapIdx]
      congr 1
      funext i w
      rw [Ray.scaleAt_eq hb, Nat.zero_add, Nat.add_comm 1 i]
      rfl
    subst hst hc'
    refine .inr ⟨rfl, c₀, st, d, v, g, vs, hat, hd, ?_, hleast, hreject, ?_⟩
    · rw [hc, htrials]
      simp only [List.append_assoc, List.cons_append]
      rfl
    · exact ⟨rfl, rfl, rfl, rfl, rfl, rfl⟩

/-- **What the ending of a run means.** Every iteration before the last accepted a step and did not
settle the run. At the limit, or when the caller stops it, nor did the last. A run that converged
settled in its last iteration, by a step or by being stationary; and where the step underflowed, no
power of the factor led to a decrease. -/
theorem meaning_of_ending (hb : s.backtrack = .finite b) (hb0 : 0 < b) (hμ : s.minStep = .finite μ)
    (h : (minimize s x0).Comes c (.done r)) :
    (records c).length = r.nit + 1 ∧
    (records c).dropLast.IsChain (Record.Advances s) ∧
    (r.ending.status = .notConverged →
      (r.nit = s.maxiter ∧ r.ending.message = "Maximum iterations reached." ∨
        (polls c).getLast? = some true ∧ r.ending.message = "Stopped by caller.") ∧
      (records c).IsChain (Record.Advances s)) ∧
    (r.ending.status = .converged → 1 ≤ r.nit ∧
      ((∃ rs p q, records c = rs ++ [p, q] ∧ Scalar.lt 0 q.step = true ∧ p.Settled s q) ∨
        Stationary s x0 c r)) ∧
    (r.ending.status = .stepUnderflow → 1 ≤ r.nit ∧ Underflow s b μ x0 c r) := by
  obtain ⟨c₁, st, e, c₂, ending, hat, hleave, rfl, rfl⟩ := heads_of_minimize h
  obtain ⟨⟨rs, q, hrs, hlen, -⟩, -, -⟩ := hat.told
  obtain ⟨hbefore, hall⟩ := hat.advances
  rw [hleave.told.1]
  refine ⟨?_, hbefore, ?_⟩
  · rw [hrs, List.length_append, hlen]
    rfl
  -- each ending has one status, so that two of the three parts are about nothing
  cases hleave with
  | limit hn => exact ⟨fun _ => ⟨.inl ⟨hn, rfl⟩, hall rfl⟩, nofun, nofun⟩
  | stopped hn =>
    refine ⟨fun _ => ⟨.inr ⟨?_, rfl⟩, hall rfl⟩, nofun, nofun⟩
    rw [polls_append, polls_append, List.append_assoc]
    exact List.getLast?_concat
  | ended =>
    obtain ⟨c₀, c', st₀, hat₀, rfl, hpass⟩ := hat.last
    obtain ⟨⟨rs₀, p, hrs₀, -, hpx, -⟩, -, -⟩ := hat₀.told
    have hnit : 1 ≤ st.nit := by rw [hpass.nit_eq]; omega
    cases hpass.progress with
    | @moves x g v a step values gradients k hst he hrec hstep hacc hv ha hlt =>
      obtain ⟨rfl, hsmall⟩ := movedEnding_eq_some he.symm
      refine ⟨nofun, fun _ => ⟨hnit, .inl ⟨rs₀, p, st₀.recordTo st k step, ?_, hstep, ?_⟩⟩, nofun⟩
      · rw [records_next hrec, hrs₀, List.append_assoc]
        rfl
      · exact (settled_iff hpx (by rw [hst]; rfl) (by rw [hst]; rfl)).2 hsmall
    | @stays values gradients k ending' hst he hrec hacc hwhy =>
      cases he
      rw [List.append_nil]
      rcases hwhy.ends hat₀ hb hb0 hμ rfl with ⟨rfl, hstat⟩ | ⟨rfl, hunder⟩
      · exact ⟨nofun, fun _ => ⟨hnit, .inr hstat⟩, nofun⟩
      · exact ⟨nofun, nofun, fun _ => ⟨hnit, hunder⟩⟩

omit [Solver Extended] in
/-- A run that is told of no value but at its start. Its second trial is at the limit. -/
theorem meaning_of_ending_undefined :
    let s : Settings Extended :=
      ⟨5, .finite 1, .finite 1, .finite (1 / 2), .finite (1 / 2), .finite 0, .finite 1, 9, true⟩
    letI := solveIdentity
    s.backtrack = .finite (1 / 2) ∧ (0 : ℝ) < 1 / 2 ∧ s.minStep = .finite (1 / 2) ∧
      ∃ c r, (minimize s (#v[.finite 0] : Vec Extended 1)).Comes c (.done r) ∧
        r.ending.status = .stepUnderflow ∧ Underflow s (1 / 2) (1 / 2) #v[.finite 0] c r := by
  intro s
  let := solveIdentity
  have hhalf : (0 : ℝ) < 1 / 2 := by norm_num
  refine ⟨rfl, hhalf, rfl, ?_⟩
  let g : Vec Extended 1 := #v[.finite 1]
  let st : State Extended 1 := .start s #v[.finite 0] (.finite 1) g
  have hstart : AtHead s #v[.finite 0] (starting s #v[.finite 0] (.finite 1) g) st none :=
    .start (by simp [allFinite, Scalar.isFinite, g])
  have hset : (st.ray s (-g)).Settles 0 .nan [.nan] := by
    refine ⟨?_, ?_⟩
    · rw [Ray.settled_eq rfl rfl]
      norm_num
    · change (st.ray s (-g)).settled _ = true
      rw [Ray.settled_eq rfl rfl]
      norm_num
  have hnext := hstart.next (by decide) (iterate_comes (.still (.underflow (g := g)
    ⟨g, rfl, rfl⟩ (Extended.nan_lt _) (by simp [withinTolerance]) hset (by decide)
    (by simp [Ray.stepOf, Ray.accepts]) rfl rfl)))
  have hrun := hnext.returns .ended
  exact ⟨_, _, hrun, rfl, ((meaning_of_ending rfl hhalf rfl hrun).2.2.2.2 rfl).2⟩

end VariableMetric
