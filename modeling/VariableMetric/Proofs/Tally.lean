import Mathlib.Algebra.Group.Prod
import Mathlib.Algebra.GroupWithZero.Nat
import VariableMetric.Proofs.Records

/-!
# What a run asks for

A run counts its evaluations as it goes. The counts are those of the questions that it asked, and
can be read off its records.

* `Course.asked`: how many values, and how many values with gradients, were asked for.
* `Stride`: how an iteration steps along its direction.
* `Passage.costs`: **what one iteration asks for**: a gradient at the full step, a value at every
  shorter step, and a second gradient where one of these is accepted.
* `Tallied`: what holds at every head of the loop, by `AtHead.tallied`.
-/

namespace VariableMetric

open Course

section Questions

variable {α : Type} {n : ℕ}

/-- A value was asked for, without a gradient. -/
def Exchange.isValue : Exchange (Request α n) Request.Answer → Bool
  | ⟨.value _, _⟩ => true
  | _ => false

/-- A value was asked for, with a gradient. -/
def Exchange.isGradient : Exchange (Request α n) Request.Answer → Bool
  | ⟨.gradient _, _⟩ => true
  | _ => false

/-- **How many values were asked for**, without and with a gradient. -/
def Course.asked (c : Course α n) : ℕ × ℕ :=
  (c.countP Exchange.isValue, c.countP Exchange.isGradient)

theorem asked_append (c c' : Course α n) : asked (c ++ c') = asked c + asked c' := by
  simp only [asked, List.countP_append, Prod.mk_add_mk]

end Questions

variable {α : Type} [Scalar α] {n : ℕ}

/-- **How an iteration steps** from `x` along `d`: to which point, after how many trials, and by
which step. -/
inductive Stride (s : Settings α) (x d : Vec α n) : Vec α n → ℕ → α → Prop
  | full : Stride s x d (x + d) 0 1
  | shorter {k : ℕ} (hk : 1 ≤ k) (hpos : Scalar.lt 0 (scaleAfter s.backtrack k) = true) :
      Stride s x d (x + scaleAfter s.backtrack k * d) k (scaleAfter s.backtrack k)
  | none {k : ℕ} : Stride s x d x k 0

/-- The record of a step that a search came to. -/
def Record.searched (q : Record α n) : Bool :=
  decide (1 ≤ q.iteration ∧ 1 ≤ q.backtracks) && Scalar.lt 0 q.step

section Segments

variable {s : Settings α} {st : State α n} {x d g : Vec α n} {v step : α} {b : ℕ}

theorem asked_trials (r : Ray α n) (k : ℕ) (vs : List α) :
    asked (r.trials k vs) = (vs.length, 0) := by
  induction vs generalizing k with
  | nil => rfl
  | cons w vs ih =>
    have hone : asked [(⟨.value (r.trialPoint (k + 1)), w⟩ : Exchange (Request α n) _)] =
        (1, 0) := rfl
    rw [Ray.trials, ← List.singleton_append, asked_append, hone, ih, Prod.mk_add_mk,
      List.length_cons, Nat.add_comm 1]

theorem asked_opening [Solver α] : asked (opening s st d v g) = (0, 1) := by
  unfold opening ridging
  split <;> rfl

theorem asked_moving : asked (moving s st x v g b step) = (0, 0) := by
  unfold moving
  dsimp only
  split <;> rfl

/-- A search makes no more trials than it takes for the step to come down to the limit. -/
theorem Ray.Settles.length_le {r : Ray α n} {k j : ℕ} {vs : List α} (h : r.Settles k v vs)
    (hlow : Scalar.lt r.minStep (r.scaleAt (k + j)) = false) : vs.length ≤ j := by
  induction vs generalizing k v j with
  | nil => exact Nat.zero_le j
  | cons w vs ih =>
    obtain ⟨hnot, hrest⟩ := h
    cases j with
    | zero =>
      -- the step is down at the limit, where every trial settles the search
      have hset : r.settled (r.trialAt k v) = true := by
        change (r.accepts v || !Scalar.lt r.minStep (r.scaleAt k)) = true
        rw [← Nat.add_zero k, hlow, Bool.not_false, Bool.or_true]
      rw [hset] at hnot
      cases hnot
    | succ j =>
      have hshift : k + (j + 1) = k + 1 + j := by omega
      rw [hshift] at hlow
      have hle := ih hrest hlow
      rw [List.length_cons]
      omega

variable [Scalar.Ordered α]

/-- A step that is accepted is that of its trial. -/
theorem Ray.stepOf_eq {r : Ray α n} {k : ℕ} (h : Scalar.lt 0 (r.stepOf k v) = true) :
    r.stepOf k v = r.scaleAt k := by
  unfold stepOf at h ⊢
  split at h
  · rename_i hacc
    exact if_pos hacc
  · rw [Scalar.lt_irrefl] at h
    cases h

/-- Where the full step is no decrease but a step is accepted, there was a trial. -/
theorem Ray.one_le_length {r : Ray α n} {vs : List α} (hlt : Scalar.lt v r.value = false)
    (hacc : Scalar.lt 0 (r.stepOf vs.length ((v :: vs).getLast (by simp))) = true) :
    1 ≤ vs.length := by
  cases vs with
  | cons w ws => exact Nat.succ_pos _
  | nil =>
    have hv : r.stepOf 0 v = 0 := if_neg (Bool.eq_false_iff.1 hlt)
    rw [List.length_nil, List.getLast_singleton, hv, Scalar.lt_irrefl] at hacc
    cases hacc

theorem stride_trialPoint {k : ℕ} (hk : 1 ≤ k)
    (hacc : Scalar.lt 0 ((st.ray s d).stepOf k v) = true) :
    Stride s st.x d ((st.ray s d).trialPoint k) k ((st.ray s d).stepOf k v) := by
  have hstep : (st.ray s d).stepOf k v = scaleAfter s.backtrack k := Ray.stepOf_eq hacc
  have hpoint : (st.ray s d).trialPoint k = st.x + scaleAfter s.backtrack k * d := by
    rw [Ray.trialPoint, if_neg (by omega)]
    rfl
  rw [hstep] at hacc ⊢
  rw [hpoint]
  exact .shorter hk hacc

end Segments

variable {s : Settings α} {x0 : Vec α n} {c : Course α n} {st st' : State α n} {e : Option Ending}

/-- **What one iteration asks for**, where it made `k` trials and accepted `step`. -/
structure Costs [Solver α] (s : Settings α) (st : State α n) (c : Course α n) (st' : State α n)
    (k g : ℕ) (step : α) : Prop where
  strides : ∃ d, st.Leads s d ∧ Stride s st.x d st'.x k step
  records_eq : records c = [st.recordTo st' k step]
  asked_eq : asked c = (k, g)
  nfev_eq : st'.nfev = st.nfev + k + g
  njev_eq : st'.njev = st.njev + g
  nit_eq : st'.nit = st.nit + 1
  /-- The second gradient is that of a shorter step. -/
  gradients_eq : g = 1 + if (st.recordTo st' k step).searched then 1 else 0
  trials_le : ∀ K, Scalar.lt s.minStep (scaleAfter s.backtrack K) = false → k ≤ K

theorem searched_recordTo (hn : 1 ≤ st'.nit) {k : ℕ} {step : α} :
    (st.recordTo st' k step).searched = (decide (1 ≤ k) && Scalar.lt 0 step) := by
  change (decide (1 ≤ st'.nit ∧ 1 ≤ k) && Scalar.lt 0 step) = _
  simp only [hn, true_and]

/-- An iteration that stays has asked for one gradient, and for the values of its trials. -/
theorem Standstill.costs [Solver α] [Scalar.Ordered α] {ending : Ending}
    (h : Standstill s st c st' ending) : ∃ k g step, Costs s st c st' k g step := by
  have hnit := (Passage.still h).nit_eq
  have hpos : 1 ≤ st'.nit := by omega
  cases h with
  | @stationary d g v c st' hd hlt hsmall hst hc =>
    refine ⟨0, 1, 0, ⟨d, hd, ?_⟩, ?_, ?_, by rw [hst]; rfl, by rw [hst]; rfl, hnit, ?_,
      fun _ _ => Nat.zero_le _⟩
    · rw [hst]
      exact .none
    · rw [hc, records_append, records_opening]
      rfl
    · rw [hc, asked_append, asked_opening]
      rfl
    · rw [searched_recordTo hpos]
      rfl
  | @underflow d g v vs c st' hd hlt hlarge hset hlen hfail hst hc =>
    refine ⟨vs.length, 1, 0, ⟨d, hd, ?_⟩, ?_, ?_, by rw [hst]; rfl, by rw [hst]; rfl, hnit, ?_,
      fun K hK => hset.length_le (j := K) (by rw [Nat.zero_add]; exact hK)⟩
    · rw [hst]
      exact .none
    · rw [hc, records_append, records_searching]
      rfl
    · have hnone : asked ([⟨.remark (.noDecrease st'.nit vs.length), ()⟩,
          ⟨.record (st.recordTo st' vs.length 0), ()⟩] : Course α n) = (0, 0) := rfl
      rw [hc, asked_append, asked_append, asked_opening, asked_trials, hnone]
      simp only [Prod.mk_add_mk, Nat.zero_add, Nat.add_zero]
    · rw [searched_recordTo hpos, Scalar.lt_irrefl, Bool.and_false]
      rfl

/-- **Every iteration** asks for a gradient and for the values of its trials, and for one gradient
more where a trial is accepted. -/
theorem Passage.costs [Solver α] [Scalar.Ordered α] (h : Passage s st c st' e) :
    ∃ k g step, Costs s st c st' k g step := by
  have hnit := h.nit_eq
  have hpos : 1 ≤ st'.nit := by omega
  cases h with
  | @full d g v c st' e hd hlt hst hc he =>
    refine ⟨0, 1, 1, ⟨d, hd, ?_⟩, ?_, ?_, by rw [hst]; rfl, by rw [hst]; rfl, hnit, ?_,
      fun _ _ => Nat.zero_le _⟩
    · rw [hst]
      exact .full
    · rw [hc, records_append, records_opening, records_moving, hst]
      rfl
    · rw [hc, asked_append, asked_opening, asked_moving]
      rfl
    · rw [searched_recordTo hpos]
      rfl
  | @shrunk d g x g' v a v' vs c st' e hd hlt hlarge hset hlen ha hx hacc hst hc he =>
    have htrial : 1 ≤ vs.length := Ray.one_le_length hlt (ha ▸ hacc)
    refine ⟨vs.length, 2, (st.ray s d).stepOf vs.length a, ⟨d, hd, ?_⟩, ?_, ?_, by rw [hst]; rfl,
      by rw [hst]; rfl, hnit, ?_,
      fun K hK => hset.length_le (j := K) (by rw [Nat.zero_add]; exact hK)⟩
    · rw [hst, hx]
      exact stride_trialPoint htrial hacc
    · rw [hc, records_append, records_searching, hst]
      exact records_moving
    · have hone : asked [(⟨.gradient x, (v', g')⟩ : Exchange (Request α n) _)] = (0, 1) := rfl
      rw [hc, asked_append, asked_append, asked_opening, asked_trials, ← List.singleton_append,
        asked_append, asked_moving, hone]
      simp only [Prod.mk_add_mk, Nat.zero_add, Nat.add_zero, Nat.reduceAdd]
    · rw [searched_recordTo hpos, hacc]
      simp only [htrial, decide_true, Bool.and_self, if_true]
  | still h => exact h.costs

/-- **The counts at the head of the loop**, by what was asked for and what was reported. -/
structure Tallied (s : Settings α) (c : Course α n) (st : State α n) : Prop where
  nfev_eq : st.nfev = (asked c).1 + (asked c).2
  njev_eq : st.njev = (asked c).2
  gradients_eq : st.njev = 1 + st.nit + (records c).countP Record.searched
  values_eq : st.nfev = st.njev + ((records c).map Record.backtracks).sum
  nfev_le : ∀ K, Scalar.lt s.minStep (scaleAfter s.backtrack K) = false →
    st.nfev ≤ 1 + st.nit * (2 + K)

/-- One more iteration keeps the counts. -/
theorem Tallied.next [Solver α] (h : Tallied s c st) {c' : Course α n} {k g : ℕ} {step : α}
    (hc : Costs s st c' st' k g step) : Tallied s (c ++ ⟨.stop, false⟩ :: c') st' := by
  have hasked : asked (c ++ ⟨.stop, false⟩ :: c') = asked c + (k, g) := by
    rw [asked_append, ← hc.asked_eq]
    rfl
  have hrecords : records (c ++ ⟨.stop, false⟩ :: c') = records c ++ [st.recordTo st' k step] :=
    records_next hc.records_eq
  have h1 := h.nfev_eq
  have h2 := h.njev_eq
  have h3 := h.gradients_eq
  have h4 := h.values_eq
  have hg := hc.gradients_eq
  refine ⟨?_, ?_, ?_, ?_, fun K hK => ?_⟩
  · rw [hasked, hc.nfev_eq]
    simp only [Prod.fst_add, Prod.snd_add]
    omega
  · rw [hasked, hc.njev_eq]
    simp only [Prod.snd_add]
    omega
  · rw [hrecords, List.countP_append, List.countP_singleton, hc.njev_eq, hc.nit_eq]
    omega
  · have hb : (st.recordTo st' k step).backtracks = k := rfl
    rw [hrecords, List.map_append, List.sum_append, List.map_singleton, List.sum_singleton, hb,
      hc.nfev_eq, hc.njev_eq]
    omega
  · have hle := h.nfev_le K hK
    have hk := hc.trials_le K hK
    have hg2 : g ≤ 2 := by split at hg <;> omega
    rw [hc.nfev_eq, hc.nit_eq, Nat.succ_mul]
    omega

/-- **At every head of the loop**, by induction over the iterations. -/
theorem AtHead.tallied [Solver α] [Scalar.Ordered α] (h : AtHead s x0 c st e) : Tallied s c st := by
  induction h with
  | start => exact ⟨rfl, rfl, rfl, rfl, fun _ _ => Nat.le_add_right 1 _⟩
  | next _ _ hi ih =>
    obtain ⟨k, g, step, hc⟩ := (passage_of_iterate hi).costs
    exact ih.next hc

/-- After its last head a run asks for nothing more. -/
theorem Leaving.asked_eq [Solver α] {ending : Ending} {c₁ c₂ : Course α n}
    (h : Leaving s st e c₂ ending) : asked (c₁ ++ c₂ ++ finishing st ending) = asked c₁ := by
  have hnone : asked (c₂ ++ finishing st ending) = (0, 0) := by cases h <;> rfl
  rw [List.append_assoc, asked_append, hnone]
  rfl

/-- **The counts at the end of a run.** -/
theorem tallied_of_minimize [Solver α] [Scalar.Ordered α] {r : Result α n}
    (h : (minimize s x0).Comes c (.done r)) :
    ∃ st ending, Tallied s c st ∧ r = st.result ending := by
  obtain ⟨c₁, st, e, c₂, ending, hat, hleave, rfl, rfl⟩ := heads_of_minimize h
  have ht := hat.tallied
  refine ⟨st, ending, ⟨?_, ?_, ?_, ?_, ht.nfev_le⟩, rfl⟩
  · rw [hleave.asked_eq]
    exact ht.nfev_eq
  · rw [hleave.asked_eq]
    exact ht.njev_eq
  · rw [hleave.told.1]
    exact ht.gradients_eq
  · rw [hleave.told.1]
    exact ht.values_eq

end VariableMetric
