import Mathlib.Data.List.Chain
import VariableMetric.Proofs.Comparison
import VariableMetric.Proofs.Heads

/-!
# What a course tells

A listener sees the exchanges of a run and nothing of its states.

* `Course.records`, `Course.polls`: the iterations reported, and the answers to whether to stop.
* `Course.accepted`: **the accepted points**, each with the gradient that was given there.
* `Progress`: an iteration moves on to an accepted point and reports it, or stays where it is.
* `AtHead.told`: what was told at the head of the loop, in the terms of the state there.
-/

namespace VariableMetric

variable {α : Type} {n : ℕ}

/-- The iteration that an exchange reports. -/
def Exchange.record? : Exchange (Request α n) Request.Answer → Option (Record α n)
  | ⟨.record r, _⟩ => some r
  | _ => none

/-- Whether to stop, as far as an exchange tells. -/
def Exchange.poll? : Exchange (Request α n) Request.Answer → Option Bool
  | ⟨.stop, stop⟩ => some stop
  | _ => none

/-- What may be asked within an iteration: neither whether to stop, nor to take note of a result. -/
def Request.Inner : Request α n → Prop
  | .stop | .finish _ => False
  | _ => True

namespace Course

/-- The iterations that were reported. -/
def records (c : Course α n) : List (Record α n) := c.filterMap Exchange.record?

/-- The answers to the question whether to stop. -/
def polls (c : Course α n) : List Bool := c.filterMap Exchange.poll?

/-- `v` was answered for the value at `x`. -/
def Tells (c : Course α n) (x : Vec α n) (v : α) : Prop :=
  ⟨.value x, v⟩ ∈ c ∨ ∃ g, ⟨.gradient x, (v, g)⟩ ∈ c

@[simp] theorem records_append (c c' : Course α n) :
    records (c ++ c') = records c ++ records c' := List.filterMap_append

@[simp] theorem polls_append (c c' : Course α n) : polls (c ++ c') = polls c ++ polls c' :=
  List.filterMap_append

/-- The records after one more iteration. -/
theorem records_next {c₀ c : Course α n} {q : Record α n} (h : records c = [q]) :
    records (c₀ ++ ⟨.stop, false⟩ :: c) = records c₀ ++ [q] := by
  rw [records_append, ← h]
  rfl

theorem Tells.append_right {c : Course α n} {x : Vec α n} {v : α} (h : c.Tells x v)
    (c' : Course α n) : Tells (c ++ c') x v := by
  rcases h with h | ⟨g, h⟩
  · exact .inl (List.mem_append_left _ h)
  · exact .inr ⟨g, List.mem_append_left _ h⟩

end Course

variable [Scalar α]

/-- A record is that of an accepted point: the starting point, or that of a positive step. -/
def Record.accepting (r : Record α n) : Bool := r.iteration == 0 || Scalar.lt 0 r.step

/-- What a listener keeps: the last point that a gradient was given at, and the accepted points. -/
structure Kept (α : Type) (n : ℕ) where
  last : Option (Vec α n × Vec α n)
  accepted : List (Vec α n × Vec α n)

/-- What is kept after one more exchange. -/
def Kept.take (k : Kept α n) : Exchange (Request α n) Request.Answer → Kept α n
  | ⟨.gradient x, a⟩ => { k with last := some (x, a.2) }
  | ⟨.record r, _⟩ =>
    if r.accepting then { k with accepted := k.accepted ++ k.last.toList } else k
  | _ => k

/-- **The accepted points of a course**, with the gradients given there. -/
def Course.accepted (c : Course α n) : List (Vec α n × Vec α n) :=
  (c.foldl Kept.take ⟨none, []⟩).accepted

open Course

section Segments

variable {s : Settings α} {st : State α n} {x g : Vec α n} {v step : α} {b : ℕ}

theorem records_trials (r : Ray α n) (k : ℕ) (vs : List α) : records (r.trials k vs) = [] := by
  induction vs generalizing k with
  | nil => rfl
  | cons v vs ih => exact ih (k + 1)

theorem records_ridging [Solver α] : records (ridging s st) = [] := by
  unfold ridging
  split <;> rfl

/-- Nothing is told of iterations up to the answer at the full step, -/
theorem records_opening [Solver α] : records (opening s st x v g) = [] := by
  rw [opening, records_append, records_ridging]
  rfl

/-- nor up to the end of the search. -/
theorem records_searching [Solver α] (r : Ray α n) (vs : List α) :
    records (opening s st x v g ++ r.trials 0 vs) = [] := by
  rw [records_append, records_opening, records_trials]
  rfl

theorem records_moving :
    records (moving s st x v g b step) = [st.recordTo (st.moved s x v g) b step] := by
  unfold moving
  dsimp only
  split <;> rfl

theorem records_finishing (e : Ending) : records (finishing st e) = [] := rfl

theorem inner_trials (r : Ray α n) (k : ℕ) (vs : List α) :
    ∀ q ∈ r.trials k vs, q.question.Inner := by
  induction vs generalizing k with
  | nil => simp [Ray.trials]
  | cons v vs ih => exact List.forall_mem_cons.2 ⟨trivial, ih (k + 1)⟩

theorem inner_opening [Solver α] : ∀ q ∈ opening s st x v g, q.question.Inner := by
  unfold opening ridging
  split <;> simp [Request.Inner]

theorem inner_moving : ∀ q ∈ moving s st x v g b step, q.question.Inner := by
  unfold moving
  dsimp only
  split <;> simp [Request.Inner]

omit [Scalar α] in
theorem polls_of_inner {c : Course α n} (h : ∀ q ∈ c, q.question.Inner) : polls c = [] := by
  refine List.filterMap_eq_nil_iff.2 fun q hq => ?_
  obtain ⟨q, a⟩ := q
  cases q with
  | stop => exact (h _ hq).elim
  | value | gradient | remark | record | finish => rfl

/-- Without a record of an accepted point, none is added. -/
theorem accepted_foldl {c : Course α n} (h : ∀ q ∈ records c, q.accepting = false) (k : Kept α n) :
    (c.foldl Kept.take k).accepted = k.accepted := by
  induction c generalizing k with
  | nil => rfl
  | cons e c ih =>
    have htail : ∀ q ∈ records c, q.accepting = false := by
      intro q hq
      refine h q ?_
      rw [← List.singleton_append, records_append]
      exact List.mem_append_right _ hq
    rw [List.foldl_cons, ih htail]
    obtain ⟨q, a⟩ := e
    cases q with
    | record r =>
      have hr : r.accepting = false := h r List.mem_cons_self
      simp only [Kept.take, hr, Bool.false_eq_true, if_false]
    | value | gradient | stop | remark | finish => rfl

theorem accepted_append {c c' : Course α n} (h : ∀ q ∈ records c', q.accepting = false) :
    accepted (c ++ c') = accepted c := by
  rw [accepted, List.foldl_append, accepted_foldl h]
  rfl

/-- An accepted point is added with its gradient. -/
theorem accepted_append_moving {c : Course α n} {x' : Vec α n} {v' : α}
    (hstep : Scalar.lt 0 step = true) :
    accepted (c ++ ⟨.gradient x, (v, g)⟩ :: moving s st x' v' g b step) =
      accepted c ++ [(x, g)] := by
  have hacc (q : Record α n) (hq : q.step = step) : q.accepting = true := by
    rw [Record.accepting, hq, hstep, Bool.or_true]
  unfold accepted moving
  dsimp only
  rw [List.foldl_append]
  split <;> simp [Kept.take, hacc, State.recordTo]

/-- **An iteration that moves on** adds its point with the gradient there. -/
theorem accepted_next_moving {ahead : Course α n} {st' : State α n} (hahead : records ahead = [])
    (hstep : Scalar.lt 0 step = true) (c₀ : Course α n) :
    accepted (c₀ ++ ⟨.stop, false⟩ :: (ahead ++ ⟨.gradient x, (v, g)⟩ ::
      moving s st' x v g b step)) = accepted c₀ ++ [(x, g)] := by
  have hquiet : accepted (c₀ ++ ⟨.stop, false⟩ :: ahead) = accepted c₀ := by
    refine accepted_append fun q hq => ?_
    change q ∈ records ahead at hq
    rw [hahead] at hq
    cases hq
  rw [← List.cons_append, ← List.append_assoc, accepted_append_moving hstep, hquiet]

/-- An iteration that stays adds nothing. -/
theorem accepted_next_still [Scalar.Ordered α] {c : Course α n} {st' : State α n}
    (hrec : records c = [st.recordTo st' b 0]) (hn : st'.nit ≠ 0) (c₀ : Course α n) :
    accepted (c₀ ++ ⟨.stop, false⟩ :: c) = accepted c₀ := by
  refine accepted_append fun q hq => ?_
  change q ∈ records c at hq
  rw [hrec] at hq
  cases List.mem_singleton.1 hq
  rw [Record.accepting, Bool.or_eq_false_iff]
  exact ⟨beq_eq_false_iff_ne.2 hn, Scalar.lt_irrefl 0⟩

end Segments

variable {s : Settings α} {x0 : Vec α n} {c : Course α n} {st st' : State α n} {e : Option Ending}

/-- **An iteration moves on or stays**: what it leads to, and what it tells. -/
inductive Progress [Solver α] (s : Settings α) (st : State α n) (c : Course α n) (st' : State α n)
    (e : Option Ending) : Prop
  /-- It moves on to `x`, and `a` was told of the value there, which is a decrease. -/
  | moves {x g : Vec α n} {v a step : α} {values gradients k : ℕ}
      (hst : st' = (st.begun.counted values gradients).moved s x v g)
      (he : e = movedEnding s st x v)
      (hrec : records c = [st.recordTo st' k step]) (hstep : Scalar.lt 0 step = true)
      (hacc : ∀ c₀, accepted (c₀ ++ ⟨.stop, false⟩ :: c) = accepted c₀ ++ [(x, g)])
      (hv : Tells c x v) (ha : Tells c x a) (hlt : Scalar.lt a st.value = true)
  /-- It stays, and is the last. -/
  | stays {values gradients k : ℕ} {ending : Ending}
      (hst : st' = st.begun.counted values gradients) (he : e = some ending)
      (hrec : records c = [st.recordTo st' k 0])
      (hacc : ∀ c₀, accepted (c₀ ++ ⟨.stop, false⟩ :: c) = accepted c₀)
      (hwhy : Standstill s st c st' ending)

/-- Moving on, when nothing is told of iterations before. -/
theorem progress_moves [Solver α] {x g : Vec α n} {v a step : α} {values gradients k : ℕ}
    {ahead : Course α n} (hahead : records ahead = []) (hstep : Scalar.lt 0 step = true)
    (ha : Tells (ahead ++ [⟨.gradient x, (v, g)⟩]) x a) (hlt : Scalar.lt a st.value = true) :
    Progress s st
      (ahead ++ ⟨.gradient x, (v, g)⟩ :: moving s (st.begun.counted values gradients) x v g k step)
      ((st.begun.counted values gradients).moved s x v g) (movedEnding s st x v) := by
  refine .moves rfl rfl (k := k) ?_ hstep (accepted_next_moving hahead hstep)
    (.inr ⟨g, by simp⟩) ?_ hlt
  · rw [records_append, hahead]
    exact records_moving
  · rw [List.append_cons]
    exact ha.append_right _

/-- **An iteration that stays** counts its evaluations, reports that, and accepts nothing. -/
theorem Standstill.stays [Solver α] [Scalar.Ordered α] {ending : Ending}
    (h : Standstill s st c st' ending) :
    ∃ values gradients k, st' = st.begun.counted values gradients ∧
      records c = [st.recordTo st' k 0] ∧
      ∀ c₀, accepted (c₀ ++ ⟨.stop, false⟩ :: c) = accepted c₀ := by
  have hstill {values gradients k : ℕ} (hst : st' = st.begun.counted values gradients)
      (hrec : records c = [st.recordTo st' k 0]) :
      ∃ values gradients k, st' = st.begun.counted values gradients ∧
        records c = [st.recordTo st' k 0] ∧
        ∀ c₀, accepted (c₀ ++ ⟨.stop, false⟩ :: c) = accepted c₀ :=
    ⟨values, gradients, k, hst, hrec,
      accepted_next_still hrec (by rw [hst]; exact Nat.succ_ne_zero _)⟩
  cases h with
  | stationary _ _ _ hst hc =>
    refine hstill hst (k := 0) ?_
    rw [hc, records_append, records_opening]
    rfl
  | @underflow d g v vs c st' _ _ _ _ _ _ hst hc =>
    refine hstill hst (k := vs.length) ?_
    rw [hc, records_append, records_searching]
    rfl

/-- Nothing is told of iterations after the last head. -/
theorem Leaving.told {ending : Ending} {c₁ c₂ : Course α n} (h : Leaving s st e c₂ ending) :
    records (c₁ ++ c₂ ++ finishing st ending) = records c₁ ∧
      accepted (c₁ ++ c₂ ++ finishing st ending) = accepted c₁ := by
  have hquiet : records c₂ = [] := by cases h <;> rfl
  have hnone : records (c₂ ++ finishing st ending) = [] := by
    rw [records_append, hquiet, records_finishing, List.append_nil]
  rw [List.append_assoc]
  refine ⟨by rw [records_append, hnone, List.append_nil], accepted_append fun q hq => ?_⟩
  rw [hnone] at hq
  cases hq

variable [Solver α] [Scalar.Ordered α]

/-- **Every iteration** moves on or stays. -/
theorem Passage.progress (h : Passage s st c st' e) : Progress s st c st' e := by
  cases h with
  | @full d g v c st' e hd hlt hst hc he =>
    subst hst hc he
    rw [opening, List.append_assoc]
    exact progress_moves (records_ridging ..) Scalar.Ordered.zero_lt_one (.inr ⟨g, by simp⟩) hlt
  | @shrunk d g x g' v a v' vs c st' e hd hlt hlarge hset hlen ha hx hacc hst hc he =>
    have hdec : Scalar.lt a st.value = true := by
      by_contra hnot
      have h0 : (st.ray s d).stepOf vs.length a = 0 := if_neg hnot
      rw [h0, Scalar.lt_irrefl] at hacc
      cases hacc
    subst hst hc he
    refine progress_moves (records_searching _ vs) hacc ?_ hdec
    cases vs with
    | nil =>
      -- the full step is the last trial, and was asked for with the gradient
      refine .inr ⟨g, ?_⟩
      subst hx ha
      simp [opening, Ray.trialPoint, State.ray]
    | cons w ws =>
      refine .inl ?_
      have hmem := (st.ray s d).mem_trials_getLast 0 (List.cons_ne_nil w ws)
      rw [Nat.zero_add, ← hx] at hmem
      rw [List.getLast_cons (List.cons_ne_nil w ws)] at ha
      rw [ha]
      simp [hmem]
  | still h =>
    obtain ⟨values, gradients, k, hst, hrec, hacc⟩ := h.stays
    exact .stays hst rfl hrec hacc h

omit [Scalar.Ordered α] in
/-- Within an iteration nobody is asked whether to stop, or told of a result. -/
theorem Passage.inner (h : Passage s st c st' e) : ∀ q ∈ c, q.question.Inner := by
  cases h with
  | full _ _ _ hc =>
    rw [hc, List.forall_mem_append]
    exact ⟨inner_opening, inner_moving⟩
  | shrunk _ _ _ _ _ _ _ _ _ hc =>
    rw [hc, List.forall_mem_append, List.forall_mem_append, List.forall_mem_cons]
    exact ⟨⟨inner_opening, inner_trials _ _ _⟩, trivial, inner_moving⟩
  | still h =>
    cases h with
    | stationary _ _ _ _ hc =>
      rw [hc, List.forall_mem_append, List.forall_mem_singleton]
      exact ⟨inner_opening, trivial⟩
    | underflow _ _ _ _ _ _ _ hc =>
      rw [hc, List.forall_mem_append, List.forall_mem_append, List.forall_mem_cons,
        List.forall_mem_singleton]
      exact ⟨⟨inner_opening, inner_trials _ _ _⟩, trivial, trivial⟩

omit [Scalar.Ordered α] in
/-- Before each iteration the caller was asked whether to stop, and did not stop the run. -/
theorem AtHead.polls_eq (h : AtHead s x0 c st e) : polls c = List.replicate st.nit false := by
  induction h with
  | start => rfl
  | @next c c' st st' e _ _ hi ih =>
    have hpass := passage_of_iterate hi
    have hnone : polls (⟨.stop, false⟩ :: c') = [false] := by
      rw [← List.singleton_append, polls_append, polls_of_inner hpass.inner]
      rfl
    rw [polls_append, ih, hnone, hpass.nit_eq, List.replicate_succ']

omit [Scalar.Ordered α] in
/-- The caller does not end an iteration. -/
theorem Passage.ne_stopped (h : Passage s st c st' e) : e ≠ some .stoppedByCaller := by
  cases h with
  | full _ _ _ _ he => rw [he, movedEnding]; split <;> simp
  | shrunk _ _ _ _ _ _ _ _ _ _ he => rw [he, movedEnding]; split <;> simp
  | still h => cases h <;> simp

omit [Scalar.Ordered α] in
theorem AtHead.ne_stopped (h : AtHead s x0 c st e) : e ≠ some .stoppedByCaller := by
  cases h with
  | start => nofun
  | next _ _ hi => exact (passage_of_iterate hi).ne_stopped

omit [Scalar.Ordered α] in
/-- **The answers to whether to stop** in a run: the last stops it if the caller does. -/
theorem AtHead.polls_returns {c₂ : Course α n} {ending : Ending} (h : AtHead s x0 c st e)
    (hl : Leaving s st e c₂ ending) :
    polls (c ++ c₂ ++ finishing st ending) =
      List.replicate st.nit false ++ if ending = .stoppedByCaller then [true] else [] := by
  have hnone : polls (finishing st ending) = [] := rfl
  rw [polls_append, polls_append, h.polls_eq, hnone, List.append_nil]
  congr 1
  cases hl with
  | limit | stopped => rfl
  | ended => exact (if_neg fun hstop => h.ne_stopped (congrArg some hstop)).symm

/-- **What was told at the head of the loop**, in the terms of the state there. -/
structure Told (s : Settings α) (c : Course α n) (st : State α n) : Prop where
  records_eq : ∃ rs q, records c = rs ++ [q] ∧ rs.length = st.nit ∧ q.x = st.x ∧ q.value = st.value
  accepted_eq : ∃ ps, accepted c = ps ++ [(st.x, st.gradient)]
  history_eq : st.history = if s.history then (accepted c).map Prod.fst else []

theorem AtHead.told (h : AtHead s x0 c st e) : Told s c st := by
  induction h with
  | @start v g hfin =>
    exact ⟨⟨[], startRecord (.start s x0 v g), rfl, rfl, rfl, rfl⟩, ⟨[], rfl⟩, rfl⟩
  | @next c c' st st' e _ hn hi ih =>
    obtain ⟨⟨rs, q, hrs, hlen, -⟩, ⟨ps, hps⟩, hhist⟩ := ih
    have hrecords {k : ℕ} {step : α} (hrec : records c' = [st.recordTo st' k step]) :
        ∃ rs q, records (c ++ ⟨.stop, false⟩ :: c') = rs ++ [q] ∧
          rs.length = st'.nit ∧ q.x = st'.x ∧ q.value = st'.value := by
      refine ⟨records c, _, records_next hrec, ?_, rfl, rfl⟩
      rw [hrs, List.length_append, hlen, (passage_of_iterate hi).nit_eq]
      rfl
    cases (passage_of_iterate hi).progress with
    | @moves x g v a step values gradients k hst he hrec hstep hacc hv ha hlt =>
      refine ⟨hrecords hrec, ⟨accepted c, by rw [hacc, hst]; rfl⟩, ?_⟩
      rw [hacc, hst]
      change (if s.history then st.history ++ [x] else st.history) = _
      rw [hhist]
      split <;> simp
    | @stays values gradients k ending hst he hrec hacc hwhy =>
      refine ⟨hrecords hrec, ⟨ps, by rw [hacc, hps, hst]; rfl⟩, ?_⟩
      rw [hacc, ← hhist, hst]
      rfl

end VariableMetric
