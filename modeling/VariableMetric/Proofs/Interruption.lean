import VariableMetric.Proofs.LockStep

/-!
# Runs that are cut off

Whoever answers for the objective may fail at any call. What a run has done by then can be read off
the place of the call.

* `Request.IsCall`, `Course.calls`: the calls of the objective, in either of its modes.
* `CallSite`: **the calls of an iteration**, at the full step, at a trial, and once more at the
  trial that the search came to.
* `callSite_of_iterate`: an iteration calls the objective nowhere else.
* `Interrupted`: **a run that has come to a call**, with the records of the iterations completed.
* `interrupted_of_comes`: every run that has come to a call is one of these.
-/

namespace VariableMetric

open Course

variable {α : Type} {n : ℕ} {β γ : Type}

/-- The objective is called, in either of its modes. -/
def Request.IsCall : Request α n → Prop
  | .value _ | .gradient _ => True
  | _ => False

/-- **The number of calls of a course.** -/
def Course.calls (c : Course α n) : ℕ := (asked c).1 + (asked c).2

@[simp] theorem calls_append (c c' : Course α n) : calls (c ++ c') = calls c + calls c' := by
  rw [calls, asked_append, Prod.fst_add, Prod.snd_add]
  exact Nat.add_add_add_comm _ _ _ _

theorem calls_singleton {e : Exchange (Request α n) Request.Answer} (h : e.question.IsCall) :
    calls [e] = 1 := by
  obtain ⟨q, a⟩ := e
  cases q with
  | value | gradient => rfl
  | stop | remark | record | finish => exact h.elim

/-- Two dialogues that have come to a question: the first has come to it, or to its result on the
way. -/
theorem Dialogue.comes_bind_ask {Q : Type} {A : Q → Type} {d : Dialogue Q A β}
    {f : β → Dialogue Q A γ} {c : List (Exchange Q A)} {q : Q} {next : A q → Dialogue Q A γ}
    (h : (d >>= f).Comes c (.ask q next)) :
    (∃ next', d.Comes c (.ask q next')) ∨
      ∃ b c₁ c₂, c = c₁ ++ c₂ ∧ d.Comes c₁ (.done b) ∧ (f b).Comes c₂ (.ask q next) := by
  rcases comes_bind h with ⟨d', hd, he⟩ | h
  · cases d' with
    | done b => exact .inr ⟨b, c, [], (List.append_nil c).symm, hd, he ▸ .stay _⟩
    | fail e => cases he
    | ask q' next' =>
      cases he
      exact .inl ⟨next', hd⟩
  · exact .inr h

/-! ### Parts of a run that call nothing -/

/-- **The objective is not called**, whatever the answers. -/
abbrev Descent.Silent (d : Descent α n β) : Prop :=
  d.Keeps (fun q => ¬ q.IsCall) (fun _ => True) fun _ => True

namespace Descent.Silent

variable {d : Descent α n β} {c : Course α n} {q : Request α n}

theorem not_comes {next : q.Answer → Descent α n β} (h : d.Silent) (hq : q.IsCall) :
    ¬ Dialogue.Comes d c (.ask q next) := fun hc => (h.comes hc).2.1 hq

/-- A call after a part that calls nothing. -/
theorem comes_bind {f : β → Descent α n γ} {next : q.Answer → Descent α n γ} (h : d.Silent)
    (hq : q.IsCall) (hc : Dialogue.Comes (d >>= f) c (.ask q next)) :
    ∃ b c₁ c₂, c = c₁ ++ c₂ ∧ d.Comes c₁ (.done b) ∧ (f b).Comes c₂ (.ask q next) := by
  rcases Dialogue.comes_bind_ask hc with ⟨next', hd⟩ | hlater
  · exact absurd hd (h.not_comes hq)
  · exact hlater

end Descent.Silent

variable [Scalar α] {s : Settings α} {st : State α n} {x0 x d g : Vec α n} {v step : α} {b : ℕ}
  {c : Course α n} {q : Request α n}

theorem silent_searchDirection [Solver α] : (searchDirection s st).Silent := by
  -- at most a remark comes before the direction, or before the fault
  have hremark (ridged : Bool) {direction : Descent α n (Vec α n)} (h : direction.Silent) :
      Descent.Silent (if ridged then Dialogue.ask (.remark (.ridged s.ridge)) fun _ => direction
        else direction) := by
    cases ridged with
    | true => exact .ask id fun _ => h
    | false => exact h
  rw [searchDirection_eq_solved]
  cases (st.solved s).solution with
  | none => exact hremark _ trivial
  | some p => exact hremark _ trivial

theorem silent_accept : (accept s st x v g b step).Silent := by
  have hreport : Descent.Silent (.ask (.record (st.recordTo (st.moved s x v g) b step)) fun _ =>
      .done (st.moved s x v g, movedEnding s st x v)) := .ask id fun _ => trivial
  rw [accept_eq]
  dsimp only
  split
  · exact hreport
  · exact .ask id fun _ => hreport

theorem silent_halt {ending : Ending} : (halt st b ending).Silent :=
  .ask id fun _ => trivial

theorem silent_closing (out : State α n × Ending) : (closing out).Silent :=
  .ask id fun _ => .ask id fun _ => trivial

/-! ### The calls of an iteration -/

/-- The trials that come to one more question. -/
theorem Ray.comes_shrink_ask (r : Ray α n) {limit k : ℕ}
    {next : q.Answer → Descent α n (Option (Trial α n))}
    (h : Dialogue.Comes (r.shrink Descent.value limit (r.trialAt k v)) c (.ask q next)) :
    ∃ vs, c = r.trials k vs ∧ q = .value (r.trialPoint (k + vs.length + 1)) := by
  induction limit generalizing k v c with
  | zero =>
    unfold shrink at h
    split at h <;> cases (Dialogue.comes_done h).2
  | succ limit ih =>
    by_cases hs : r.settled (r.trialAt k v) = true
    · rw [shrink_of_settled r _ hs] at h
      cases (Dialogue.comes_done h).2
    · rw [shrink_succ r limit (Bool.eq_false_iff.2 hs)] at h
      cases h with
      | stay => exact ⟨[], rfl, rfl⟩
      | @ask _ _ w c' _ h' =>
        obtain ⟨vs, rfl, hq⟩ := ih h'
        refine ⟨w :: vs, rfl, ?_⟩
        rw [hq, List.length_cons, Nat.add_right_comm k 1, Nat.add_assoc k]

/-- **The calls of an iteration** from state `st`: a call, and the exchanges of the iteration before
it. `v` and `g` are the answer at the full step, and `vs` are the values at the shorter steps. -/
inductive CallSite [Solver α] (s : Settings α) (st : State α n) : Course α n → Request α n → Prop
  /-- At the full step. -/
  | full {d : Vec α n} (hd : st.Leads s d) :
      CallSite s st (ridging s st) (.gradient (st.x + d))
  /-- At a trial. -/
  | trial {d g : Vec α n} {v : α} {vs : List α} (hd : st.Leads s d)
      (hlt : Scalar.lt v st.value = false) :
      CallSite s st (opening s st d v g ++ (st.ray s d).trials 0 vs)
        (.value ((st.ray s d).trialPoint (vs.length + 1)))
  /-- Once more at the trial that the search came to. -/
  | again {d g : Vec α n} {v : α} {vs : List α} (hd : st.Leads s d)
      (hlt : Scalar.lt v st.value = false) (hset : (st.ray s d).Settles 0 v vs) :
      CallSite s st (opening s st d v g ++ (st.ray s d).trials 0 vs)
        (.gradient ((st.ray s d).trialPoint vs.length))

/-- A search that goes on from the full step comes to a trial. -/
theorem exists_first_trial {st' : State α n} {limit : ℕ} (hlt : Scalar.lt v st'.value = false)
    (hlarge : withinTolerance s (v - st'.value) d = false)
    (hopen : (st'.ray s d).settled ((st'.ray s d).trialAt 0 v) = false)
    (hlimit : s.trialLimit = limit + 1) :
    ∃ next, afterFull s st' d v g = .ask (.value ((st'.ray s d).trialPoint 1)) next := by
  unfold afterFull
  rw [if_neg (Bool.eq_false_iff.1 hlt), if_neg (Bool.eq_false_iff.1 hlarge), hlimit, Ray.search_eq,
    Ray.shrink_succ _ limit hopen]
  exact ⟨_, rfl⟩

/-- After the full step: at a trial, or once more at the last. -/
theorem comes_afterFull_ask {st' : State α n} {next : q.Answer → Descent α n _} (hq : q.IsCall)
    (h : Dialogue.Comes (afterFull s st' d v g) c (.ask q next)) :
    Scalar.lt v st'.value = false ∧ ∃ vs, c = (st'.ray s d).trials 0 vs ∧
      (q = .value ((st'.ray s d).trialPoint (vs.length + 1)) ∨
        (st'.ray s d).Settles 0 v vs ∧ q = .gradient ((st'.ray s d).trialPoint vs.length)) := by
  unfold afterFull at h
  split at h
  · exact absurd h (silent_accept.not_comes hq)
  rename_i hlt
  split at h
  · exact absurd h (silent_halt.not_comes hq)
  refine ⟨Bool.eq_false_iff.2 hlt, ?_⟩
  rcases Dialogue.comes_bind_ask h with ⟨next', hsearch⟩ | ⟨found?, c₁, c₂, rfl, hsearch, hafter⟩
  · rw [Ray.search_eq] at hsearch
    rcases Dialogue.comes_bind_ask hsearch with ⟨next'', hshrink⟩ | ⟨t, _, _, -, -, hdone⟩
    · obtain ⟨vs, hc, hvalue⟩ := Ray.comes_shrink_ask _ hshrink
      rw [Nat.zero_add] at hvalue
      exact ⟨vs, hc, .inl hvalue⟩
    · cases (Dialogue.comes_done hdone).2
  · cases found? with
    | none => cases (Dialogue.comes_fail hafter).2
    | some found =>
      obtain ⟨vs, -, rfl, hset, rfl⟩ := Ray.comes_search _ hsearch
      refine ⟨vs, ?_⟩
      rw [afterSearch_eq] at hafter
      split at hafter
      · cases hafter with
        | stay => exact ⟨List.append_nil _, .inr ⟨hset, rfl⟩⟩
        | ask h' => exact absurd h' (silent_accept.not_comes hq)
      · have hsilent : Descent.Silent (.ask (.remark (.noDecrease st'.nit vs.length)) fun _ =>
            halt (st'.counted vs.length 0) vs.length .stepUnderflow) :=
          .ask id fun _ => silent_halt
        exact absurd hafter (hsilent.not_comes hq)

variable [Solver α]

/-- **An iteration calls the objective** at these places and nowhere else. -/
theorem callSite_of_iterate {next : q.Answer → Descent α n _} (hq : q.IsCall)
    (h : Dialogue.Comes (iterate s st) c (.ask q next)) : CallSite s st c q := by
  rw [iterate_eq] at h
  obtain ⟨d, c₁, c₂, rfl, hdir, hrest⟩ := silent_searchDirection.comes_bind hq h
  obtain ⟨hd, rfl⟩ := comes_searchDirection hdir
  cases hrest with
  | stay =>
    rw [List.append_nil]
    exact .full hd
  | @ask _ _ vg c' _ h' =>
    obtain ⟨hlt, vs, rfl, hplace⟩ := comes_afterFull_ask hq h'
    have hopen : ridging s st ++ ⟨.gradient (st.x + d), vg⟩ :: (st.ray s d).trials 0 vs =
        opening s st d vg.1 vg.2 ++ (st.ray s d).trials 0 vs := by
      rw [opening, List.append_assoc]
      rfl
    change CallSite s st (ridging s st ++ ⟨.gradient (st.x + d), vg⟩ :: (st.ray s d).trials 0 vs) q
    rw [hopen]
    rcases hplace with rfl | ⟨hset, rfl⟩
    · exact .trial hd hlt
    · exact .again hd hlt hset

/-- Nothing is told of an iteration before it is completed. -/
theorem CallSite.records_eq (h : CallSite s st c q) : records c = [] := by
  cases h with
  | full => exact records_ridging
  | trial | again => exact records_searching _ _

theorem CallSite.inner (h : CallSite s st c q) : ∀ e ∈ c, e.question.Inner := by
  cases h with
  | @full d =>
    intro e he
    exact inner_opening (x := d) (v := st.value) (g := d) e (List.mem_append_left _ he)
  | trial | again =>
    rw [List.forall_mem_append]
    exact ⟨inner_opening, inner_trials _ _ _⟩

/-! ### A run that has come to a call -/

/-- **A run that has come to the call** `q`: the exchanges before it, and the records of the
iterations completed. -/
inductive Interrupted (s : Settings α) (x0 : Vec α n) :
    Course α n → Request α n → List (Record α n) → Prop
  /-- At the starting point. -/
  | start : Interrupted s x0 [] (.gradient x0) []
  /-- Within an iteration. -/
  | within {c c' : Course α n} {st : State α n} {q : Request α n} (h : AtHead s x0 c st none)
      (hn : st.nit < s.maxiter) (hsite : CallSite s st c' q) :
      Interrupted s x0 (c ++ ⟨.stop, false⟩ :: c') q (records c)

/-- The loop from a head on, up to a call. -/
theorem interrupted_of_iterateUpTo {budget : ℕ} {c' : Course α n}
    {next : q.Answer → Descent α n _} (hat : AtHead s x0 c st none)
    (hb : st.nit + budget = s.maxiter) (hq : q.IsCall)
    (h : Dialogue.Comes (iterateUpTo s budget st) c' (.ask q next)) :
    ∃ rs, Interrupted s x0 (c ++ c') q rs := by
  induction budget generalizing c st c' with
  | zero => cases (Dialogue.comes_done h).2
  | succ budget ih =>
    rw [iterateUpTo_succ] at h
    have hn : st.nit < s.maxiter := by omega
    cases h with
    | stay => exact hq.elim
    | @ask _ _ stop c'' _ h' =>
      cases stop with
      | true => cases (Dialogue.comes_done h').2
      | false =>
        simp only [Bool.false_eq_true, if_false] at h'
        rcases Dialogue.comes_bind_ask h' with ⟨next', hi⟩ | ⟨⟨st', e⟩, c₁, c₂, rfl, h₁, h₂⟩
        · exact ⟨_, .within hat hn (callSite_of_iterate hq hi)⟩
        · cases e with
          | some ending => cases (Dialogue.comes_done h₂).2
          | none =>
            have hb' : st'.nit + budget = s.maxiter := by
              rw [(passage_of_iterate h₁).nit_eq]
              omega
            obtain ⟨rs, hrs⟩ := ih (hat.next hn h₁) hb' h₂
            exact ⟨rs, by simpa using hrs⟩

/-- **Every run that has come to a call** is at its starting point, or within an iteration. -/
theorem interrupted_of_comes {next : q.Answer → Descent α n (Result α n)} (hq : q.IsCall)
    (h : Dialogue.Comes (minimize s x0) c (.ask q next)) : ∃ rs, Interrupted s x0 c q rs := by
  rw [minimize_eq] at h
  cases h with
  | stay => exact ⟨_, .start⟩
  | @ask _ _ vg c' _ h₁ =>
    by_cases hfin : (Scalar.isFinite vg.1 && allFinite vg.2) = true
    · simp only [hfin, Bool.not_true, Bool.false_eq_true, if_false] at h₁
      cases h₁ with
      | stay => exact hq.elim
      | ask h₂ =>
        cases h₂ with
        | stay => exact hq.elim
        | ask h₃ =>
          rcases Dialogue.comes_bind_ask h₃ with ⟨next', hloop⟩ | ⟨out, c₁, c₂, -, -, hclose⟩
          · exact interrupted_of_iterateUpTo (.start hfin) (Nat.zero_add _) hq hloop
          · exact absurd hclose ((silent_closing out).not_comes hq)
    · simp only [hfin, Bool.not_false, if_true] at h₁
      cases (Dialogue.comes_fail h₁).2

namespace Interrupted

variable {rs : List (Record α n)}

/-- **The records are those of the iterations completed.** -/
theorem records_eq (h : Interrupted s x0 c q rs) : records c = rs := by
  cases h with
  | start => rfl
  | @within c c' st q _ _ hsite =>
    have hnone : records (⟨.stop, false⟩ :: c') = [] := hsite.records_eq
    rw [records_append, hnone, List.append_nil]

/-- Nobody is told of a result. -/
theorem unfinished (h : Interrupted s x0 c q rs) : ∀ e ∈ c, ∀ r, e.question ≠ .finish r := by
  cases h with
  | start => nofun
  | within hat _ hsite =>
    rw [List.forall_mem_append, List.forall_mem_cons]
    refine ⟨hat.unfinished, by simp, fun e he r hfinish => ?_⟩
    have hinner := hsite.inner e he
    rw [hfinish] at hinner
    exact hinner

end Interrupted

/-- An iteration that is completed is reported once. -/
theorem Passage.records_eq {st' : State α n} {e : Option Ending} (h : Passage s st c st' e) :
    ∃ k step, records c = [st.recordTo st' k step] := by
  cases h with
  | full _ _ hst hc =>
    rw [hc, records_append, records_opening, records_moving, hst]
    exact ⟨0, 1, rfl⟩
  | shrunk _ _ _ _ _ _ _ _ hst hc =>
    rw [hc, records_append, records_searching, hst]
    exact ⟨_, _, records_moving⟩
  | still h =>
    cases h with
    | stationary _ _ _ _ hc =>
      rw [hc, records_append, records_opening]
      exact ⟨0, 0, rfl⟩
    | underflow _ _ _ _ _ _ _ hc =>
      rw [hc, records_append, records_searching]
      exact ⟨_, 0, rfl⟩

/-- **The iterations completed at a head** are numbered from zero on. -/
theorem AtHead.numbers_eq {e : Option Ending} (h : AtHead s x0 c st e) :
    (records c).map Record.iteration = List.range (st.nit + 1) := by
  induction h with
  | start => rfl
  | next _ _ hi ih =>
    have hpass := passage_of_iterate hi
    obtain ⟨k, step, hrec⟩ := hpass.records_eq
    rw [records_next hrec, List.map_append, ih, hpass.nit_eq, List.range_succ (n := _ + 1),
      ← hpass.nit_eq]
    rfl

theorem Interrupted.numbers_eq {rs : List (Record α n)} (h : Interrupted s x0 c q rs) :
    rs.map Record.iteration = List.range rs.length := by
  cases h with
  | start => rfl
  | @within c c' st q hat _ _ =>
    have hlen := congrArg List.length hat.numbers_eq
    rw [List.length_map, List.length_range] at hlen
    rw [hat.numbers_eq, hlen]

theorem AtHead.one_le_calls {e : Option Ending} (h : AtHead s x0 c st e) : 1 ≤ calls c := by
  induction h with
  | start => exact le_rfl
  | next _ _ _ ih =>
    rw [calls_append]
    omega

/-- A trial comes after the starting point and a full step. -/
theorem Interrupted.two_le_calls {rs : List (Record α n)} (h : Interrupted s x0 c (.value x) rs) :
    2 ≤ calls c := by
  cases h with
  | @within c c' st q hat _ hsite =>
    have hone := hat.one_le_calls
    cases hsite with
    | @trial d g v vs =>
      have hopening : calls (opening s st d v g) = 1 := by
        rw [calls, asked_opening]
        rfl
      rw [calls_append, ← List.singleton_append, calls_append, calls_append, hopening]
      omega

end VariableMetric
