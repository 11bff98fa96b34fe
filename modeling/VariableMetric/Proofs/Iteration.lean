import VariableMetric.Proofs.Search

/-!
# What an iteration can do

An iteration solves for a direction, asks for value and gradient at the full step, and then does one
of four things. Everything that is proved of runs is proved from this list.

* `State.moved`: the state after going on to an accepted point.
* `Passage`: **the four courses of an iteration**, with the state it leads to and the ending, if the
  run ends there. It moves on at once (`full`) or by a shorter step (`shrunk`), or stays (`still`).
* `Standstill`: the two ways to stay, `stationary` and `underflow`.
* `passage_of_iterate`: every iteration that comes to an end is one of them.
-/

namespace VariableMetric

variable {α : Type} [Scalar α] {n : ℕ}

namespace State

/-- The state with one more iteration begun. -/
def begun (st : State α n) : State α n := { st with nit := st.nit + 1 }

/-- **The state at an accepted point**, the curvature matrix corrected for the step there. -/
def moved (s : Settings α) (st : State α n) (x : Vec α n) (v : α) (g : Vec α n) : State α n :=
  { st with
    x := x, value := v, gradient := g
    hessian := (secantUpdate st.hessian (x - st.x) (g - st.gradient) s.curvatureTol).matrix
    history := if s.history then st.history ++ [x] else st.history }

/-- The solution that the direction is taken from, and whether it needed a ridge. -/
def solved [Solver α] (s : Settings α) (st : State α n) : Solved (Vec α n) :=
  solveRidged st.hessian st.gradient s.ridge

/-- The search of an iteration along a direction. -/
def ray (s : Settings α) (st : State α n) (d : Vec α n) : Ray α n :=
  ⟨st.x, d, st.value, s.backtrack, s.minStep⟩

end State

/-- `d` is the direction of the full step from `st`: minus the solution. -/
def State.Leads [Solver α] (s : Settings α) (st : State α n) (d : Vec α n) : Prop :=
  ∃ p, (st.solved s).solution = some p ∧ d = -p

/-- The exchanges before the direction is known: a remark if a ridge was needed. -/
def ridging [Solver α] (s : Settings α) (st : State α n) : Course α n :=
  if (st.solved s).ridged then [⟨.remark (.ridged s.ridge), ()⟩] else []

/-- The exchanges up to the answer at the full step. -/
def opening [Solver α] (s : Settings α) (st : State α n) (d : Vec α n) (v : α) (g : Vec α n) :
    Course α n :=
  ridging s st ++ [⟨.gradient (st.x + d), (v, g)⟩]

/-- The exchanges at an accepted point. A remark comes first if the update is left out. -/
def moving (s : Settings α) (st : State α n) (x : Vec α n) (v : α) (g : Vec α n) (backtracks : ℕ)
    (step : α) : Course α n :=
  let u := secantUpdate st.hessian (x - st.x) (g - st.gradient) s.curvatureTol
  (if u.applied then []
    else [⟨.remark (.updateSkipped u.curvature.along u.curvature.model), ()⟩]) ++
    [⟨.record (st.recordTo (st.moved s x v g) backtracks step), ()⟩]

/-- The ending at an accepted point: none, unless the value and the point have changed little. -/
def movedEnding (s : Settings α) (st : State α n) (x : Vec α n) (v : α) : Option Ending :=
  if withinTolerance s (v - st.value) (x - st.x) then some .converged else none

/-- **How an iteration stays where it is**: its exchanges, the state that it leaves, and its ending.
`d` is the direction, and `v` and `g` are the answer at the full step; `vs` are the values at the
shorter steps. -/
inductive Standstill [Solver α] (s : Settings α) (st : State α n) :
    Course α n → State α n → Ending → Prop
  /-- The full step changes little and decreases nothing. -/
  | stationary {d g : Vec α n} {v : α} {c : Course α n} {st' : State α n}
      (hd : st.Leads s d) (hlt : Scalar.lt v st.value = false)
      (hsmall : withinTolerance s (v - st.value) d = true)
      (hst : st' = st.begun.counted 0 1)
      (hc : c = opening s st d v g ++ [⟨.record (st.recordTo st' 0 0), ()⟩]) :
      Standstill s st c st' .converged
  /-- No step decreases the value. -/
  | underflow {d g : Vec α n} {v : α} {vs : List α} {c : Course α n} {st' : State α n}
      (hd : st.Leads s d) (hlt : Scalar.lt v st.value = false)
      (hlarge : withinTolerance s (v - st.value) d = false)
      (hset : (st.ray s d).Settles 0 v vs) (hlen : vs.length ≤ s.trialLimit)
      (hfail : Scalar.lt 0 ((st.ray s d).stepOf vs.length ((v :: vs).getLast (by simp))) = false)
      (hst : st' = st.begun.counted vs.length 1)
      (hc : c = opening s st d v g ++ (st.ray s d).trials 0 vs ++
        [⟨.remark (.noDecrease st'.nit vs.length), ()⟩,
          ⟨.record (st.recordTo st' vs.length 0), ()⟩]) :
      Standstill s st c st' .stepUnderflow

/-- **What an iteration can do** from state `st`: its exchanges, the state that it leads to, and the
ending if it is the last. -/
inductive Passage [Solver α] (s : Settings α) (st : State α n) :
    Course α n → State α n → Option Ending → Prop
  /-- The full step decreases the value. -/
  | full {d g : Vec α n} {v : α} {c : Course α n} {st' : State α n} {e : Option Ending}
      (hd : st.Leads s d) (hlt : Scalar.lt v st.value = true)
      (hst : st' = (st.begun.counted 0 1).moved s (st.x + d) v g)
      (hc : c = opening s st d v g ++ moving s (st.begun.counted 0 1) (st.x + d) v g 0 1)
      (he : e = movedEnding s st (st.x + d) v) : Passage s st c st' e
  /-- A shorter step decreases the value, to `a`. The value there is asked for again, with the
  gradient. -/
  | shrunk {d g x g' : Vec α n} {v a v' : α} {vs : List α} {c : Course α n} {st' : State α n}
      {e : Option Ending}
      (hd : st.Leads s d) (hlt : Scalar.lt v st.value = false)
      (hlarge : withinTolerance s (v - st.value) d = false)
      (hset : (st.ray s d).Settles 0 v vs) (hlen : vs.length ≤ s.trialLimit)
      (ha : a = (v :: vs).getLast (by simp))
      (hx : x = (st.ray s d).trialPoint vs.length)
      (hacc : Scalar.lt 0 ((st.ray s d).stepOf vs.length a) = true)
      (hst : st' = (st.begun.counted vs.length 2).moved s x v' g')
      (hc : c = opening s st d v g ++ (st.ray s d).trials 0 vs ++ ⟨.gradient x, (v', g')⟩ ::
        moving s (st.begun.counted vs.length 2) x v' g' vs.length ((st.ray s d).stepOf vs.length a))
      (he : e = movedEnding s st x v') : Passage s st c st' e
  /-- It stays where it is. -/
  | still {c : Course α n} {st' : State α n} {ending : Ending}
      (h : Standstill s st c st' ending) : Passage s st c st' (some ending)

/-- The part of an iteration that follows the search. -/
def afterSearch (s : Settings α) (st : State α n) :
    Option (Searched α n) → Descent α n (State α n × Option Ending)
  | none => .fail .searchUnfinished
  | some found =>
    if found.success then do
      let (v, g) ← Descent.gradient found.x
      accept s ((st.counted found.nfev 0).counted 0 1) found.x v g found.backtracks found.step
    else do
      Descent.remark (.noDecrease st.nit found.backtracks)
      halt (st.counted found.nfev 0) found.backtracks .stepUnderflow

/-- The part of an iteration that follows the answer at the full step. -/
def afterFull (s : Settings α) (st : State α n) (d : Vec α n) (v : α) (g : Vec α n) :
    Descent α n (State α n × Option Ending) :=
  if Scalar.lt v st.value then accept s st (st.x + d) v g 0 1
  else if withinTolerance s (v - st.value) d then halt st 0 .converged
  else (st.ray s d).search Descent.value (some v) s.trialLimit >>= afterSearch s st

/-- The direction, taken from the solution. -/
theorem searchDirection_eq_solved [Solver α] (s : Settings α) (st : State α n) :
    searchDirection s st =
      let direction : Descent α n (Vec α n) :=
        match (st.solved s).solution with
        | some p => .done (-p)
        | none => .fail .singular
      if (st.solved s).ridged then
        Dialogue.ask (.remark (.ridged s.ridge)) fun _ => direction
      else direction := by
  unfold searchDirection State.solved
  dsimp only
  cases (solveRidged st.hessian st.gradient s.ridge).ridged <;> rfl

theorem iterate_eq [Solver α] (s : Settings α) (st : State α n) :
    iterate s st = searchDirection s st >>= fun d =>
      Dialogue.ask (.gradient (st.x + d)) fun vg =>
        afterFull s (st.begun.counted 0 1) d vg.1 vg.2 := rfl

/-- Going on to an accepted point, with its report. -/
theorem accept_eq (s : Settings α) (st : State α n) (x : Vec α n) (v : α) (g : Vec α n) (b : ℕ)
    (step : α) :
    accept s st x v g b step =
      let u := secantUpdate st.hessian (x - st.x) (g - st.gradient) s.curvatureTol
      let report : Descent α n (State α n × Option Ending) :=
        Dialogue.ask (.record (st.recordTo (st.moved s x v g) b step)) fun _ =>
          .done (st.moved s x v g, movedEnding s st x v)
      if u.applied then report
      else Dialogue.ask (.remark (.updateSkipped u.curvature.along u.curvature.model)) fun _ =>
        report := by
  unfold accept
  dsimp only
  cases (secantUpdate st.hessian (x - st.x) (g - st.gradient) s.curvatureTol).applied <;> rfl

omit [Scalar α] in
theorem counted_counted (st : State α n) (a b a' b' : ℕ) :
    (st.counted a b).counted a' b' = st.counted (a + a') (b + b') := by
  simp only [State.counted, State.mk.injEq, true_and, and_true]
  omega

/-- What follows a search that came to trial `k` with value `a`. -/
theorem afterSearch_eq (s : Settings α) (st : State α n) (r : Ray α n) (k : ℕ) (a : α) :
    afterSearch s st (some (r.conclude 0 (r.trialAt k a))) =
      if Scalar.lt 0 (r.stepOf k a) then
        Dialogue.ask (.gradient (r.trialPoint k)) fun vg : α × Vec α n =>
          accept s (st.counted k 1) (r.trialPoint k) vg.1 vg.2 k (r.stepOf k a)
      else Dialogue.ask (.remark (.noDecrease st.nit k)) fun _ =>
        halt (st.counted k 0) k .stepUnderflow := by
  have hasked : (r.conclude 0 (r.trialAt k a)).nfev = k := Nat.zero_add k
  simp only [afterSearch, hasked, counted_counted, Nat.add_zero, Nat.zero_add]
  rfl

section Courses

variable {s : Settings α} {st st' : State α n} {c : Course α n} {d x g : Vec α n} {v : α}
  {e : Option Ending}

theorem comes_searchDirection [Solver α] (h : Dialogue.Comes (searchDirection s st) c (.done d)) :
    st.Leads s d ∧ c = ridging s st := by
  unfold searchDirection at h
  unfold ridging State.Leads State.solved
  cases hp : (solveRidged st.hessian st.gradient s.ridge).solution with
  | none =>
    simp only [hp] at h
    split at h
    · obtain ⟨a, c', rfl, h'⟩ := Dialogue.comes_ask h
      cases (Dialogue.comes_fail h').2
    · cases (Dialogue.comes_fail h).2
  | some p =>
    simp only [hp] at h
    split at h
    · rename_i hr
      obtain ⟨a, c', rfl, h'⟩ := Dialogue.comes_ask h
      obtain ⟨rfl, hd⟩ := Dialogue.comes_done h'
      cases hd
      exact ⟨⟨p, rfl, rfl⟩, (if_pos hr).symm⟩
    · rename_i hr
      obtain ⟨rfl, hd⟩ := Dialogue.comes_done h
      cases hd
      exact ⟨⟨p, rfl, rfl⟩, (if_neg hr).symm⟩

theorem comes_accept {b : ℕ} {step : α}
    (h : Dialogue.Comes (accept s st x v g b step) c (.done (st', e))) :
    st' = st.moved s x v g ∧ c = moving s st x v g b step ∧ e = movedEnding s st x v := by
  -- the report is the same whether a remark came before it or not
  have key : ∀ c', Dialogue.Comes (Descent.record (st.recordTo (st.moved s x v g) b step) >>=
      fun _ => .done (st.moved s x v g, movedEnding s st x v)) c' (.done (st', e)) →
      st' = st.moved s x v g ∧ e = movedEnding s st x v ∧
        c' = [⟨.record (st.recordTo (st.moved s x v g) b step), ()⟩] := by
    intro c' h'
    obtain ⟨a, c'', rfl, h''⟩ := Dialogue.comes_ask h'
    obtain ⟨rfl, hout⟩ := Dialogue.comes_done h''
    cases hout
    exact ⟨rfl, rfl, rfl⟩
  unfold accept at h
  unfold moving
  by_cases hu : (secantUpdate st.hessian (x - st.x) (g - st.gradient) s.curvatureTol).applied = true
  · simp only [hu, Bool.not_true, Bool.false_eq_true, if_false] at h
    obtain ⟨hst, he, rfl⟩ := key c h
    exact ⟨hst, by simp only [hu, if_true, List.nil_append], he⟩
  · simp only [hu, Bool.not_false, if_true] at h
    obtain ⟨a, c', rfl, h'⟩ := Dialogue.comes_ask h
    obtain ⟨hst, he, rfl⟩ := key c' h'
    refine ⟨hst, ?_, he⟩
    simp only [hu, Bool.false_eq_true, if_false, List.cons_append, List.nil_append]

theorem comes_halt {b : ℕ} {ending : Ending}
    (h : Dialogue.Comes (halt st b ending) c (.done (st', e))) :
    st' = st ∧ c = [⟨.record (st.recordTo st b 0), ()⟩] ∧ e = some ending := by
  obtain ⟨a, c', rfl, h'⟩ := Dialogue.comes_ask h
  obtain ⟨rfl, hout⟩ := Dialogue.comes_done h'
  cases hout
  exact ⟨rfl, rfl, rfl⟩

/-- **After a search** that came to trial `k` with value `a`: on to its point, or no further. -/
theorem comes_afterSearch {r : Ray α n} {k : ℕ} {a : α}
    (h : Dialogue.Comes (afterSearch s st (some (r.conclude 0 (r.trialAt k a)))) c
      (.done (st', e))) :
    (Scalar.lt 0 (r.stepOf k a) = true ∧ ∃ v' g',
      st' = (st.counted k 1).moved s (r.trialPoint k) v' g' ∧
      c = ⟨.gradient (r.trialPoint k), (v', g')⟩ ::
        moving s (st.counted k 1) (r.trialPoint k) v' g' k (r.stepOf k a) ∧
      e = movedEnding s st (r.trialPoint k) v') ∨
    (Scalar.lt 0 (r.stepOf k a) = false ∧ st' = st.counted k 0 ∧
      c = [⟨.remark (.noDecrease st.nit k), ()⟩, ⟨.record (st.recordTo st' k 0), ()⟩] ∧
      e = some .stepUnderflow) := by
  rw [afterSearch_eq] at h
  split at h
  · rename_i hacc
    obtain ⟨⟨v', g'⟩, c', rfl, h'⟩ := Dialogue.comes_ask h
    obtain ⟨hst, rfl, he⟩ := comes_accept h'
    exact .inl ⟨hacc, v', g', hst, rfl, he⟩
  · rename_i hfail
    obtain ⟨a, c', rfl, h'⟩ := Dialogue.comes_ask h
    obtain ⟨rfl, rfl, he⟩ := comes_halt h'
    exact .inr ⟨Bool.eq_false_iff.2 hfail, rfl, rfl, he⟩

/-- **Every iteration** that comes to an end takes one of these courses. -/
theorem passage_of_iterate [Solver α] (h : Dialogue.Comes (iterate s st) c (.done (st', e))) :
    Passage s st c st' e := by
  rw [iterate_eq] at h
  obtain ⟨d, c₁, c₂, rfl, h₁, h₂⟩ := Dialogue.comes_bind_done h
  obtain ⟨hd, rfl⟩ := comes_searchDirection h₁
  obtain ⟨⟨v, g⟩, c₃, rfl, h₃⟩ := Dialogue.comes_ask h₂
  have hopen (c' : Course α n) :
      ridging s st ++ ⟨.gradient (st.x + d), (v, g)⟩ :: c' = opening s st d v g ++ c' := by
    rw [opening, List.append_assoc]
    rfl
  rw [hopen]
  unfold afterFull at h₃
  split at h₃
  · rename_i hlt
    obtain ⟨hst, rfl, he⟩ := comes_accept h₃
    exact .full hd hlt hst rfl he
  rename_i hlt
  replace hlt := Bool.eq_false_iff.2 hlt
  split at h₃
  · rename_i hsmall
    obtain ⟨rfl, rfl, he⟩ := comes_halt h₃
    exact he ▸ .still (.stationary hd hlt hsmall rfl rfl)
  rename_i hlarge
  replace hlarge := Bool.eq_false_iff.2 hlarge
  obtain ⟨found?, c₄, c₅, rfl, h₄, h₅⟩ := Dialogue.comes_bind_done h₃
  cases found? with
  | none => cases (Dialogue.comes_fail h₅).2
  | some found =>
    obtain ⟨vs, hlen, rfl, hset, rfl⟩ := Ray.comes_search _ h₄
    rcases comes_afterSearch h₅ with ⟨hacc, v', g', hst, rfl, he⟩ | ⟨hfail, hst, rfl, he⟩
    · rw [counted_counted, Nat.zero_add] at hst
      refine .shrunk (g := g) hd hlt hlarge hset hlen rfl rfl hacc hst ?_ he
      rw [counted_counted, Nat.zero_add, List.append_assoc]
      rfl
    · rw [counted_counted, Nat.zero_add] at hst
      rw [he]
      refine .still (.underflow (g := g) hd hlt hlarge hset hlen hfail hst ?_)
      rw [hst, List.append_assoc]
      rfl

/-! ### Every course is taken -/

theorem searchDirection_comes [Solver α] (h : st.Leads s d) :
    Dialogue.Comes (searchDirection s st) (ridging s st) (.done d) := by
  obtain ⟨p, hp, rfl⟩ := h
  unfold searchDirection ridging
  simp only [State.solved] at hp ⊢
  by_cases hr : (solveRidged st.hessian st.gradient s.ridge).ridged = true
  · simp only [hr, hp, if_true]
    exact .ask (.stay _)
  · simp only [hr, hp, Bool.false_eq_true, if_false]
    exact .stay _

theorem accept_comes {b : ℕ} {step : α} :
    Dialogue.Comes (accept s st x v g b step) (moving s st x v g b step)
      (.done (st.moved s x v g, movedEnding s st x v)) := by
  unfold accept moving
  by_cases hu : (secantUpdate st.hessian (x - st.x) (g - st.gradient) s.curvatureTol).applied = true
  · simp only [hu, Bool.not_true, Bool.false_eq_true, if_false, if_true, List.nil_append]
    exact .ask (.stay _)
  · simp only [hu, Bool.not_false, if_true]
    exact .ask (.ask (.stay _))

theorem halt_comes {b : ℕ} {ending : Ending} :
    Dialogue.Comes (halt st b ending) [⟨.record (st.recordTo st b 0), ()⟩]
      (.done (st, some ending)) := .ask (.stay _)

/-- The iteration up to the answer at the full step. -/
theorem iterate_opens [Solver α] (hd : st.Leads s d) (v : α) (g : Vec α n) :
    Dialogue.Comes (iterate s st) (opening s st d v g)
      (afterFull s (st.begun.counted 0 1) d v g) := by
  rw [iterate_eq]
  exact ((searchDirection_comes hd).bind _).trans (.ask (.stay _))

/-- The iteration up to the end of its search. -/
theorem iterate_searches [Solver α] {vs : List α} (hd : st.Leads s d)
    (hlt : Scalar.lt v st.value = false) (hlarge : withinTolerance s (v - st.value) d = false)
    (hset : (st.ray s d).Settles 0 v vs) (hlen : vs.length ≤ s.trialLimit) :
    Dialogue.Comes (iterate s st) (opening s st d v g ++ (st.ray s d).trials 0 vs)
      (afterSearch s (st.begun.counted 0 1)
        (some ((st.ray s d).conclude 0
          ((st.ray s d).trialAt vs.length ((v :: vs).getLast (by simp)))))) := by
  have hafter : afterFull s (st.begun.counted 0 1) d v g =
      (st.ray s d).search Descent.value (some v) s.trialLimit >>=
        afterSearch s (st.begun.counted 0 1) := by
    unfold afterFull
    exact (if_neg (Bool.eq_false_iff.1 hlt)).trans (if_neg (Bool.eq_false_iff.1 hlarge))
  refine (iterate_opens hd v g).trans ?_
  rw [hafter]
  exact ((st.ray s d).search_comes hset hlen).bind _

/-- **An iteration takes each of its courses.** -/
theorem iterate_comes [Solver α] (h : Passage s st c st' e) :
    Dialogue.Comes (iterate s st) c (.done (st', e)) := by
  cases h with
  | @full d g v c st' e hd hlt hst hc he =>
    have hafter : afterFull s (st.begun.counted 0 1) d v g =
        accept s (st.begun.counted 0 1) (st.x + d) v g 0 1 := if_pos hlt
    subst hst hc he
    refine (iterate_opens hd v g).trans ?_
    rw [hafter]
    exact accept_comes
  | @shrunk d g x g' v a v' vs c st' e hd hlt hlarge hset hlen ha hx hacc hst hc he =>
    subst hst hc he ha hx
    refine (iterate_searches hd hlt hlarge hset hlen).trans ?_
    rw [afterSearch_eq, if_pos hacc, counted_counted, Nat.zero_add]
    exact .ask accept_comes
  | @still c st' ending h =>
    cases h with
    | @stationary d g v c st' hd hlt hsmall hst hc =>
      have hafter : afterFull s (st.begun.counted 0 1) d v g =
          halt (st.begun.counted 0 1) 0 .converged :=
        (if_neg (Bool.eq_false_iff.1 hlt)).trans (if_pos hsmall)
      subst hst hc
      refine (iterate_opens hd v g).trans ?_
      rw [hafter]
      exact halt_comes
    | @underflow d g v vs c st' hd hlt hlarge hset hlen hfail hst hc =>
      subst hst hc
      refine (iterate_searches hd hlt hlarge hset hlen).trans ?_
      rw [afterSearch_eq, if_neg (Bool.eq_false_iff.1 hfail), counted_counted, Nat.zero_add]
      exact .ask halt_comes

end Courses

/-! ### What an iteration keeps to -/

section Keeping

variable {ok : Request α n → Prop} {bad : Fault → Prop} {fine : State α n × Option Ending → Prop}
  {s : Settings α} {st : State α n} {d x g : Vec α n} {v : α}
  (hok : ∀ q : Request α n, (∀ ridge, q ≠ .remark (.ridged ridge)) → ok q)
include hok

/-- Going on to an accepted point, where every request is allowed but the remark on a ridge. -/
theorem keeps_accept {b : ℕ} {step : α} (h : fine (st.moved s x v g, movedEnding s st x v)) :
    (accept s st x v g b step).Keeps ok bad fine := by
  have hreport : (Descent.record (st.recordTo (st.moved s x v g) b step) >>= fun _ =>
      .done (st.moved s x v g, movedEnding s st x v)).Keeps ok bad fine :=
    .ask (hok _ (by simp)) fun _ => h
  rw [accept_eq]
  dsimp only
  split
  · exact hreport
  · exact .ask (hok _ (by simp)) fun _ => hreport

theorem keeps_halt {b : ℕ} {ending : Ending} (h : fine (st, some ending)) :
    (halt st b ending).Keeps ok bad fine :=
  .ask (hok _ (by simp)) fun _ => h

/-- **What follows the answer at the full step**, if the search keeps to the same. -/
theorem keeps_afterFull {trial : Option (Trial α n) → Prop}
    (hsearch : ((st.ray s d).shrink Descent.value s.trialLimit
      ((st.ray s d).trialAt 0 v)).Keeps ok bad trial)
    (hunfinished : trial none → bad .searchUnfinished)
    (hstay : ∀ a b ending, fine (st.counted a b, some ending))
    (hmove : ∀ a b x v g e, fine ((st.counted a b).moved s x v g, e)) :
    (afterFull s st d v g).Keeps ok bad fine := by
  unfold afterFull
  split
  · exact keeps_accept hok (hmove 0 0 _ v g _)
  split
  · exact keeps_halt hok (hstay 0 0 _)
  rw [Ray.search_eq, Dialogue.bind_assoc]
  refine hsearch.bind fun t ht => ?_
  cases t with
  | none => exact hunfinished ht
  | some t =>
    simp only [Dialogue.done_bind, Option.map_some, afterSearch]
    split
    · refine .ask (hok _ (by simp)) fun vg => ?_
      rw [counted_counted]
      exact keeps_accept hok (hmove _ _ _ _ _ _)
    · exact .ask (hok _ (by simp)) fun _ => keeps_halt hok (hstay _ _ _)

end Keeping

end VariableMetric
