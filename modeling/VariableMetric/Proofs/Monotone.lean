import VariableMetric.Proofs.Extended
import VariableMetric.Proofs.Oracle

/-!
# Monotone descent

A run on an objective that answers alike with and without a gradient, over any arithmetic whose
comparisons are those of an order. Values may be infinite wherever the run goes, or NaN, the one
value that is not comparable (`Extended.le_self_iff`, `Double.le_self_iff`).

* `Exchange.Agrees`: the answer is that of the objective.
* `Record.Follows`: **the law of two iterations**: the value falls with a step, and without one
  nothing changes.
* `Descended`: what holds at every head of the loop. One iteration keeps it (`Descended.next`), and
  so do all (`AtHead.descended`).
* `monotone_descent`: what holds of every run that returns.
-/

namespace VariableMetric

open Course

variable {α : Type} [Scalar α] {n : ℕ} {f : Vec α n → α}

/-- The answer is that of the objective `f`, with or without a gradient. -/
def Exchange.Agrees (f : Vec α n → α) : Exchange (Request α n) Request.Answer → Prop
  | ⟨.value x, v⟩ => v = f x
  | ⟨.gradient x, a⟩ => a.1 = f x
  | _ => True

/-- **The law of two iterations**, `q` after `p`. -/
def Record.Follows (p q : Record α n) : Prop :=
  Scalar.lt 0 q.step = true ∧ Scalar.lt q.value p.value = true ∨
    q.step = 0 ∧ q.value = p.value ∧ q.x = p.x

omit [Scalar α] in
theorem Course.Tells.eq_of_agrees {c : Course α n} {x : Vec α n} {v : α} (h : c.Tells x v)
    (hf : ∀ q ∈ c, q.Agrees f) : v = f x := by
  rcases h with h | ⟨g, h⟩
  · exact hf _ h
  · exact hf _ h

omit [Scalar α] in
/-- The answers of a deterministic objective whose two modes agree. -/
theorem Exchange.By.agrees {o : Oracle α n} {q : Exchange (Request α n) Request.Answer}
    (h : q.By o) (ho : ∀ x, (o.jet x).1 = o.value x) : q.Agrees o.value := by
  obtain ⟨q, a⟩ := q
  cases q with
  | value x => exact h
  | gradient x => exact (congrArg Prod.fst h).trans (ho x)
  | stop | remark | record | finish => trivial

variable {s : Settings α} {x0 : Vec α n} {c : Course α n} {st : State α n} {e : Option Ending}

/-- **What holds at every head of the loop** of a run from `x0`. -/
structure Descended (f : Vec α n → α) (x0 : Vec α n) (c : Course α n) (st : State α n) : Prop where
  value_eq : st.value = f st.x
  comparable : ∀ q ∈ records c, Scalar.le q.value q.value = true
  follows : (records c).IsChain Record.Follows
  falls : ((accepted c).map Prod.fst).Pairwise fun x y => Scalar.lt (f y) (f x) = true
  below : (st.x = x0 ∧ ∀ q ∈ records c, q.step = 0) ∨
    Scalar.lt st.value (f x0) = true ∧ ∃ q ∈ records c, Scalar.lt 0 q.step = true

namespace Descended

theorem le_self (h : Descended f x0 c st) (htold : Told s c st) :
    Scalar.le st.value st.value = true := by
  obtain ⟨⟨rs, q, hrs, -, -, hqv⟩, -, -⟩ := htold
  have hq : q ∈ records c := by
    rw [hrs]
    exact List.mem_append_right _ (List.mem_singleton_self q)
  exact hqv ▸ h.comparable q hq

theorem eq_start (h : Descended f x0 c st) (hnot : Scalar.lt st.value (f x0) = false) :
    st.value = f x0 := by
  rcases h.below with ⟨hx, -⟩ | ⟨hlt, -⟩
  · rw [h.value_eq, hx]
  · exact absurd (hnot.symm.trans hlt) Bool.false_ne_true

variable [Scalar.Ordered α]

/-- The value is not above that of the start. -/
theorem le_start (h : Descended f x0 c st) (htold : Told s c st) :
    Scalar.le st.value (f x0) = true := by
  rcases h.below with ⟨hx, -⟩ | ⟨hlt, -⟩
  · rw [← hx, ← h.value_eq]
    exact h.le_self htold
  · exact Scalar.le_of_lt hlt

/-- The value is that of the start as long as no step was accepted. -/
theorem eq_start_iff (h : Descended f x0 c st) :
    st.value = f x0 ↔ (∀ q ∈ records c, q.step = 0) ∧ st.x = x0 := by
  rcases h.below with ⟨hx, hall⟩ | ⟨hlt, q, hq, hstep⟩
  · refine ⟨fun _ => ⟨hall, hx⟩, fun _ => ?_⟩
    rw [h.value_eq, hx]
  · constructor
    · intro heq
      rw [heq, Scalar.lt_irrefl] at hlt
      cases hlt
    · rintro ⟨hall, -⟩
      rw [hall q hq, Scalar.lt_irrefl] at hstep
      cases hstep

/-- A point whose value is below that of the last accepted point is below all of them. -/
theorem falls_concat (h : Descended f x0 c st) (htold : Told s c st) {x : Vec α n} (g : Vec α n)
    (hnew : Scalar.lt (f x) (f st.x) = true) :
    ((accepted c ++ [(x, g)]).map Prod.fst).Pairwise fun x y => Scalar.lt (f y) (f x) = true := by
  obtain ⟨-, ⟨ps, hps⟩, -⟩ := htold
  have hfalls := h.falls
  rw [hps, List.map_append, List.map_singleton] at hfalls
  rw [hps, List.map_append, List.map_append, List.map_singleton, List.map_singleton,
    List.pairwise_append]
  refine ⟨hfalls, List.pairwise_singleton _ _, ?_⟩
  intro y hy x' hx'
  cases List.mem_singleton.1 hx'
  rcases List.mem_append.1 hy with hy | hy
  · have hlast := (List.pairwise_append.1 hfalls).2.2 y hy st.x (List.mem_singleton_self _)
    exact Scalar.lt_trans hnew hlast
  · cases List.mem_singleton.1 hy
    exact hnew

/-- No point is accepted twice, since the values there differ. -/
theorem nodup (h : Descended f x0 c st) : ((accepted c).map Prod.fst).Nodup := by
  refine h.falls.imp fun {x y} hlt hxy => ?_
  rw [hxy, Scalar.lt_irrefl] at hlt
  cases hlt

end Descended

variable [Scalar.Ordered α]

/-- Along records that follow each other the values never rise. -/
theorem pairwise_le_of_follows {rs : List (Record α n)} (h : rs.IsChain Record.Follows)
    (hcomp : ∀ q ∈ rs, Scalar.le q.value q.value = true) :
    rs.Pairwise fun p q => Scalar.le q.value p.value = true := by
  let R (p q : Record α n) : Prop := Scalar.le q.value p.value = true
  have htrans : Trans R R R := ⟨fun hpq hqr => Scalar.Ordered.le_trans hqr hpq⟩
  have hR : rs.IsChain R := by
    refine h.imp_of_mem_imp fun p q hp hq hpq => ?_
    change Scalar.le q.value p.value = true
    rcases hpq with ⟨-, hlt⟩ | ⟨-, heq, -⟩
    · exact Scalar.le_of_lt hlt
    · -- a value that stays is below or equal to itself only if it is comparable
      rw [heq]
      exact hcomp p hp
  exact hR.pairwise

variable [Solver α]

/-- **One more iteration** keeps it. -/
theorem Descended.next {c' : Course α n} {st' : State α n} (h : Descended f x0 c st)
    (htold : Told s c st) (hp : Progress s st c' st' e) (hf : ∀ q ∈ c', q.Agrees f) :
    Descended f x0 (c ++ ⟨.stop, false⟩ :: c') st' := by
  have hcv := h.le_self htold
  obtain ⟨rs, q, hrs, -, hqx, hqv⟩ := htold.records_eq
  have hchain {q' : Record α n} (hq' : q.Follows q') :
      (records c ++ [q']).IsChain Record.Follows := by
    rw [hrs, List.append_assoc]
    exact List.isChain_append_cons_cons.2 ⟨hrs ▸ h.follows, hq', .singleton _⟩
  cases hp with
  | @moves x g v a step values gradients k hst he hrec hstep hacc hv ha hlt =>
    -- the value told with the gradient is the one that was found to be a decrease
    have hvf : v = f x := hv.eq_of_agrees hf
    have hdec : Scalar.lt v st.value = true := by
      rw [hvf, ← ha.eq_of_agrees hf]
      exact hlt
    have hnew : Scalar.lt (f x) (f st.x) = true := by
      rw [← hvf, ← h.value_eq]
      exact hdec
    subst hst
    refine ⟨hvf, ?_, ?_, ?_, ?_⟩
    · rw [records_next hrec, List.forall_mem_append, List.forall_mem_singleton]
      exact ⟨h.comparable, Scalar.le_self_of_lt hdec⟩
    · rw [records_next hrec]
      exact hchain (.inl ⟨hstep, hqv ▸ hdec⟩)
    · rw [hacc]
      exact h.falls_concat htold g hnew
    · rw [records_next hrec]
      refine .inr ⟨?_, _, List.mem_append_right _ (List.mem_singleton_self _), hstep⟩
      rcases h.below with ⟨hx, -⟩ | ⟨hbelow, -⟩
      · change Scalar.lt v (f x0) = true
        rw [← hx, ← h.value_eq]
        exact hdec
      · exact Scalar.lt_trans hdec hbelow
  | @stays values gradients k ending hst he hrec hacc hwhy =>
    subst hst
    refine ⟨h.value_eq, ?_, ?_, ?_, ?_⟩
    · rw [records_next hrec, List.forall_mem_append, List.forall_mem_singleton]
      exact ⟨h.comparable, hcv⟩
    · rw [records_next hrec]
      exact hchain (.inr ⟨rfl, hqv.symm, hqx.symm⟩)
    · rw [hacc]
      exact h.falls
    · rw [records_next hrec]
      rcases h.below with ⟨hx, hall⟩ | ⟨hbelow, q', hq', hstep⟩
      · refine .inl ⟨hx, ?_⟩
        rw [List.forall_mem_append, List.forall_mem_singleton]
        exact ⟨hall, rfl⟩
      · exact .inr ⟨hbelow, q', List.mem_append_left _ hq', hstep⟩

/-- **At every head of the loop**, by induction over the iterations. -/
theorem AtHead.descended (h : AtHead s x0 c st e) (hf : ∀ q ∈ c, q.Agrees f) :
    Descended f x0 c st := by
  induction h with
  | @start v g hfin =>
    have hv : v = f x0 := hf ⟨.gradient x0, (v, g)⟩ (by simp [starting])
    have hcomp : Scalar.le v v = true :=
      Scalar.Ordered.le_self_of_isFinite (Bool.and_eq_true_iff.1 hfin).1
    exact ⟨hv, List.forall_mem_singleton.2 hcomp, .singleton _, List.pairwise_singleton _ _,
      .inl ⟨rfl, List.forall_mem_singleton.2 rfl⟩⟩
  | @next c c' st st' e hat _ hi ih =>
    rw [List.forall_mem_append, List.forall_mem_cons] at hf
    exact (ih hf.1).next hat.told (passage_of_iterate hi).progress hf.2.2

/-- **Monotone descent.** In a run that returns every value reported is comparable, none is above an
earlier one, and the value falls with every step and stays, with the point, where there is none. So
no point is accepted twice, and the value of the result is below that at the start unless no step
was accepted. -/
theorem monotone_descent {r : Result α n} (h : (minimize s x0).Comes c (.done r))
    (hf : ∀ q ∈ c, q.Agrees f) :
    (records c).length = r.nit + 1 ∧
    (∀ q ∈ records c, Scalar.le q.value q.value = true) ∧
    ((records c).Pairwise fun p q => Scalar.le q.value p.value = true) ∧
    (records c).IsChain Record.Follows ∧
    ((accepted c).map Prod.fst).Nodup ∧
    (r.history = if s.history then (accepted c).map Prod.fst else []) ∧
    Scalar.le r.value (f x0) = true ∧
    (Scalar.lt r.value (f x0) = false → r.value = f x0) ∧
    (r.value = f x0 ↔ (∀ q ∈ records c, q.step = 0) ∧ r.x = x0) := by
  obtain ⟨c₁, st, e, c₂, ending, hat, hleave, rfl, rfl⟩ := heads_of_minimize h
  have hd : Descended f x0 c₁ st := hat.descended fun q hq =>
    hf q (List.mem_append_left _ (List.mem_append_left _ hq))
  obtain ⟨⟨rs, q, hrs, hlen, -⟩, -, hhist⟩ := hat.told
  have hnit : (records c₁).length = st.nit + 1 := by
    rw [hrs, List.length_append, hlen]
    rfl
  rw [hleave.told.1, hleave.told.2]
  exact ⟨hnit, hd.comparable, pairwise_le_of_follows hd.follows hd.comparable, hd.follows, hd.nodup,
    hhist, hd.le_start hat.told, hd.eq_start, hd.eq_start_iff⟩

/-- An objective with value one from zero on, and zero below, but undefined below `-3 / 4`. -/
noncomputable def dented (x : Vec Extended 1) : Extended :=
  match x.get 0 with
  | .finite r => if 0 ≤ r then .finite 1 else if -3 / 4 ≤ r then .finite 0 else .nan
  | _ => .nan

theorem dented_eq (r : ℝ) : dented #v[.finite r] =
    if 0 ≤ r then .finite 1 else if -3 / 4 ≤ r then .finite 0 else .nan := rfl

/-- One iteration, with a search. -/
noncomputable def oneSearch : Settings Extended :=
  ⟨1, .finite 1, .finite 1, .finite (1 / 2), .finite (1 / 4), .finite 0, .finite 1, 9, true⟩

/-- The same objective with its gradient, which is one wherever it is asked for. -/
noncomputable def dentedOracle : Oracle Extended 1 := ⟨dented, fun x => (dented x, #v[.finite 1])⟩

/-- The start of a run on it. -/
noncomputable def dentedStart : State Extended 1 :=
  .start oneSearch #v[.finite 0] (.finite 1) #v[.finite 1]

/-- The search of its first iteration. -/
noncomputable def dentedRay : Ray Extended 1 := dentedStart.ray oneSearch (-#v[.finite 1])

theorem dentedRay_direction : dentedRay.direction = #v[.finite (-1)] :=
  Extended.line_neg (.finite 1)

/-- The full step leads to `-1`, -/
theorem dentedRay_full : dentedStart.x + dentedRay.direction = #v[.finite (-1)] := by
  rw [dentedRay_direction]
  refine (Extended.line_add (.finite 0) (.finite (-1))).trans ?_
  rw [Extended.finite_add, zero_add]

/-- and the shorter one to `-1 / 2`. -/
theorem dentedRay_half : dentedRay.trialPoint 1 = #v[.finite (-1 / 2)] := by
  have hstep : dentedRay.scaleAt 1 * dentedRay.direction = #v[.finite (-1 / 2)] := by
    have hhalf : (1 / 2 : ℝ) ^ 1 * -1 = -1 / 2 := by norm_num
    rw [Ray.scaleAt_eq (b := 1 / 2) rfl, dentedRay_direction, Extended.line_mul,
      Extended.finite_mul, hhalf]
  change dentedStart.x + dentedRay.scaleAt 1 * dentedRay.direction = _
  rw [hstep]
  refine (Extended.line_add (.finite 0) (.finite (-1 / 2))).trans ?_
  rw [Extended.finite_add, zero_add]

/-- Nothing is defined at the full step. -/
theorem dented_full : dented (dentedStart.x + dentedRay.direction) = .nan := by
  rw [dentedRay_full, dented_eq]
  norm_num

theorem dented_half : dented (dentedRay.trialPoint 1) = .finite 0 := by
  rw [dentedRay_half, dented_eq]
  norm_num

/-- The value at the shorter step is a decrease. -/
theorem dentedRay_accepts : dentedRay.accepts (.finite 0) = true :=
  (Extended.finite_lt 0 1).trans (by simp)

/-- The search goes on from the full step, -/
theorem dentedRay_unsettled : dentedRay.settled (dentedRay.trialAt 0 .nan) = false := by
  rw [Ray.settled_eq rfl rfl]
  norm_num

/-- and ends at the shorter one. -/
theorem dentedRay_settled : dentedRay.settled (dentedRay.trialAt 1 (.finite 0)) = true :=
  Bool.or_eq_true_iff.2 (.inl dentedRay_accepts)

theorem dentedRay_step : Scalar.lt 0 (dentedRay.stepOf 1 (.finite 0)) = true := by
  rw [Ray.stepOf, dentedRay_accepts, if_pos rfl, Ray.scaleAt_eq (b := 1 / 2) rfl]
  simp

/-- **A run** whose full step leads to where nothing is defined, and whose half step is a decrease.
-/
theorem dentedOracle_run :
    letI := solveIdentity
    ∃ c r, dentedOracle.run (fun _ => false) oneSearch #v[.finite 0] = (c, .ok r) ∧
      Tells c #v[.finite (-1)] .nan ∧ r.nit = 1 ∧ r.nfev = 4 ∧ r.njev = 3 := by
  let := solveIdentity
  let s := oneSearch
  let g : Vec Extended 1 := #v[.finite 1]
  let st := dentedStart
  let d := dentedRay.direction
  have hstart : AtHead s #v[.finite 0] (starting s #v[.finite 0] (.finite 1) g) st none :=
    .start (by simp [allFinite, Scalar.isFinite, g])
  have hset : dentedRay.Settles 0 .nan [.finite 0] := ⟨dentedRay_unsettled, dentedRay_settled⟩
  obtain ⟨st', e, hcounts, hpass⟩ : ∃ st' e, (st'.nfev = 4 ∧ st'.njev = 3) ∧
      Passage s st (opening s st d .nan g ++ dentedRay.trials 0 [.finite 0] ++
        ⟨.gradient (dentedRay.trialPoint 1), (.finite 0, g)⟩ ::
          moving s (st.begun.counted 1 2) (dentedRay.trialPoint 1) (.finite 0) g 1
            (dentedRay.stepOf 1 (.finite 0))) st' e :=
    ⟨_, _, ⟨rfl, rfl⟩, .shrunk ⟨g, rfl, rfl⟩ (Extended.nan_lt _) (by simp [withinTolerance]) hset
      (by decide) rfl rfl dentedRay_step rfl rfl rfl⟩
  have hnext := hstart.next (by decide) (iterate_comes hpass)
  have hjet (x : Vec Extended 1) : dentedOracle.jet x = (dented x, g) := rfl
  have hone : dented #v[.finite 0] = .finite 1 := by rw [dented_eq, if_pos le_rfl]
  obtain ⟨ending, hrun⟩ := Oracle.exists_run_of_atHead (o := dentedOracle) hnext hpass.nit_eq <| by
    rw [List.forall_mem_append, List.forall_mem_cons, List.forall_mem_append,
      List.forall_mem_append, List.forall_mem_cons]
    exact ⟨Oracle.by_starting (by rw [hjet, hone]), trivial,
      ⟨Oracle.by_opening (by rw [hjet, dented_full]), List.forall_mem_singleton.2 dented_half.symm⟩,
      ((hjet _).trans (by rw [dented_half])).symm, Oracle.by_moving⟩
  refine ⟨_, _, hrun, .inr ⟨g, ?_⟩, hpass.nit_eq, hcounts⟩
  rw [← dentedRay_full]
  simp [opening, st, d]

/-- There is a run whose full step leads to where nothing is defined, and whose half step is a
decrease. -/
theorem exists_run_past_nan :
    letI := solveIdentity
    ∃ c r, (minimize oneSearch #v[.finite 0]).Comes c (.done r) ∧ (∀ q ∈ c, q.Agrees dented) ∧
      Tells c #v[.finite (-1)] .nan ∧ r.nit = 1 := by
  let := solveIdentity
  obtain ⟨c, r, hrun, hnan, hnit, -⟩ := dentedOracle_run
  obtain ⟨hcomes, hby, -⟩ := Oracle.run_eq_ok_iff.1 hrun
  exact ⟨c, r, hcomes, fun q hq => (hby q hq).agrees fun x => rfl, hnan, hnit⟩

theorem monotone_descent_past_nan :
    letI := solveIdentity
    ∃ c r, (minimize oneSearch #v[.finite 0]).Comes c (.done r) ∧ (∀ q ∈ c, q.Agrees dented) ∧
      Tells c #v[.finite (-1)] .nan ∧ (records c).length = 2 ∧
      (records c).IsChain Record.Follows ∧ Scalar.le r.value (dented #v[.finite 0]) = true := by
  let := solveIdentity
  obtain ⟨c, r, hrun, hagrees, hnan, hnit⟩ := exists_run_past_nan
  obtain ⟨hlen, -, -, hfollows, -, -, hle, -⟩ := monotone_descent hrun hagrees
  exact ⟨c, r, hrun, hagrees, hnan, by rw [hlen, hnit], hfollows, hle⟩

end VariableMetric
