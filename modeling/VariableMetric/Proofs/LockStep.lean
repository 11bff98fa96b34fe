import VariableMetric.Proofs.Direction
import VariableMetric.Proofs.Evaluations

/-!
# States and reports in lock step

On an objective that answers alike whenever value and gradient are asked for together, every record
can be checked against that objective and the records before it. What the values alone are does not
matter here: they decide where a search stops, and no more.

* `Exchange.Gives`: value and gradient are those of the objective.
* `Record.Succeeds`: **the law of the records**: each follows those before it.
* `LockStep`: what holds at every head of the loop (`LockStep.next`, `AtHead.lockStep`).
* `Faithful`: **a faithful report** of a run, in exact arithmetic.
* `faithful_report`: every run that returns has given one to each of its listeners.
-/

namespace VariableMetric

open Course

section LockStep

variable {α : Type} {n : ℕ}

/-- Value and gradient are those of `J`, where they were asked for together. -/
def Exchange.Gives (J : Vec α n → α × Vec α n) : Exchange (Request α n) Request.Answer → Prop
  | ⟨.gradient x, a⟩ => a = J x
  | _ => True

/-- The point of a record, with the gradient there. -/
def Record.withGradient (J : Vec α n → α × Vec α n) (q : Record α n) : Vec α n × Vec α n :=
  (q.x, (J q.x).2)

variable [Scalar α]

/-- **The law of the records.** `q` follows the records `before`, the last of which is `p`: it steps
along the direction that is solved from the points of these records and the gradients there. -/
structure Record.Succeeds [Solver α] (s : Settings α) (J : Vec α n → α × Vec α n)
    (before : List (Record α n)) (p q : Record α n) : Prop where
  change_eq : q.change = some (q.value - p.value)
  strides : ∃ sol,
    (solveRidged (curvatureAlong s.curvatureTol (before.map (Record.withGradient J))) (J p.x).2
      s.ridge).solution = some sol ∧ Stride s p.x (-sol) q.x q.backtracks q.step

variable [Solver α] {s : Settings α} {J : Vec α n → α × Vec α n} {x0 : Vec α n}
  {c c' : Course α n} {st st' : State α n} {e : Option Ending}

/-- **What holds at every head of the loop** of a run from `x0`. -/
structure LockStep (s : Settings α) (J : Vec α n → α × Vec α n) (x0 : Vec α n) (c : Course α n)
    (st : State α n) (e : Option Ending) : Prop where
  jet_eq : (st.value, st.gradient) = J st.x
  numbers : (records c).map Record.iteration = List.range (st.nit + 1)
  starts : ∃ rs, records c = ⟨0, (J x0).1, none, normInf (J x0).2, 0, 0, x0⟩ :: rs
  told : ∀ q ∈ records c, q.value = (J q.x).1 ∧ q.gradNorm = normInf (J q.x).2
  accepting : ∀ q ∈ records c, e = none ∨ q ∈ (records c).dropLast → q.accepting = true
  accepted_eq :
    accepted c = ((records c).filter Record.accepting).map (Record.withGradient J)
  succeeds : ∀ before p q after, records c = before ++ p :: q :: after →
    Record.Succeeds s J (before ++ [p]) p q

/-- Two neighbours in a list with one more entry are neighbours before it, or the last two. -/
theorem neighbours_concat {β : Type} {as : List β} {b : β} {before after : List β} {p q : β}
    (h : as ++ [b] = before ++ p :: q :: after) :
    (as = before ++ [p] ∧ b = q) ∨ ∃ after', as = before ++ p :: q :: after' := by
  rcases List.eq_nil_or_concat after with rfl | ⟨after', z, rfl⟩
  · have hlast : as ++ [b] = before ++ [p] ++ [q] := by rw [h, List.append_assoc]; rfl
    obtain ⟨has, hb⟩ := List.append_inj' hlast rfl
    exact .inl ⟨has, List.singleton_inj.1 hb⟩
  · rw [List.concat_eq_append, ← List.cons_append, ← List.cons_append, ← List.append_assoc] at h
    exact .inr ⟨after', (List.append_inj' h rfl).1⟩

variable [Scalar.Ordered α]

omit [Scalar.Ordered α] in
/-- **An iteration goes on** to a point with the value and the gradient there. -/
theorem Passage.jet_eq (h : Passage s st c st' e) (hjet : (st.value, st.gradient) = J st.x)
    (hJ : ∀ q ∈ c, q.Gives J) : (st'.value, st'.gradient) = J st'.x := by
  cases h with
  | @full d g v c st' e hd hlt hst hc he =>
    rw [hst]
    exact hJ ⟨.gradient (st.x + d), (v, g)⟩ (by simp [hc, opening])
  | @shrunk d g x g' v a v' vs c st' e hd hlt hlarge hset hlen ha hx hacc hst hc he =>
    rw [hst]
    exact hJ ⟨.gradient x, (v', g')⟩ (by simp [hc])
  | still h =>
    cases h with
    | stationary _ _ _ hst | underflow _ _ _ _ _ _ hst =>
      rw [hst]
      exact hjet

/-- The accepted points after an iteration are those of the records that accept one. -/
theorem Passage.accepted_eq {q : Record α n} (h : Passage s st c' st' e)
    (hjet : (st'.value, st'.gradient) = J st'.x) (hrec : records c' = [q]) :
    accepted (c ++ ⟨.stop, false⟩ :: c') =
      accepted c ++ ([q].filter Record.accepting).map (Record.withGradient J) ∧
    (e = none → q.accepting = true) := by
  cases h.progress with
  | @moves x g v a step values gradients k hst he hrec' hstep hacc hv ha hlt =>
    obtain rfl : q = st.recordTo st' k step := List.singleton_inj.1 (hrec.symm.trans hrec')
    have haccept : (st.recordTo st' k step).accepting = true := by
      rw [Record.accepting]
      exact Bool.or_eq_true_iff.2 (.inr hstep)
    have hpoint : (st.recordTo st' k step).withGradient J = (x, g) := by
      change (st'.x, (J st'.x).2) = (x, g)
      rw [← hjet, hst]
      rfl
    rw [hacc, List.filter_singleton, haccept, cond_true, List.map_singleton, hpoint]
    exact ⟨rfl, fun _ => rfl⟩
  | @stays values gradients k ending hst he hrec' hacc hwhy =>
    obtain rfl : q = st.recordTo st' k 0 := List.singleton_inj.1 (hrec.symm.trans hrec')
    have hreject : (st.recordTo st' k 0).accepting = false := by
      rw [Record.accepting, Bool.or_eq_false_iff]
      refine ⟨beq_eq_false_iff_ne.2 ?_, Scalar.lt_irrefl 0⟩
      rw [hst]
      exact Nat.succ_ne_zero _
    rw [hacc, List.filter_singleton, hreject, he]
    exact ⟨(List.append_nil _).symm, fun hend => absurd hend (Option.some_ne_none ending)⟩

/-- **One more iteration** keeps the lock step. -/
theorem LockStep.next (h : LockStep s J x0 c st none) (hat : AtHead s x0 c st none)
    (hpass : Passage s st c' st' e) (hJ : ∀ q ∈ c', q.Gives J) :
    LockStep s J x0 (c ++ ⟨.stop, false⟩ :: c') st' e := by
  have hjet := hpass.jet_eq h.jet_eq hJ
  obtain ⟨k, gradients, step, hcosts⟩ := hpass.costs
  obtain ⟨d, ⟨sol, hsol, rfl⟩, hstride⟩ := hcosts.strides
  have hrec := hcosts.records_eq
  obtain ⟨hacc, haccept⟩ := hpass.accepted_eq (c := c) hjet hrec
  obtain ⟨⟨rs, p, hrs, -, hpx, hpv⟩, -, -⟩ := hat.told
  have hrecords : records (c ++ ⟨.stop, false⟩ :: c') = records c ++ [st.recordTo st' k step] :=
    records_next hrec
  have hall : ∀ q ∈ records c, q.accepting = true := fun q hq => h.accepting q hq (.inl rfl)
  -- all records so far accepted a point, so that the matrix is that of all of them
  have hcurv : st.hessian =
      curvatureAlong s.curvatureTol ((records c).map (Record.withGradient J)) := by
    rw [hat.hessian_eq, h.accepted_eq, List.filter_eq_self.2 hall]
  refine ⟨hjet, ?_, ?_, ?_, ?_, ?_, ?_⟩
  · rw [hrecords, List.map_append, h.numbers, hpass.nit_eq, List.range_succ (n := st.nit + 1),
      ← hpass.nit_eq]
    rfl
  · obtain ⟨rs', hstart⟩ := h.starts
    rw [hrecords, hstart]
    exact ⟨_, rfl⟩
  · rw [hrecords, List.forall_mem_append, List.forall_mem_singleton]
    refine ⟨h.told, ?_, ?_⟩
    · exact congrArg Prod.fst hjet
    · exact congrArg (fun a : α × Vec α n => normInf a.2) hjet
  · rw [hrecords, List.dropLast_concat, List.forall_mem_append, List.forall_mem_singleton]
    refine ⟨fun q hq _ => hall q hq, ?_⟩
    rintro (hnone | hbefore)
    · exact haccept hnone
    · exact hall _ hbefore
  · rw [hacc, hrecords, h.accepted_eq, List.filter_append, List.map_append]
  · intro before p' q after hsplit
    rw [hrecords] at hsplit
    rcases neighbours_concat hsplit with ⟨hc, rfl⟩ | ⟨after', hc⟩
    · obtain ⟨-, hp⟩ := List.append_inj' (hrs.symm.trans hc) rfl
      obtain rfl : p = p' := List.singleton_inj.1 hp
      refine ⟨?_, sol, ?_, ?_⟩
      · rw [hpv]
        rfl
      · have hgrad : st.gradient = (J p.x).2 := by
          rw [hpx, ← h.jet_eq]
        rw [← hc, ← hcurv, ← hgrad]
        exact hsol
      · rw [hpx]
        exact hstride
    · exact h.succeeds before p' q after' hc

/-- **At every head of the loop**, by induction over the iterations. -/
theorem AtHead.lockStep (h : AtHead s x0 c st e) (hJ : ∀ q ∈ c, q.Gives J) :
    LockStep s J x0 c st e := by
  induction h with
  | @start v g hfin =>
    have hvg : (v, g) = J x0 := hJ ⟨.gradient x0, (v, g)⟩ (by simp [starting])
    have hrec : records (starting s x0 v g) = [startRecord (.start s x0 v g)] := rfl
    have hv : v = (J x0).1 := congrArg Prod.fst hvg
    have hg : g = (J x0).2 := congrArg Prod.snd hvg
    refine ⟨hvg, rfl, ⟨[], ?_⟩, ?_, ?_, ?_, ?_⟩
    · rw [hrec, ← hv, ← hg]
      rfl
    · rw [hrec, List.forall_mem_singleton]
      exact ⟨hv, congrArg normInf hg⟩
    · rw [hrec, List.forall_mem_singleton]
      exact fun _ => rfl
    · rw [hrec]
      exact congrArg (fun a => [(x0, a)]) hg
    · intro before p q after hsplit
      have hlen := congrArg List.length hsplit
      rw [hrec, List.length_append] at hlen
      simp only [List.length_cons, List.length_nil] at hlen
      omega
  | @next c c' st st' e hat _ hi ih =>
    rw [List.forall_mem_append, List.forall_mem_cons] at hJ
    exact (ih hJ.1).next hat (passage_of_iterate hi) hJ.2.2

omit [Scalar.Ordered α] in
/-- Nobody is told of a result before the loop is over. -/
theorem AtHead.unfinished (h : AtHead s x0 c st e) : ∀ q ∈ c, ∀ r, q.question ≠ .finish r := by
  induction h with
  | start => simp [starting]
  | next _ _ hi ih =>
    rw [List.forall_mem_append, List.forall_mem_cons]
    refine ⟨ih, by simp, fun q hq r hfinish => ?_⟩
    have hinner := (passage_of_iterate hi).inner q hq
    rw [hfinish] at hinner
    exact hinner

end LockStep

/-! ### Reports in exact arithmetic -/

section Exact

variable {σ ν : Type} {n : ℕ}

/-- A step is a power of the factor, or none at all. -/
theorem Stride.exact {s : Settings Extended} {b : ℝ} {x d x' : Vec Extended n} {k : ℕ}
    {step : Extended} (h : Stride s x d x' k step) (hb : s.backtrack = .finite b) :
    Scalar.lt 0 step = true ∧ step = .finite (b ^ k) ∧ x' = x + step * d ∨
      step = 0 ∧ x' = x ∧ (allFinite d = true → x' = x + step * d) := by
  cases h with
  | full =>
    refine .inl ⟨Scalar.Ordered.zero_lt_one, ?_, ?_⟩
    · rw [pow_zero]
      rfl
    · rw [Extended.one_mul_vec]
  | shorter hk hpos => exact .inl ⟨hpos, by rw [hb, scaleAfter_finite], rfl⟩
  | none => exact .inr ⟨rfl, rfl, fun hd => (Extended.add_zero_mul_vec _ hd).symm⟩

variable [Solver Extended]

/-- **The law of the records, in exact arithmetic.** `q` follows the records `before`, the last of
which is `p`: the step from `p` to `q` is a power of the factor `b`, or none at all. -/
structure Record.StepsOn (s : Settings Extended) (b : ℝ)
    (J : Vec Extended n → Extended × Vec Extended n) (before : List (Record Extended n))
    (p q : Record Extended n) : Prop where
  change_eq : q.change = some (q.value - p.value)
  moves : ∃ sol d,
    (solveRidged (curvatureAlong s.curvatureTol (before.map (Record.withGradient J))) (J p.x).2
      s.ridge).solution = some sol ∧ d = -sol ∧
    (Scalar.lt 0 q.step = true ∧ q.step = .finite (b ^ q.backtracks) ∧ q.x = p.x + q.step * d ∨
      q.step = 0 ∧ q.x = p.x ∧ (allFinite d = true → q.x = p.x + q.step * d))

/-- **A faithful report.** The records `rs` and the result `r` bear each other out, and the
objective bears out both. -/
structure Faithful (s : Settings Extended) (b : ℝ) (J : Vec Extended n → Extended × Vec Extended n)
    (x0 : Vec Extended n) (rs : List (Record Extended n)) (r : Result Extended n) : Prop where
  numbers : rs.map Record.iteration = List.range (r.nit + 1)
  start : rs.head? = some ⟨0, (J x0).1, none, normInf (J x0).2, 0, 0, x0⟩
  told : ∀ q ∈ rs, q.value = (J q.x).1 ∧ q.gradNorm = normInf (J q.x).2
  steps : ∀ before p q after, rs = before ++ p :: q :: after →
    Record.StepsOn s b J (before ++ [p]) p q
  /-- Between the starting point and the last record a step was accepted each time. -/
  moving : ∀ q ∈ rs.tail.dropLast, Scalar.lt 0 q.step = true
  history_eq : r.history =
    if s.history then x0 :: (rs.tail.filter fun q => Scalar.lt 0 q.step).map Record.x else []
  last : ∃ q, rs.getLast? = some q ∧ r.x = q.x ∧ r.value = q.value ∧ r.gradNorm = q.gradNorm
  gradient_eq : r.gradient = (J r.x).2

variable {s : Settings Extended} {b : ℝ} {J : Vec Extended n → Extended × Vec Extended n}
  {x0 : Vec Extended n}

theorem Record.Succeeds.stepsOn {before : List (Record Extended n)} {p q : Record Extended n}
    (h : Record.Succeeds s J before p q) (hb : s.backtrack = .finite b) :
    Record.StepsOn s b J before p q := by
  obtain ⟨sol, hsol, hstride⟩ := h.strides
  exact ⟨h.change_eq, sol, -sol, hsol, rfl, hstride.exact hb⟩

omit [Solver Extended] in
/-- After the record of the starting point, the records that accept a point are those of a positive
step. -/
theorem accepting_tail {rs : List (Record Extended n)} {q : Record Extended n} {k : ℕ}
    (h : (q :: rs).map Record.iteration = List.range (k + 1)) :
    ∀ q ∈ rs, q.accepting = Scalar.lt 0 q.step := by
  intro q' hq'
  rw [List.range_succ_eq_map, List.map_cons, List.cons.injEq] at h
  have hmem : q'.iteration ∈ (List.range k).map Nat.succ := h.2 ▸ List.mem_map_of_mem hq'
  obtain ⟨j, -, hj⟩ := List.mem_map.1 hmem
  rw [Record.accepting, ← hj, beq_eq_false_iff_ne.2 (Nat.succ_ne_zero j), Bool.false_or]

/-- **The report at the end of a run** is faithful. -/
theorem LockStep.faithful {c : Course Extended n} {st : State Extended n} {e : Option Ending}
    (h : LockStep s J x0 c st e) (htold : Told s c st) (hb : s.backtrack = .finite b)
    (ending : Ending) : Faithful s b J x0 (records c) (st.result ending) := by
  obtain ⟨rs, hstart⟩ := h.starts
  obtain ⟨⟨before, q, hlast, -, hqx, hqv⟩, -, hhist⟩ := htold
  have hq : q ∈ records c := by
    rw [hlast]
    exact List.mem_append_right _ (List.mem_singleton_self q)
  have htail := accepting_tail (hstart ▸ h.numbers)
  refine ⟨h.numbers, ?_, h.told,
    fun before p q after hsplit => (h.succeeds _ _ _ _ hsplit).stepsOn hb,
    ?_, ?_, ⟨q, ?_, hqx.symm, hqv.symm, ?_⟩, congrArg Prod.snd h.jet_eq⟩
  · rw [hstart]
    rfl
  · intro q' hq'
    rw [hstart, List.tail_cons] at hq'
    rw [← htail q' (List.mem_of_mem_dropLast hq')]
    have hbefore : q' ∈ (records c).dropLast := by
      rw [hstart, List.dropLast_cons_of_ne_nil (List.ne_nil_of_mem (List.mem_of_mem_dropLast hq'))]
      exact List.mem_cons_of_mem _ hq'
    exact h.accepting q' (List.mem_of_mem_dropLast hbefore) (.inr hbefore)
  · change st.history = _
    rw [hhist, h.accepted_eq, hstart, List.tail_cons, List.filter_cons_of_pos rfl,
      List.filter_congr htail, List.map_map]
    rfl
  · rw [hlast, List.getLast?_concat]
  · change normInf st.gradient = q.gradNorm
    rw [(h.told q hq).2, hqx, ← h.jet_eq]

/-- **Every listener is told the same, and the truth.** Where value and gradient are those of `J`
whenever they are asked for together, whatever the values alone are, a run that returns has told
every observer of all records and then of the result, and the callback of all records. They make a
faithful report. -/
theorem faithful_report [Reading ν Extended] {p : Partners σ Extended ν}
    {o : σ → Objective Extended ν} {m : Make} {r : Result Extended n} {w w' : σ}
    (hm : ∀ v, (o v).make = m)
    (hJ : ∀ v (x : Vec Extended n) a v',
      ((o v).measureBoth p.note x).run.run v = (.ok a, v') → a = J x)
    (hb : s.backtrack = .finite b) (h : (p.playBy o s x0).run.run w = (.ok r, w')) :
    ∃ (es : List (Event Extended)) (rs : List (Record Extended n)),
      (p.tracedPlayBy o s x0).run.run (w, []) = (.ok r, (w', es)) ∧
      (∀ i < p.observers.length,
        es.filter (Event.isTo i) = rs.map (.told i n) ++ [.finished i n r]) ∧
      es.filter Event.isReport = rs.map (.reported n) ∧
      Faithful s b J x0 rs r := by
  obtain ⟨c, hc, hall, hplay⟩ := play_writes p hm h
  have hgives : ∀ q ∈ c, q.Gives J := by
    rintro ⟨q, a⟩ hq
    obtain ⟨v, v', hv⟩ := hall _ hq
    cases q with
    | gradient x => exact hJ v x a v' hv
    | value | stop | remark | record | finish => trivial
  obtain ⟨c₁, st, e, c₂, ending, hat, hleave, rfl, rfl⟩ := heads_of_minimize hc
  have hlock := hat.lockStep fun q hq =>
    hgives q (List.mem_append_left _ (List.mem_append_left _ hq))
  refine ⟨_, records c₁, hplay, fun i hi => ?_, ?_, hlock.faithful hat.told hb ending⟩
  · have hquiet : c₂.flatMap (fun e => Event.noticesTo (α := Extended) i e.question) = [] := by
      cases hleave <;> rfl
    rw [notices_events m hi, List.flatMap_append, List.flatMap_append, hquiet, List.append_nil,
      notices_eq_told hat.unfinished]
    rfl
  · rw [reports_events, hleave.told.1]

omit [Solver Extended] in
/-- A run with a trial that is accepted. Its observer is told of two records and the result. -/
theorem faithful_report_dented :
    letI := solveIdentity
    let p := dentedOracle.partners fun _ => false
    (∀ (v : ℕ) (x : Vec Extended 1) a v',
      (p.objective.measureBoth p.note x).run.run v = (.ok a, v') → a = dentedOracle.jet x) ∧
    ∃ w' r es rs, oneSearch.backtrack = .finite (1 / 2) ∧
      (p.playBy (fun _ => p.objective) oneSearch #v[.finite 0]).run.run 0 = (.ok r, w') ∧
      (p.tracedPlayBy (fun _ => p.objective) oneSearch #v[.finite 0]).run.run (0, []) =
        (.ok r, (w', es)) ∧
      es.filter (Event.isTo 0) = rs.map (.told 0 1) ++ [.finished 0 1 r] ∧ rs.length = 2 ∧
      Faithful oneSearch (1 / 2) dentedOracle.jet #v[.finite 0] rs r := by
  let := solveIdentity
  intro p
  have hJ (v : ℕ) (x : Vec Extended 1) (a : Extended × Vec Extended 1) (v' : ℕ)
      (ha : (p.objective.measureBoth p.note x).run.run v = (.ok a, v')) :
      a = dentedOracle.jet x := by
    have hjet := ha.symm.trans (Oracle.measureBoth_objective dentedOracle x v)
    cases hjet
    rfl
  obtain ⟨w', r, hplay, hnit, -⟩ := dentedOracle_play
  obtain ⟨es, rs, htraced, htold, -, hfaithful⟩ :=
    faithful_report (fun _ => rfl) hJ rfl hplay
  have hlen : rs.length = 2 := by
    have hnumbers := congrArg List.length hfaithful.numbers
    rw [List.length_map, List.length_range, hnit] at hnumbers
    exact hnumbers
  exact ⟨hJ, w', r, es, rs, rfl, hplay, htraced, htold 0 (by decide), hlen, hfaithful⟩

end Exact

end VariableMetric
