import VariableMetric.Proofs.Evaluations
import VariableMetric.Proofs.Interruption
import VariableMetric.Proofs.Replies
import VariableMetric.Proofs.Validity

/-!
# Failures of the objective

An objective may fail at any call. Nothing between it and the caller catches its fault.

* `Partners.Calls`: the calls of a run, counted from zero on.
* `Partners.PartAt`: **two objectives that part at a call**, where the second raises a fault.
* `Partners.PartAt.replies`: up to there the runs on them keep in step.
* `Partners.BrokenOff`: what the partners of a run were put through that broke off at a call.
* `Objective.Unfit`, `Setup.Invalid`: what a run cannot start from.
* `oracle_failure`: **a run fails with the fault of its objective**, at once, and nobody is told of
  the iteration that it was in.
-/

namespace VariableMetric

open Course Dialogue

variable {σ α ν β γ : Type} {n : ℕ}

/-! ### Calls and faults -/

/-- Two outcomes are alike: the same, but for states that `R` does not tell apart. -/
def Talk.Alike (R : σ → σ → Prop) (out₁ out₂ : Except Fault β × σ) : Prop :=
  out₁.1 = out₂.1 ∧ R out₁.2 out₂.2

/-- **The objective raises a fault** when it is called for a request. -/
inductive Objective.Raises [Elementary α] [Reading ν α] (note : Call → Talk σ Unit)
    (o : Objective α ν) (v : σ) (e : Fault) (v' : σ) : Request α n → Prop
  | value {x : Vec α n} (h : (o.value note (.ofVec x)).run.run v = (.error e, v')) :
      Raises note o v e v' (.value x)
  | gradient {x : Vec α n} (h : (o.both note (.ofVec x)).run.run v = (.error e, v')) :
      Raises note o v e v' (.gradient x)

namespace Partners

variable [Elementary α] [Reading ν α]

/-- The partners other than the objective do the same in states that `R` does not tell apart. -/
def Blind (p : Partners σ α ν) (n : ℕ) (R : σ → σ → Prop) : Prop :=
  ∀ q : Request α n, ¬ q.IsCall → ∀ v₁ v₂, R v₁ v₂ →
    Talk.Alike R ((p.answer q).run.run v₁) ((p.answer q).run.run v₂)

variable [Solver α]

/-- **Call `k` of the run** from state `w`, counted from zero on, is the request `q`, and finds the
partners in state `v`. -/
def Calls (p : Partners σ α ν) (o : σ → Objective α ν) (s : Settings α) (x0 : Vec α n) (w : σ)
    (k : ℕ) (q : Request α n) (v : σ) : Prop :=
  q.IsCall ∧ ∃ c next, (minimize s x0).Comes c (.ask q next) ∧ Replies (p.answerBy o) w c v ∧
    calls c = k

/-- **Two objectives part at call `k`**, the request `q`: they answer the calls before alike, and
there the second raises the fault `e`. -/
structure PartAt (p : Partners σ α ν) (R : σ → σ → Prop) (o₁ o₂ : σ → Objective α ν)
    (s : Settings α) (x0 : Vec α n) (w₁ w₂ : σ) (k : ℕ) (q : Request α n) (v : σ) (e : Fault)
    (v' : σ) : Prop where
  start : R w₁ w₂
  alike : ∀ j < k, ∀ (q : Request α n) v₁ v₂, p.Calls o₁ s x0 w₁ j q v₁ →
    p.Calls o₂ s x0 w₂ j q v₂ → R v₁ v₂ →
    Talk.Alike R ((p.answerBy o₁ q).run.run v₁) ((p.answerBy o₂ q).run.run v₂)
  call : p.Calls o₂ s x0 w₂ k q v
  raises : (o₂ v).Raises p.note v e v' q

end Partners

section Answers

variable [Elementary α] [Reading ν α] {p : Partners σ α ν} {o : σ → Objective α ν}
  {q : Request α n} {v v' : σ} {e : Fault}

theorem answerBy_of_not_isCall (p : Partners σ α ν) (o : σ → Objective α ν) (hq : ¬ q.IsCall) :
    p.answerBy o q = p.answer q := by
  cases q with
  | value | gradient => exact absurd trivial hq
  | stop | remark | record | finish => rfl

/-- What the objective raises is what it is answered with. -/
theorem Objective.Raises.answerBy (h : (o v).Raises p.note v e v' q) :
    (p.answerBy o q).run.run v = (.error e, v') := by
  cases h with
  | @value x h =>
    change ((o v).measure p.note x).run.run v = _
    rw [Objective.measure, Talk.run_bind, h]
  | @gradient x h =>
    change ((o v).measureBoth p.note x).run.run v = _
    rw [Objective.measureBoth, Talk.run_bind, h]

/-- **A call is written down**, whatever it comes to. -/
theorem answerBy_starts (p : Partners σ α ν) (o : σ → Objective α ν) (hq : q.IsCall) (w : σ)
    (l : List (Event α)) :
    ∃ event es, ((p.traced.answerBy (fun w => o w.1) q).run.run (w, l)).2.2 =
      l ++ event :: es := by
  have hnote : StartsCalls p.traced.note := fun c => .after (Event.called c) (p.note c)
  cases q with
  | value x =>
    obtain ⟨c, hc⟩ := measure_starts hnote (o w) x
    exact ⟨_, hc w l⟩
  | gradient x =>
    obtain ⟨c, hc⟩ := measureBoth_starts hnote (fun c => .after (Event.called c) (p.note c)) (o w) x
    exact ⟨_, hc w l⟩
  | stop | remark | record | finish => exact hq.elim

end Answers

/-! ### Two runs in step -/

section Steps

variable [Elementary α] [Reading ν α] [Solver α] {p : Partners σ α ν} {R : σ → σ → Prop}
  {o₁ o₂ : σ → Objective α ν} {s : Settings α} {x0 : Vec α n} {w₁ w₂ v v' : σ} {k : ℕ}
  {q : Request α n} {e : Fault}

/-- **The runs on two objectives keep in step** up to the call where these part. -/
theorem Partners.PartAt.replies (h : p.PartAt R o₁ o₂ s x0 w₁ w₂ k q v e v')
    (hblind : p.Blind n R) {c : Course α n} {d : Descent α n (Result α n)} {u₂ : σ}
    (hc : (minimize s x0).Comes c d) (h₂ : Replies (p.answerBy o₂) w₂ c u₂) (hk : calls c ≤ k) :
    ∃ u₁, Replies (p.answerBy o₁) w₁ c u₁ ∧ R u₁ u₂ := by
  -- by induction on the exchanges from the last one back
  induction c using List.reverseRecOn generalizing d u₂ with
  | nil =>
    obtain rfl : w₂ = u₂ := h₂
    exact ⟨w₁, rfl, h.start⟩
  | append_singleton c a ih =>
    obtain ⟨next, hc', -⟩ := comes_concat hc
    obtain ⟨t₂, ht₂, ha₂⟩ := replies_concat.1 h₂
    rw [calls_append] at hk
    obtain ⟨t₁, ht₁, hR⟩ := ih hc' ht₂ (by omega)
    have halike : Talk.Alike R ((p.answerBy o₁ a.question).run.run t₁)
        ((p.answerBy o₂ a.question).run.run t₂) := by
      by_cases hq : a.question.IsCall
      · have hlt : calls c < k := by
          rw [calls_singleton hq] at hk
          omega
        exact h.alike _ hlt _ _ _ ⟨hq, c, next, hc', ht₁, rfl⟩ ⟨hq, c, next, hc', ht₂, rfl⟩ hR
      · rw [answerBy_of_not_isCall p o₁ hq, answerBy_of_not_isCall p o₂ hq]
        exact hblind _ hq _ _ hR
    obtain ⟨hout, hR'⟩ := halike
    rw [ha₂] at hout hR'
    refine ⟨((p.answerBy o₁ a.question).run.run t₁).2, replies_concat.2 ⟨t₁, ht₁, ?_⟩, hR'⟩
    exact Prod.ext hout rfl

end Steps

/-! ### Runs that break off -/

/-- **A run that broke off** at call `k`, the request `q`, which found the partners in state `v`:
`es` is all that they were put through, and `rs` are the records of the iterations completed. -/
structure Partners.BrokenOff [Elementary α] [Reading ν α] [Solver α] (p : Partners σ α ν)
    (o : σ → Objective α ν) (m : Make) (s : Settings α) (x0 : Vec α n) (w : σ) (k : ℕ)
    (q : Request α n) (v : σ) (es : List (Event α)) (rs : List (Record α n)) : Prop where
  /-- Nothing follows the call. -/
  events_eq : ∃ c es', Interrupted s x0 c q rs ∧ Replies (p.answerBy o) w c v ∧ calls c = k ∧
    es = events m p.observers.length c ++ es' ∧ es' ≠ [] ∧
    es' <+: Event.ofRequest m p.observers.length q
  numbers_eq : rs.map Record.iteration = List.range rs.length
  /-- Everyone is told of the iterations completed, and of nothing else. -/
  notices_eq : es.filter Event.isNotice = rs.flatMap (Event.ofRecord p.observers.length)

/-- A call is no notice. -/
theorem filter_isNotice_call {q : Request α n} (hq : q.IsCall) {m : Make} {count : ℕ}
    {es : List (Event α)} (h : es <+: Event.ofRequest m count q) :
    es.filter Event.isNotice = [] := by
  have hcalls (ks : List Call) : ∀ e ∈ ks.map (Event.called (α := α)), ¬ e.isNotice = true := by
    intro e he
    obtain ⟨k, -, rfl⟩ := List.mem_map.1 he
    exact Bool.false_ne_true
  rw [List.filter_eq_nil_iff]
  intro e he
  cases q with
  | value | gradient => exact hcalls _ e (h.subset he)
  | stop | remark | record | finish => exact hq.elim

section Failing

variable [Elementary α] [Reading ν α] [Solver α] {p : Partners σ α ν} {o : σ → Objective α ν}
  {m : Make} {s : Settings α} {x0 : Vec α n} {w v v' : σ} {c : Course α n} {q : Request α n}
  {next : q.Answer → Descent α n (Result α n)} {e : Fault}

/-- What the twins of the partners have written down when a run has got so far. -/
theorem tracedPlayBy_replies (hm : ∀ u, (o u).make = m) {d : Descent α n (Result α n)}
    (hc : (minimize s x0).Comes c d) (hr : Replies (p.answerBy o) w c v) :
    (p.tracedPlayBy o s x0).run.run (w, []) =
      (d.conduct (p.traced.answerBy fun w => o w.1)).run.run
        (v, events m p.observers.length c) :=
  conduct_replies hc (hr.writes (answerBy_writes p hm) [])

/-- **A run fails at a call that fails**, with the same fault, and nothing follows the call. -/
theorem fails_of_call (hm : ∀ u, (o u).make = m) (hq : q.IsCall)
    (hc : (minimize s x0).Comes c (.ask q next)) (hr : Replies (p.answerBy o) w c v)
    (hfail : (p.answerBy o q).run.run v = (.error e, v')) :
    (p.playBy o s x0).run.run w = (.error e, v') ∧
      ∃ es, es ≠ [] ∧ es <+: Event.ofRequest m p.observers.length q ∧
        (p.tracedPlayBy o s x0).run.run (w, []) =
          (.error e, (v', events m p.observers.length c ++ es)) := by
  obtain ⟨es, hpre, htwin⟩ :=
    (answerBy_writes p hm q).error (events m p.observers.length c) hfail
  have hne : es ≠ [] := by
    rintro rfl
    obtain ⟨event, es', hes⟩ := answerBy_starts p o hq v (events m p.observers.length c)
    rw [htwin] at hes
    exact List.cons_ne_nil _ _ (List.append_cancel_left hes).symm
  refine ⟨?_, es, hne, hpre, ?_⟩
  · rw [Partners.playBy, conduct_replies hc hr, Dialogue.conduct, Talk.run_bind, hfail]
  · rw [tracedPlayBy_replies hm hc hr, Dialogue.conduct, Talk.run_bind, htwin]

end Failing

/-! ### Runs that do not start -/

/-- The value and the gradient that callables give at a point, as they are given. -/
inductive Objective.Gives [Reading ν α] (x : NdArray α) (v w : ν) : Objective α ν → Prop
  | apart {f g : Callable α ν} (hf : f x = .ok v) (hg : g x = .ok w) : Gives x v w (.apart f g)
  | joint {fg : Callable α ν} {f : Option (Callable α ν)} {u : ν} (hu : fg x = .ok u)
      (hvw : Reading.unpack u = .ok (v, w)) : Gives x v w (.joint fg f)
  | custom {fg : Callable α ν} {f : Option (Callable α ν)} {u : ν} (hu : fg x = .ok u)
      (hvw : Reading.unpack u = .ok (v, w)) : Gives x v w (.custom fg f)

/-- **A point that no run can start from**: the value or the gradient there is not finite, the value
is no number, or the gradient has not the shape of the point. -/
inductive Objective.Unfit [Elementary α] [Reading ν α] (note : Call → Talk σ Unit)
    (o : Objective α ν) (x : Vec α n) (w : σ) : Prop
  | infinite {v : α} {g : Vec α n} {w' : σ}
      (h : (o.measureBoth note x).run.run w = (.ok (v, g), w'))
      (hfin : (Scalar.isFinite v && allFinite g) = false)
  | value {v u : ν} {e : Fault} (h : o.Gives (.ofVec x) v u) (hv : Reading.scalar v = .error e)
  | gradient {v u : ν} (h : o.Gives (.ofVec x) v u)
      (hu : ∀ a, Reading.array u = .ok a → a.shape ≠ [n])
  | recorded {record : Recording α} {p : Precision α}
      {r : Recorded α ((NdArray.ofVec x).map p.round).shape.cells} {e : Fault}
      (h : o = .tracked record p) (hr : record ((NdArray.ofVec x).map p.round) = .ok r)
      (hshape : r.toScalar = .error e)

theorem Objective.of_invoke_ok {note : Call → Talk σ Unit} {c : Call} {r : Except Fault β} {b : β}
    {w v : σ} (h : (Objective.invoke note c r).run.run w = (.ok b, v)) : r = .ok b := by
  obtain ⟨_, _, -, h⟩ := Talk.exists_of_bind_ok h
  exact Talk.of_ofExcept_ok h

section Reads

variable [Reading ν α] {note : Call → Talk σ Unit} {w w' : σ} {a : α}

omit [Reading ν α] in
theorem asGradient_shape {b : NdArray α} {g : Vec α n} (h : asGradient n b = .ok g) :
    b.shape = [n] := by
  unfold asGradient NdArray.toVec? at h
  by_contra hshape
  rw [dif_neg hshape] at h
  cases h

theorem Objective.of_invokeJoint_ok {fg : Callable α ν} {x : NdArray α} {u : ν} {vw : ν × ν}
    (hu : fg x = .ok u) (h : (Objective.invokeJoint note fg x).run.run w = (.ok vw, w')) :
    Reading.unpack u = .ok vw := by
  obtain ⟨u', w₁, hcall, hunpack⟩ := Talk.exists_of_bind_ok h
  obtain rfl : u = u' := Except.ok.inj (hu.symm.trans (of_invoke_ok hcall))
  exact Talk.of_ofExcept_ok hunpack

theorem Objective.of_readJoint_ok {fg : Callable α ν} {x : NdArray α} {t v u : ν} {b : NdArray α}
    (ht : fg x = .ok t) (hvu : Reading.unpack t = .ok (v, u))
    (h : (Objective.readJoint note fg x).run.run w = (.ok (a, b), w')) :
    Reading.scalar v = .ok a ∧ Reading.array u = .ok b := by
  obtain ⟨vu, w₁, hjoint, h⟩ := Talk.exists_of_bind_ok h
  cases hvu.symm.trans (of_invokeJoint_ok ht hjoint)
  obtain ⟨a', w₂, ha, h⟩ := Talk.exists_of_bind_ok h
  obtain ⟨b', w₃, hb, h⟩ := Talk.exists_of_bind_ok h
  cases h
  exact ⟨Talk.of_ofExcept_ok ha, Talk.of_ofExcept_ok hb⟩

theorem Handed.of_toJet_read {a' : α} {b : NdArray α} {g : Vec α n}
    (h : Handed.toJet (ν := ν) n (.read (a', b)) = .ok (a, g)) : a' = a ∧ b.shape = [n] := by
  obtain ⟨g', hg', h⟩ := exists_of_bind_ok h
  cases h
  exact ⟨rfl, asGradient_shape hg'⟩

/-- Of an answer as it was given the gradient is read first. -/
theorem Handed.of_toJet_raw {v u : ν} {g : Vec α n}
    (h : Handed.toJet n (.raw (v, u)) = .ok (a, g)) :
    Reading.scalar v = .ok a ∧ ∃ b, Reading.array u = .ok b ∧ b.shape = [n] := by
  obtain ⟨b, hb, h⟩ := exists_of_bind_ok h
  obtain ⟨g', hg', h⟩ := exists_of_bind_ok h
  obtain ⟨a', ha, h⟩ := exists_of_bind_ok h
  cases h
  exact ⟨ha, b, hb, asGradient_shape hg'⟩

/-- **What is measured is what was given**: a number, and an array in the shape of the point. -/
theorem Objective.Gives.of_measureBoth_ok [Elementary α] {o : Objective α ν} {x : Vec α n}
    {g : Vec α n} {v u : ν} (hgives : o.Gives (.ofVec x) v u)
    (h : (o.measureBoth note x).run.run w = (.ok (a, g), w')) :
    Reading.scalar v = .ok a ∧ ∃ b, Reading.array u = .ok b ∧ b.shape = [n] := by
  obtain ⟨answer, w₁, hboth, hjet⟩ := Talk.exists_of_bind_ok h
  replace hjet := Talk.of_ofExcept_ok hjet
  cases hgives with
  | apart hf hg =>
    obtain ⟨v', w₂, hv, hboth⟩ := Talk.exists_of_bind_ok hboth
    obtain rfl : v = v' := Except.ok.inj (hf.symm.trans (of_invoke_ok hv))
    obtain ⟨a', w₃, ha, hboth⟩ := Talk.exists_of_bind_ok hboth
    obtain ⟨u', w₄, hu, hboth⟩ := Talk.exists_of_bind_ok hboth
    obtain rfl : u = u' := Except.ok.inj (hg.symm.trans (of_invoke_ok hu))
    obtain ⟨b, w₅, hb, hboth⟩ := Talk.exists_of_bind_ok hboth
    cases hboth
    obtain ⟨rfl, hshape⟩ := Handed.of_toJet_read hjet
    exact ⟨Talk.of_ofExcept_ok ha, b, Talk.of_ofExcept_ok hb, hshape⟩
  | joint ht hvu =>
    obtain ⟨⟨a', b⟩, w₂, hjoint, hboth⟩ := Talk.exists_of_bind_ok hboth
    cases hboth
    obtain ⟨ha, hb⟩ := of_readJoint_ok ht hvu hjoint
    obtain ⟨rfl, hshape⟩ := Handed.of_toJet_read hjet
    exact ⟨ha, b, hb, hshape⟩
  | custom ht hvu =>
    obtain ⟨vu, w₂, hjoint, hboth⟩ := Talk.exists_of_bind_ok hboth
    cases hboth
    cases hvu.symm.trans (of_invokeJoint_ok ht hjoint)
    exact Handed.of_toJet_raw hjet

/-- **An unfit point** gives a fault, or numbers that are not all finite. -/
theorem Objective.Unfit.fails [Elementary α] {o : Objective α ν} {x : Vec α n}
    (h : o.Unfit note x w) :
    (∃ e w', (o.measureBoth note x).run.run w = (.error e, w')) ∨
      ∃ v g w', (o.measureBoth note x).run.run w = (.ok (v, g), w') ∧
        (Scalar.isFinite v && allFinite g) = false := by
  rcases hrun : (o.measureBoth note x).run.run w with ⟨r, w'⟩
  cases r with
  | error e => exact .inl ⟨e, w', rfl⟩
  | ok jet =>
    obtain ⟨a, g⟩ := jet
    right
    cases h with
    | infinite h hfin =>
      cases hrun.symm.trans h
      exact ⟨_, _, _, rfl, hfin⟩
    | value h hv =>
      obtain ⟨ha, -⟩ := h.of_measureBoth_ok hrun
      cases hv.symm.trans ha
    | gradient h hu =>
      obtain ⟨-, b, hb, hshape⟩ := h.of_measureBoth_ok hrun
      exact absurd hshape (hu b hb)
    | @recorded record p r e h hr hshape =>
      subst h
      obtain ⟨answer, w₁, hboth, -⟩ := Talk.exists_of_bind_ok hrun
      obtain ⟨graph, w₂, hgraph, -⟩ := Talk.exists_of_bind_ok hboth
      obtain ⟨r', w₃, hinvoke, hgraph⟩ := Talk.exists_of_bind_ok hgraph
      obtain rfl : r = r' := Except.ok.inj (hr.symm.trans (of_invoke_ok hinvoke))
      cases hshape.symm.trans (Talk.of_ofExcept_ok hgraph)

end Reads

/-- **From an unfit point** a run fails after one call, and tells nobody anything. -/
theorem fails_of_unfit [Elementary α] [Reading ν α] [Solver α] {p : Partners σ α ν}
    {o : σ → Objective α ν} {m : Make} (hm : ∀ u, (o u).make = m) (s : Settings α) {x0 : Vec α n}
    {w : σ} (h : (o w).Unfit p.note x0 w) :
    ∃ e v es, (p.playBy o s x0).run.run w = (.error e, v) ∧
      (p.tracedPlayBy o s x0).run.run (w, []) = (.error e, (v, es)) ∧
      es ≠ [] ∧ es <+: m.gradientCalls.map .called := by
  have hstart : (minimize s x0).Comes [] (minimize s x0) := .stay _
  have hreplies : Replies (p.answerBy o) w ([] : Course α n) w := rfl
  rcases h.fails with ⟨e, w', hfail⟩ | ⟨v, g, w', hok, hfin⟩
  · obtain ⟨hplay, es, hne, hpre, htraced⟩ :=
      fails_of_call (q := .gradient x0) hm trivial hstart hreplies hfail
    exact ⟨e, w', es, hplay, htraced, hne, hpre⟩
  · -- the call is answered, and its answer is refused
    have hanswer : (p.answerBy o (.gradient x0)).run.run w = (.ok (v, g), w') := hok
    have htwin := (answerBy_writes p hm (.gradient x0)).ok [] hanswer
    refine ⟨.valuesInfinite, w', _, ?_, ?_, ?_, List.prefix_refl _⟩
    · rw [Partners.playBy, minimize_eq, Dialogue.conduct, Talk.run_bind, hanswer]
      simp only [hfin, Bool.not_false, if_true]
      rfl
    · rw [Partners.tracedPlayBy, Partners.playBy, minimize_eq, Dialogue.conduct, Talk.run_bind,
        htwin]
      simp only [hfin, Bool.not_false, if_true]
      rfl
    · cases m <;> exact List.cons_ne_nil _ _

/-- **What no run can be prepared from**: no objective, options that are not valid, or a point that
is none. -/
def Setup.Invalid (s : Setup) : Prop :=
  (∃ e, s.objective.toObjective = .error e) ∨
    (∃ e, Options.assemble s.base s.settle.overrides = .error e) ∨
    ∃ e, Point.ofStart s.start = .error e

/-- It fails before anything has happened. -/
theorem Setup.Invalid.run_eq {s : Setup} (h : s.Invalid)
    (observers : Option (List Report.Observer)) :
    ∃ e, s.run observers = ⟨[], observers.getD [], .error e⟩ := by
  cases hprepare : s.prepare with
  | error e =>
    refine ⟨e, ?_⟩
    unfold Setup.run
    rw [hprepare]
    rfl
  | ok r =>
    obtain ⟨objective, options, start⟩ := r
    obtain ⟨hobjective, ⟨assembled, hassembled, -⟩, hstart⟩ := Setup.of_prepare hprepare
    rcases h with ⟨e, he⟩ | ⟨e, he⟩ | ⟨e, he⟩
    · cases he.symm.trans hobjective
    · cases he.symm.trans hassembled
    · cases he.symm.trans hstart

/-- **A run fails with the fault of its objective.** Where two objectives part at a call, the run on
the second fails with the fault that is raised there. It has called nothing since, and has told its
partners of the iterations completed before and of nothing else; the run on the first comes to the
same call, and has told them the same by then. From an unfit point a run fails after one call and
tells nobody anything, and one that cannot be prepared fails before anything has happened. -/
theorem oracle_failure [Elementary α] [Reading ν α] [Solver α] (p : Partners σ α ν)
    (s : Settings α) (x0 : Vec α n) :
    (∀ (R : σ → σ → Prop) (o₁ o₂ : σ → Objective α ν) (m₁ m₂ : Make) (w₁ w₂ : σ) (k : ℕ)
      (q : Request α n) (v : σ) (e : Fault) (v' : σ),
      (∀ u, (o₁ u).make = m₁) → (∀ u, (o₂ u).make = m₂) → p.Blind n R →
      p.PartAt R o₁ o₂ s x0 w₁ w₂ k q v e v' →
      ∃ es rs v₁ es₁,
        (p.playBy o₂ s x0).run.run w₂ = (.error e, v') ∧
        (p.tracedPlayBy o₂ s x0).run.run (w₂, []) = (.error e, (v', es)) ∧
        p.BrokenOff o₂ m₂ s x0 w₂ k q v es rs ∧
        p.Calls o₁ s x0 w₁ k q v₁ ∧ R v₁ v ∧
        (p.tracedPlayBy o₁ s x0).run.run (w₁, []) =
          (((p.playBy o₁ s x0).run.run w₁).1, ((p.playBy o₁ s x0).run.run w₁).2, es₁) ∧
        es.filter Event.isNotice <+: es₁.filter Event.isNotice) ∧
    (∀ (o : σ → Objective α ν) (m : Make) (w : σ), (∀ u, (o u).make = m) →
      (o w).Unfit p.note x0 w →
      ∃ e v es, (p.playBy o s x0).run.run w = (.error e, v) ∧
        (p.tracedPlayBy o s x0).run.run (w, []) = (.error e, (v, es)) ∧
        es ≠ [] ∧ es <+: m.gradientCalls.map .called) ∧
    ∀ (setup : Setup) (observers : Option (List Report.Observer)), setup.Invalid →
      ∃ e, setup.run observers = ⟨[], observers.getD [], .error e⟩ := by
  refine ⟨?_, fun o m w hm h => fails_of_unfit hm s h, fun setup observers h => h.run_eq observers⟩
  intro R o₁ o₂ m₁ m₂ w₁ w₂ k q v e v' hm₁ hm₂ hblind hpart
  obtain ⟨hq, c, next, hc, hreplies₂, rfl⟩ := hpart.call
  obtain ⟨rs, hinterrupted⟩ := interrupted_of_comes hq hc
  obtain ⟨hplay, es, hne, hpre, htraced⟩ :=
    fails_of_call hm₂ hq hc hreplies₂ hpart.raises.answerBy
  have hnotices (m : Make) : (events m p.observers.length c).filter Event.isNotice =
      rs.flatMap (Event.ofRecord p.observers.length) := by
    rw [filter_isNotice_events m p.observers.length hinterrupted.unfinished,
      hinterrupted.records_eq]
  have hbroken : p.BrokenOff o₂ m₂ s x0 w₂ (calls c) q v
      (events m₂ p.observers.length c ++ es) rs := by
    refine ⟨⟨c, es, hinterrupted, hreplies₂, rfl, rfl, hne, hpre⟩, hinterrupted.numbers_eq, ?_⟩
    rw [List.filter_append, hnotices, filter_isNotice_call hq hpre, List.append_nil]
  -- the run on the first objective has got as far, and can only add to what it told by then
  obtain ⟨v₁, hreplies₁, hR⟩ := hpart.replies hblind hc hreplies₂ le_rfl
  obtain ⟨more, hmore⟩ := conduct_erases (answerBy_writes p hm₁) (.ask q next) v₁
    (events m₁ p.observers.length c)
  rw [← tracedPlayBy_replies hm₁ hc hreplies₁, ← conduct_replies hc hreplies₁] at hmore
  refine ⟨_, rs, v₁, _, hplay, htraced, hbroken, ⟨hq, c, next, hc, hreplies₁, rfl⟩, hR, hmore, ?_⟩
  rw [hbroken.notices_eq, List.filter_append, hnotices]
  exact List.prefix_append _ _

section Dented

open Oracle

/-- What is raised where a value is asked for alone. -/
def noValue : Fault := .raised .runtime "no value"

/-- The objective that is dented, which fails wherever its value is asked for alone. -/
noncomputable def dentedFaulty : Objective Extended (Plain Extended) :=
  .joint (callable fun x =>
    .pair (.number (dentedOracle.jet x).1) (.array (.ofVec (dentedOracle.jet x).2)))
    (some fun _ => .error noValue)

/-- The exchanges up to the first trial of the run on the objective that is dented. -/
noncomputable def dentedCourse : Course Extended 1 :=
  letI := solveIdentity
  starting oneSearch dentedStart.x dentedStart.value dentedStart.gradient ++ ⟨.stop, false⟩ ::
    opening oneSearch dentedStart dentedRay.direction .nan dentedStart.gradient

theorem dentedCourse_comes :
    letI := solveIdentity
    ∃ next, (minimize oneSearch #v[.finite 0]).Comes dentedCourse
      (.ask (.value (dentedRay.trialPoint 1)) next) := by
  let := solveIdentity
  have hat : AtHead oneSearch #v[.finite 0] (starting oneSearch #v[.finite 0] (.finite 1)
      #v[.finite 1]) dentedStart none := .start (by simp [allFinite, Scalar.isFinite])
  have hd : dentedStart.Leads oneSearch dentedRay.direction := ⟨#v[.finite 1], rfl, rfl⟩
  have hlarge : withinTolerance oneSearch
      (Extended.nan - (dentedStart.begun.counted 0 1).value) dentedRay.direction = false := by
    simp [withinTolerance]
  obtain ⟨next, hnext⟩ := exists_first_trial (g := #v[.finite 1]) (Extended.nan_lt _) hlarge
    dentedRay_unsettled rfl
  have hiterate := iterate_opens hd .nan #v[.finite 1]
  rw [hnext] at hiterate
  have hloop : ∃ next, Dialogue.Comes (iterateUpTo oneSearch (0 + 1) dentedStart >>= closing)
      (⟨.stop, false⟩ :: opening oneSearch dentedStart dentedRay.direction .nan #v[.finite 1])
      (.ask (.value (dentedRay.trialPoint 1)) next) := by
    rw [iterateUpTo_succ]
    exact ⟨_, .ask ((hiterate.bind _).bind closing)⟩
  obtain ⟨next', hnext'⟩ := hloop
  exact ⟨next', hat.comes.trans hnext'⟩

theorem dentedCourse_replies :
    letI := solveIdentity
    Replies ((dentedOracle.partners fun _ => false).answerBy fun _ => dentedFaulty) 0 dentedCourse
      1 := by
  let := solveIdentity
  have hjet (x : Vec Extended 1) (k : ℕ) :
      (dentedFaulty.measureBoth (fun _ => pure ()) x).run.run k =
        (.ok (dented x, #v[.finite 1]), k) := measureBoth_objective dentedOracle x k
  have hone : dented #v[.finite 0] = .finite 1 := by rw [dented_eq, if_pos le_rfl]
  have hstart := hjet #v[.finite 0] 0
  have hfull := hjet (dentedStart.x + dentedRay.direction) 1
  rw [hone] at hstart
  rw [dented_full] at hfull
  exact ⟨0, hstart, 0, rfl, 0, rfl, 1, rfl, 1, hfull, rfl⟩

/-- A run whose first trial fails, one that starts where nothing is defined, and one that is not
prepared. -/
theorem oracle_failure_dented :
    letI := solveIdentity
    let p := dentedOracle.partners fun _ => false
    let q : Request Extended 1 := .value (dentedRay.trialPoint 1)
    (∃ es rs, p.PartAt Eq (fun _ => p.objective) (fun _ => dentedFaulty) oneSearch #v[.finite 0]
        0 0 2 q 1 noValue 1 ∧
      (p.tracedPlayBy (fun _ => dentedFaulty) oneSearch #v[.finite 0]).run.run (0, []) =
        (.error noValue, (1, es)) ∧
      p.BrokenOff (fun _ => dentedFaulty) (.joint true) oneSearch #v[.finite 0] 0 2 q 1 es rs ∧
      rs.length = 1) ∧
    (∃ e v es, (p.tracedPlayBy (fun _ => p.objective) oneSearch #v[.finite (-1)]).run.run (0, []) =
      (.error e, (v, es)) ∧ es = [.called .joint]) ∧
    ∃ e, Setup.run ⟨.objective (.apart (fun _ => .ok .nothing) fun _ => .ok .nothing), .list [],
      .value .nothing, [], .value .nothing, none, none⟩ none = ⟨[], [], .error e⟩ := by
  let := solveIdentity
  intro p q
  have hcall : p.Calls (fun _ => dentedFaulty) oneSearch #v[.finite 0] 0 2 q 1 := by
    obtain ⟨next, hcomes⟩ := dentedCourse_comes
    exact ⟨trivial, dentedCourse, next, hcomes, dentedCourse_replies, rfl⟩
  have hpart : p.PartAt Eq (fun _ => p.objective) (fun _ => dentedFaulty) oneSearch #v[.finite 0]
      0 0 2 q 1 noValue 1 := by
    refine ⟨rfl, ?_, hcall, .value rfl⟩
    rintro j hj q v₁ v₂ ⟨hq, c, next, hc, -, rfl⟩ - rfl
    cases q with
    | value x =>
      obtain ⟨rs, hrs⟩ := interrupted_of_comes hq hc
      have htwo := hrs.two_le_calls
      omega
    | gradient x => exact ⟨rfl, rfl⟩
    | stop | remark | record | finish => exact hq.elim
  have hblind : p.Blind 1 Eq := by
    rintro q - v _ rfl
    exact ⟨rfl, rfl⟩
  refine ⟨?_, ?_, ?_⟩
  · obtain ⟨es, rs, -, -, -, htraced, hbroken, -⟩ := (oracle_failure p oneSearch #v[.finite 0]).1
      Eq _ _ (.joint true) (.joint true) 0 0 2 q 1 noValue 1 (fun _ => rfl) (fun _ => rfl) hblind
      hpart
    refine ⟨es, rs, hpart, htraced, hbroken, ?_⟩
    obtain ⟨c, es', hinterrupted, -⟩ := hbroken.events_eq
    change Interrupted _ _ c (.value (dentedRay.trialPoint 1)) rs at hinterrupted
    cases hinterrupted with
    | @within c c' st _ hat hn _ =>
      have hlen := congrArg List.length hat.numbers_eq
      have hfirst : st.nit < 1 := hn
      rw [List.length_map, List.length_range] at hlen
      omega
  · have hunfit : p.objective.Unfit p.note (#v[.finite (-1)] : Vec Extended 1) 0 := by
      refine .infinite (measureBoth_objective dentedOracle _ 0) ?_
      have hnan : dented #v[.finite (-1)] = .nan := by
        rw [dented_eq]
        norm_num
      change (Scalar.isFinite (dented #v[.finite (-1)]) && _) = false
      rw [hnan]
      rfl
    obtain ⟨e, v, es, -, htraced, hne, hpre⟩ := (oracle_failure p oneSearch #v[.finite (-1)]).2.1
      (fun _ => p.objective) (.joint true) 0 (fun _ => rfl) hunfit
    refine ⟨e, v, es, htraced, ?_⟩
    rcases List.prefix_cons_iff.1 hpre with rfl | ⟨es', rfl, hpre'⟩
    · exact absurd rfl hne
    · rw [List.prefix_nil.1 hpre']
  · exact (oracle_failure p oneSearch #v[.finite 0]).2.2 _ none (.inr (.inr ⟨.startEmpty, rfl⟩))

end Dented

end VariableMetric
