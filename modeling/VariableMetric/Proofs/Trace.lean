import VariableMetric.Descent.Partners
import VariableMetric.Proofs.Events

/-!
# Runs that are written down

Twins of the partners of a run write down what they are put through, and do the same otherwise. So
what they have written down at the end is what the partners of every run are put through.

* `Talk.Writes`: one talk does what another one does, and writes down certain events.
* `Partners.traced`: **the twins**, who write down every call and every notice before it is made.
* `Partners.playBy`: a run whose objective need not answer alike twice.
* `conduct_erases`: the twins never change the outcome of a run.
* `play_writes`: **a run that returns**, with its course; what the twins write down are the events
  of that course.
-/

namespace VariableMetric

variable {σ α ν β γ ε : Type} {n : ℕ}

/-! ### Talks that write down -/

/-- The same talk, with an event written down first. -/
def Talk.after (event : ε) (t : Talk σ β) : Talk (σ × List ε) β :=
  ExceptT.mk fun w =>
    let out := t.run.run w.1
    (out.1, (out.2, w.2 ++ [event]))

/-- The same talk, with nothing written down. -/
def Talk.beside (t : Talk σ β) : Talk (σ × List ε) β :=
  ExceptT.mk fun w =>
    let out := t.run.run w.1
    (out.1, (out.2, w.2))

/-- **A talk does what another one does, and writes down the events `es`**, or the first of them
where it fails. -/
structure Talk.Writes (t' : Talk (σ × List ε) β) (t : Talk σ β) (es : List ε) : Prop where
  ok {w v : σ} {a : β} (l : List ε) (h : t.run.run w = (.ok a, v)) :
    t'.run.run (w, l) = (.ok a, (v, l ++ es))
  error {w v : σ} {e : Fault} (l : List ε) (h : t.run.run w = (.error e, v)) :
    ∃ es', es' <+: es ∧ t'.run.run (w, l) = (.error e, (v, l ++ es'))

namespace Talk.Writes

variable {t t₁ : Talk σ β} {t' : Talk (σ × List ε) β} {es es₂ : List ε}

theorem after (event : ε) (t : Talk σ β) : Writes (t.after event) t [event] where
  ok {w v a} l h := by
    change (((t.run.run w).1, ((t.run.run w).2, l ++ [event])) : Except Fault β × σ × List ε) = _
    rw [h]
  error {w v e} l h := by
    refine ⟨[event], List.prefix_rfl, ?_⟩
    change (((t.run.run w).1, ((t.run.run w).2, l ++ [event])) : Except Fault β × σ × List ε) = _
    rw [h]

theorem beside (t : Talk σ β) : Writes (ε := ε) t.beside t [] where
  ok {w v a} l h := by
    change (((t.run.run w).1, ((t.run.run w).2, l)) : Except Fault β × σ × List ε) = _
    rw [h, List.append_nil]
  error {w v e} l h := by
    refine ⟨[], List.prefix_rfl, ?_⟩
    change (((t.run.run w).1, ((t.run.run w).2, l)) : Except Fault β × σ × List ε) = _
    rw [h, List.append_nil]

/-- An outcome that leaves the state alone writes nothing. -/
theorem ofExcept (r : Except Fault β) :
    Writes (ε := ε) (Talk.ofExcept r) (Talk.ofExcept (σ := σ) r) [] where
  ok l h := by
    cases h
    rw [List.append_nil]
    rfl
  error l h := by
    cases h
    exact ⟨[], List.prefix_rfl, by rw [List.append_nil]; rfl⟩

theorem pure (b : β) : Writes (ε := ε) (pure b) (Pure.pure b : Talk σ β) [] := ofExcept (.ok b)

theorem bind {f : β → Talk σ γ} {f' : β → Talk (σ × List ε) γ} (h : Writes t' t es)
    (hf : ∀ a, Writes (f' a) (f a) es₂) : Writes (t' >>= f') (t >>= f) (es ++ es₂) where
  ok {w v b} l hb := by
    rw [Talk.run_bind] at hb ⊢
    rcases ht : t.run.run w with ⟨r, u⟩
    rw [ht] at hb
    cases r with
    | error e => cases hb
    | ok a =>
      rw [h.ok l ht, ← List.append_assoc]
      exact (hf a).ok _ hb
  error {w v e} l he := by
    rw [Talk.run_bind] at he
    rcases ht : t.run.run w with ⟨r, u⟩
    rw [ht] at he
    rw [Talk.run_bind]
    cases r with
    | error e' =>
      obtain ⟨es', hpre, ht'⟩ := h.error l ht
      rw [ht']
      cases he
      exact ⟨es', hpre.trans (List.prefix_append _ _), rfl⟩
    | ok a =>
      obtain ⟨es', hpre, hf'⟩ := (hf a).error (l ++ es) he
      rw [h.ok l ht]
      refine ⟨es ++ es', (List.prefix_append_right_inj es).2 hpre, ?_⟩
      rw [← List.append_assoc]
      exact hf'

end Talk.Writes

/-! ### Twins -/

/-- Observer `i`, who writes down what it is told. -/
def Listener.traced (i : ℕ) (o : Listener σ α) : Listener (σ × List (Event α)) α where
  record n q := (o.record n q).after (.told i n q)
  finish n r := (o.finish n r).after (.finished i n r)

namespace Partners

/-- **Twins of the partners**, who write down what they are put through. -/
def traced (p : Partners σ α ν) : Partners (σ × List (Event α)) α ν where
  objective := p.objective
  note c := (p.note c).after (.called c)
  observers := p.observers.mapIdx Listener.traced
  callback n q := (p.callback n q).after (.reported n q)
  stop := p.stop.beside
  remark r := (p.remark r).beside

variable [Elementary α] [Reading ν α]

/-- The answers of partners whose objective depends on the state that they share. -/
def answerBy (p : Partners σ α ν) (o : σ → Objective α ν) (q : Request α n) : Talk σ q.Answer :=
  ExceptT.mk fun w => ({ p with objective := o w }.answer q).run.run w

/-- **A run with an objective that depends on the state** that the partners share, and so need not
answer alike twice. -/
def playBy [Solver α] (p : Partners σ α ν) (o : σ → Objective α ν) (s : Settings α)
    (x0 : Vec α n) : Talk σ (Result α n) :=
  (minimize s x0).conduct (p.answerBy o)

theorem play_eq_playBy [Solver α] (p : Partners σ α ν) (s : Settings α) (x0 : Vec α n) :
    p.play s x0 = p.playBy (fun _ => p.objective) s x0 := rfl

/-- The twins of partners whose objective depends on their state. -/
def tracedPlayBy [Solver α] (p : Partners σ α ν) (o : σ → Objective α ν) (s : Settings α)
    (x0 : Vec α n) : Talk (σ × List (Event α)) (Result α n) :=
  p.traced.playBy (fun w => o w.1) s x0

end Partners

/-! ### The twins write down the events of each request -/

section Requests

open Objective

variable {note : Call → Talk σ Unit} {note' : Call → Talk (σ × List (Event α)) Unit}

/-- The twin of a note writes down the call. -/
abbrev NotesCalls (note' : Call → Talk (σ × List (Event α)) Unit) (note : Call → Talk σ Unit) :
    Prop :=
  ∀ c, Talk.Writes (note' c) (note c) [Event.called c]

theorem invoke_writes (h : NotesCalls note' note) (c : Call) (answer : Except Fault β) :
    Talk.Writes (invoke note' c answer) (invoke note c answer) [Event.called c] :=
  (h c).bind fun _ => .ofExcept answer

variable [Reading ν α]

theorem invokeJoint_writes (h : NotesCalls note' note) (fg : Callable α ν) (x : NdArray α) :
    Talk.Writes (invokeJoint note' fg x) (invokeJoint note fg x) [Event.called .joint] :=
  (invoke_writes h .joint (fg x)).bind fun v => .ofExcept (Reading.unpack v)

theorem readJoint_writes (h : NotesCalls note' note) (fg : Callable α ν) (x : NdArray α) :
    Talk.Writes (readJoint note' fg x) (readJoint note fg x) [Event.called .joint] :=
  (invokeJoint_writes h fg x).bind fun v =>
    .bind (.ofExcept (Reading.scalar v.1)) fun a =>
      .bind (.ofExcept (Reading.array v.2)) fun g => .pure (a, g)

omit [Reading ν α] in
theorem recordAt_writes (h : NotesCalls note' note) (c : Call) (record : Recording α)
    (p : Precision α) (x : NdArray α) :
    Talk.Writes (recordAt note' c record p x) (recordAt note c record p x) [Event.called c] :=
  (invoke_writes h c (record (x.map p.round))).bind fun r => .ofExcept r.toScalar

theorem measure_writes (h : NotesCalls note' note) (o : Objective α ν) (x : Vec α n) :
    Talk.Writes (o.measure note' x) (o.measure note x) (o.make.valueCalls.map .called) := by
  have hvalue : Talk.Writes (o.value note' (.ofVec x)) (o.value note (.ofVec x))
      (o.make.valueCalls.map .called) := by
    cases o with
    | apart f g =>
      exact (invoke_writes h .value (f _)).bind fun v =>
        .bind (.ofExcept (Reading.scalar v)) fun a => .pure _
    | joint fg f =>
      cases f with
      | none => exact (readJoint_writes h fg _).bind fun v => .pure _
      | some f =>
        exact (invoke_writes h .value (f _)).bind fun v =>
          .bind (.ofExcept (Reading.scalar v)) fun a => .pure _
    | custom fg f =>
      cases f with
      | none => exact (invokeJoint_writes h fg _).bind fun v => .pure _
      | some f => exact (invoke_writes h .value (f _)).bind fun v => .pure _
    | tracked record p => exact (recordAt_writes h .untracked record p _).bind fun g => .pure _
  have hread := hvalue.bind fun answer => .ofExcept answer.toScalar
  rw [List.append_nil] at hread
  exact hread

theorem measureBoth_writes [Elementary α] (h : NotesCalls note' note) (o : Objective α ν)
    (x : Vec α n) :
    Talk.Writes (o.measureBoth note' x) (o.measureBoth note x)
      (o.make.gradientCalls.map .called) := by
  have hboth : Talk.Writes (o.both note' (.ofVec x)) (o.both note (.ofVec x))
      (o.make.gradientCalls.map .called) := by
    cases o with
    | apart f g =>
      exact (invoke_writes h .value (f _)).bind fun v =>
        .bind (.ofExcept (Reading.scalar v)) fun a =>
          (invoke_writes h .gradient (g _)).bind fun w =>
            .bind (.ofExcept (Reading.array w)) fun g => .pure _
    | joint fg f => exact (readJoint_writes h fg _).bind fun v => .pure _
    | custom fg f => exact (invokeJoint_writes h fg _).bind fun v => .pure _
    | tracked record p =>
      refine (recordAt_writes h .tracked record p _).bind fun g => ?_
      split
      · exact .pure _
      · exact .ofExcept (.error _)
  have hread := hboth.bind fun answer => .ofExcept (answer.toJet n)
  rw [List.append_nil] at hread
  exact hread

end Requests

section Notices

/-- Telling the twins of observers, who are numbered from `k` on. -/
theorem tell_writes {act : Listener σ α → Talk σ Unit}
    {act' : Listener (σ × List (Event α)) α → Talk (σ × List (Event α)) Unit} {event : ℕ → Event α}
    (h : ∀ i o, Talk.Writes (act' (Listener.traced i o)) (act o) [event i])
    (os : List (Listener σ α)) (k : ℕ) :
    Talk.Writes (Partners.tell act' (os.mapIdx fun i o => Listener.traced (k + i) o))
      (Partners.tell act os) ((List.range' k os.length).map event) := by
  induction os generalizing k with
  | nil => exact .pure ()
  | cons o os ih =>
    rw [List.mapIdx_cons, List.length_cons, List.range'_succ, List.map_cons]
    have hshift : (fun i o => Listener.traced (k + (i + 1)) o) =
        fun i (o : Listener σ α) => Listener.traced (k + 1 + i) o := by
      funext i o
      rw [show k + (i + 1) = k + 1 + i by omega]
    rw [hshift]
    exact (h k o).bind fun _ => ih (k + 1)

variable [Elementary α] [Reading ν α]

/-- **The twins write down the events of each request.** -/
theorem answer_writes (p : Partners σ α ν) (q : Request α n) :
    Talk.Writes (p.traced.answer q) (p.answer q)
      (Event.ofRequest p.objective.make p.observers.length q) := by
  have hobservers : p.traced.observers =
      p.observers.mapIdx fun i o => Listener.traced (0 + i) o := by
    simp only [Nat.zero_add]
    rfl
  cases q with
  | value x => exact measure_writes (fun c => .after _ _) p.objective x
  | gradient x => exact measureBoth_writes (fun c => .after _ _) p.objective x
  | stop => exact .beside _
  | remark r => exact .beside _
  | record q =>
    have htell : Talk.Writes (Partners.tell (fun o => o.record n q) p.traced.observers)
        (Partners.tell (fun o => o.record n q) p.observers)
        ((List.range' 0 p.observers.length).map fun i => Event.told i n q) := by
      rw [hobservers]
      exact tell_writes (fun i o => .after _ _) p.observers 0
    exact htell.bind fun _ => .after _ _
  | finish r =>
    change Talk.Writes (Partners.tell (fun o => o.finish n r) p.traced.observers) _ _
    rw [hobservers]
    exact tell_writes (fun i o => .after _ _) p.observers 0

theorem answerBy_writes (p : Partners σ α ν) {o : σ → Objective α ν} {m : Make}
    (hm : ∀ w, (o w).make = m) (q : Request α n) :
    Talk.Writes (p.traced.answerBy (fun w => o w.1) q) (p.answerBy o q)
      (Event.ofRequest m p.observers.length q) where
  ok {w v a} l h := by
    have hw := (answer_writes { p with objective := o w } q).ok l h
    rw [hm w] at hw
    exact hw
  error {w v e} l h := by
    have hw := (answer_writes { p with objective := o w } q).error l h
    rw [hm w] at hw
    exact hw

end Notices

/-! ### A run with the twins -/

section Plays

variable {Q : Type} {A : Q → Type}

/-- **The twins never change the outcome**, nor the state that the partners are left in. -/
theorem conduct_erases {answer : (q : Q) → Talk σ (A q)}
    {answer' : (q : Q) → Talk (σ × List ε) (A q)} {events : Q → List ε}
    (hans : ∀ q, Talk.Writes (answer' q) (answer q) (events q)) (d : Dialogue Q A β) (w : σ)
    (l : List ε) :
    ∃ es, (d.conduct answer').run.run (w, l) =
      (((d.conduct answer).run.run w).1, ((d.conduct answer).run.run w).2, l ++ es) := by
  induction d generalizing w l with
  | done b => exact ⟨[], by rw [List.append_nil]; rfl⟩
  | fail e => exact ⟨[], by rw [List.append_nil]; rfl⟩
  | ask q next ih =>
    rw [Dialogue.conduct, Dialogue.conduct, Talk.run_bind, Talk.run_bind]
    rcases hq : (answer q).run.run w with ⟨r, v⟩
    cases r with
    | error e =>
      obtain ⟨es, -, hq'⟩ := (hans q).error l hq
      rw [hq']
      exact ⟨es, rfl⟩
    | ok a =>
      obtain ⟨es, hes⟩ := ih a v (l ++ events q)
      rw [(hans q).ok l hq]
      exact ⟨events q ++ es, by rw [← List.append_assoc]; exact hes⟩

/-- **A play that returns** takes a course, in which each answer is one that the partner gave, and a
twin of the partner writes down the events of its questions. -/
theorem conduct_writes {answer : (q : Q) → Talk σ (A q)}
    {answer' : (q : Q) → Talk (σ × List ε) (A q)} {events : Q → List ε}
    (hans : ∀ q, Talk.Writes (answer' q) (answer q) (events q)) {d : Dialogue Q A β} {b : β}
    {w w' : σ} (h : (d.conduct answer).run.run w = (.ok b, w')) (l : List ε) :
    ∃ c, d.Comes c (.done b) ∧
      (∀ e ∈ c, ∃ v v', (answer e.question).run.run v = (.ok e.answer, v')) ∧
      (d.conduct answer').run.run (w, l) =
        (.ok b, (w', l ++ c.flatMap fun e => events e.question)) := by
  induction d generalizing w l with
  | done b' =>
    cases h
    exact ⟨[], .stay _, by simp, by rw [List.flatMap_nil, List.append_nil]; rfl⟩
  | fail e => cases h
  | ask q next ih =>
    rw [Dialogue.conduct, Talk.run_bind] at h
    rcases hq : (answer q).run.run w with ⟨r, v⟩
    rw [hq] at h
    cases r with
    | error e => cases h
    | ok a =>
      obtain ⟨c, hc, hall, hplay⟩ := ih a h (l ++ events q)
      refine ⟨⟨q, a⟩ :: c, .ask hc, ?_, ?_⟩
      · intro e he
        rcases List.mem_cons.1 he with rfl | he
        · exact ⟨w, v, hq⟩
        · exact hall e he
      · rw [Dialogue.conduct, Talk.run_bind, (hans q).ok l hq, List.flatMap_cons,
          ← List.append_assoc]
        exact hplay

/-- **A run with the twins is the run itself.** A run that returns takes a course, in which each
answer is one that a partner gave, and the twins write down the events of its requests. -/
theorem play_writes [Elementary α] [Reading ν α] [Solver α] (p : Partners σ α ν)
    {o : σ → Objective α ν} {m : Make} (hm : ∀ w, (o w).make = m) {s : Settings α} {x0 : Vec α n}
    {r : Result α n} {w w' : σ} (h : (p.playBy o s x0).run.run w = (.ok r, w')) :
    ∃ c, (minimize s x0).Comes c (.done r) ∧
      (∀ e ∈ c, ∃ v v', (p.answerBy o e.question).run.run v = (.ok e.answer, v')) ∧
      (p.tracedPlayBy o s x0).run.run (w, []) =
        (.ok r, (w', Course.events m p.observers.length c)) :=
  conduct_writes (answerBy_writes p hm) h []

end Plays

end VariableMetric
