import VariableMetric.Proofs.Trace

/-!
# Answers one after the other

A partner answers the questions of a course one after the other, from the state that each answer
leaves it in. A play that has got so far goes on from there.

* `Dialogue.Replies`: **a partner gives the answers of a course**.
* `Dialogue.conduct_replies`: the play from the beginning is the play from there.
* `Dialogue.exists_replies`: every play that returns takes such a course.
* `Dialogue.Replies.writes`: a twin of the partner gives the same answers, and writes down the
  events of the course.
* `Talk.Starts`: a talk writes down an event before all else.
* `measure_starts`, `measureBoth_starts`: **a call is written down**, whatever it comes to.
-/

namespace VariableMetric

variable {σ α ν β γ ε : Type} {n : ℕ}

namespace Dialogue

variable {Q : Type} {A : Q → Type} {answer : (q : Q) → Talk σ (A q)}

/-- **A partner gives the answers of a course**, from state `w` on, and is left in state `v`. -/
def Replies (answer : (q : Q) → Talk σ (A q)) : σ → List (Exchange Q A) → σ → Prop
  | w, [], v => w = v
  | w, e :: c, v => ∃ u, (answer e.question).run.run w = (.ok e.answer, u) ∧ Replies answer u c v

variable {d d' : Dialogue Q A β} {c c' : List (Exchange Q A)} {w v : σ}

theorem replies_append :
    Replies answer w (c ++ c') v ↔ ∃ u, Replies answer w c u ∧ Replies answer u c' v := by
  induction c generalizing w with
  | nil => exact ⟨fun h => ⟨w, rfl, h⟩, fun ⟨u, hu, h⟩ => (show w = u from hu) ▸ h⟩
  | cons e c ih =>
    constructor
    · rintro ⟨t, ht, h⟩
      obtain ⟨u, hu, h'⟩ := ih.1 h
      exact ⟨u, ⟨t, ht, hu⟩, h'⟩
    · rintro ⟨u, ⟨t, ht, hu⟩, h'⟩
      exact ⟨t, ht, ih.2 ⟨u, hu, h'⟩⟩

theorem replies_concat {e : Exchange Q A} :
    Replies answer w (c ++ [e]) v ↔
      ∃ u, Replies answer w c u ∧ (answer e.question).run.run u = (.ok e.answer, v) := by
  rw [replies_append]
  refine exists_congr fun u => and_congr_right fun _ => ⟨?_, fun h => ⟨v, h, rfl⟩⟩
  rintro ⟨t, ht, rfl⟩
  exact ht

theorem comes_nil (h : d.Comes [] d') : d = d' := by
  cases h
  rfl

/-- A course with one more exchange has come to its question before. -/
theorem comes_concat {e : Exchange Q A} (h : d.Comes (c ++ [e]) d') :
    ∃ next, d.Comes c (.ask e.question next) ∧ next e.answer = d' := by
  induction c generalizing d with
  | nil =>
    cases h with
    | ask h => exact ⟨_, .stay _, comes_nil h⟩
  | cons e' c ih =>
    cases h with
    | ask h =>
      obtain ⟨next, hc, hnext⟩ := ih h
      exact ⟨next, .ask hc, hnext⟩

/-- **A play goes on** from where the partner has given the answers of a course. -/
theorem conduct_replies (hc : d.Comes c d') (h : Replies answer w c v) :
    (d.conduct answer).run.run w = (d'.conduct answer).run.run v := by
  induction hc generalizing w with
  | stay d =>
    obtain rfl : w = v := h
    rfl
  | ask _ ih =>
    obtain ⟨u, hu, h'⟩ := h
    rw [conduct, Talk.run_bind, hu]
    exact ih h'

/-- **A play that returns** takes a course, the answers of which the partner gives. -/
theorem exists_replies {b : β} (h : (d.conduct answer).run.run w = (.ok b, v)) :
    ∃ c, d.Comes c (.done b) ∧ Replies answer w c v := by
  induction d generalizing w with
  | done b' =>
    cases h
    exact ⟨[], .stay _, rfl⟩
  | fail e => cases h
  | ask q next ih =>
    rw [conduct, Talk.run_bind] at h
    rcases hq : (answer q).run.run w with ⟨r, u⟩
    rw [hq] at h
    cases r with
    | error e => cases h
    | ok a =>
      obtain ⟨c, hc, hreplies⟩ := ih a h
      exact ⟨⟨q, a⟩ :: c, .ask hc, u, hq, hreplies⟩

/-- **A twin of the partner** gives the same answers, and writes down the events of the course. -/
theorem Replies.writes {answer' : (q : Q) → Talk (σ × List ε) (A q)} {events : Q → List ε}
    (h : Replies answer w c v) (hans : ∀ q, Talk.Writes (answer' q) (answer q) (events q))
    (l : List ε) :
    Replies answer' (w, l) c (v, l ++ c.flatMap fun e => events e.question) := by
  induction c generalizing w l with
  | nil =>
    obtain rfl : w = v := h
    rw [List.flatMap_nil, List.append_nil]
    rfl
  | cons e c ih =>
    obtain ⟨u, hu, h'⟩ := h
    refine ⟨_, (hans e.question).ok l hu, ?_⟩
    rw [List.flatMap_cons, ← List.append_assoc]
    exact ih h' _

end Dialogue

/-! ### What is written down first -/

/-- **A talk writes down `event` before all else**, whatever it comes to. -/
def Talk.Starts (event : ε) (t : Talk (σ × List ε) β) : Prop :=
  ∀ w l, ∃ es, (t.run.run (w, l)).2.2 = l ++ event :: es

/-- A talk takes back nothing of what is written down. -/
def Talk.Adds (t : Talk (σ × List ε) β) : Prop :=
  ∀ w l, ∃ es, (t.run.run (w, l)).2.2 = l ++ es

theorem Talk.Writes.adds {t' : Talk (σ × List ε) β} {t : Talk σ β} {es : List ε}
    (h : Talk.Writes t' t es) : t'.Adds := by
  intro w l
  rcases ht : t.run.run w with ⟨r, v⟩
  cases r with
  | error e =>
    obtain ⟨es', -, ht'⟩ := h.error l ht
    exact ⟨es', by rw [ht']⟩
  | ok a => exact ⟨es, by rw [h.ok l ht]⟩

theorem Talk.adds_ofExcept (r : Except Fault β) : (Talk.ofExcept r : Talk (σ × List ε) β).Adds :=
  (Talk.Writes.ofExcept r).adds

namespace Talk.Starts

variable {t : Talk (σ × List ε) β} {event : ε}

theorem after (event : ε) (t : Talk σ β) : Starts event (t.after event) := fun _ _ => ⟨[], rfl⟩

theorem bind {f : β → Talk (σ × List ε) γ} (h : Starts event t) (hf : ∀ a, (f a).Adds) :
    Starts event (t >>= f) := by
  intro w l
  obtain ⟨es, hes⟩ := h w l
  rw [Talk.run_bind]
  rcases ht : t.run.run (w, l) with ⟨r, v, l'⟩
  rw [ht] at hes
  change l' = _ at hes
  cases r with
  | error e => exact ⟨es, hes⟩
  | ok a =>
    obtain ⟨es', hes'⟩ := hf a v l'
    refine ⟨es ++ es', hes'.trans ?_⟩
    rw [hes, List.append_assoc]
    rfl

end Talk.Starts

section Requests

open Objective

variable {note : Call → Talk σ Unit} {note' : Call → Talk (σ × List (Event α)) Unit}

/-- The twin of a note writes down the call before all else. -/
abbrev StartsCalls (note' : Call → Talk (σ × List (Event α)) Unit) : Prop :=
  ∀ c, Talk.Starts (Event.called c) (note' c)

theorem invoke_starts (h : StartsCalls note') (c : Call) (answer : Except Fault β) :
    Talk.Starts (Event.called c) (invoke note' c answer) :=
  (h c).bind fun _ => Talk.adds_ofExcept answer

variable [Reading ν α]

theorem invokeJoint_starts (h : StartsCalls note') (fg : Callable α ν) (x : NdArray α) :
    Talk.Starts (Event.called .joint) (invokeJoint note' fg x) :=
  (invoke_starts h .joint (fg x)).bind fun v => Talk.adds_ofExcept (Reading.unpack v)

theorem readJoint_starts (h : StartsCalls note') (fg : Callable α ν) (x : NdArray α) :
    Talk.Starts (Event.called .joint) (readJoint note' fg x) :=
  (invokeJoint_starts h fg x).bind fun v =>
    (Talk.Writes.bind (.ofExcept (Reading.scalar v.1)) fun a =>
      .bind (.ofExcept (Reading.array v.2)) fun g => .pure (a, g)).adds

omit [Reading ν α] in
theorem recordAt_starts (h : StartsCalls note') (c : Call) (record : Recording α)
    (p : Precision α) (x : NdArray α) :
    Talk.Starts (Event.called c) (recordAt note' c record p x) :=
  (invoke_starts h c (record (x.map p.round))).bind fun r => Talk.adds_ofExcept r.toScalar

theorem measure_starts (h : StartsCalls note') (o : Objective α ν) (x : Vec α n) :
    ∃ c, Talk.Starts (Event.called c) (o.measure note' x) := by
  have hvalue : ∃ c, Talk.Starts (Event.called c) (o.value note' (.ofVec x)) := by
    cases o with
    | apart f g =>
      exact ⟨_, (invoke_starts h .value (f _)).bind fun v =>
        (Talk.Writes.bind (.ofExcept (Reading.scalar v)) fun a => .pure _).adds⟩
    | joint fg f =>
      cases f with
      | none => exact ⟨_, (readJoint_starts h fg _).bind fun v => (Talk.Writes.pure _).adds⟩
      | some f =>
        exact ⟨_, (invoke_starts h .value (f _)).bind fun v =>
          (Talk.Writes.bind (.ofExcept (Reading.scalar v)) fun a => .pure _).adds⟩
    | custom fg f =>
      cases f with
      | none => exact ⟨_, (invokeJoint_starts h fg _).bind fun v => (Talk.Writes.pure _).adds⟩
      | some f => exact ⟨_, (invoke_starts h .value (f _)).bind fun v => (Talk.Writes.pure _).adds⟩
    | tracked record p =>
      exact ⟨_, (recordAt_starts h .untracked record p _).bind fun g => (Talk.Writes.pure _).adds⟩
  obtain ⟨c, hc⟩ := hvalue
  exact ⟨c, hc.bind fun answer => Talk.adds_ofExcept answer.toScalar⟩

theorem measureBoth_starts [Elementary α] (h : StartsCalls note') (hn : NotesCalls note' note)
    (o : Objective α ν) (x : Vec α n) :
    ∃ c, Talk.Starts (Event.called c) (o.measureBoth note' x) := by
  have hboth : ∃ c, Talk.Starts (Event.called c) (o.both note' (.ofVec x)) := by
    cases o with
    | apart f g =>
      exact ⟨_, (invoke_starts h .value (f _)).bind fun v =>
        (Talk.Writes.bind (.ofExcept (Reading.scalar v)) fun a =>
          (invoke_writes hn .gradient (g _)).bind fun w =>
            .bind (.ofExcept (Reading.array w)) fun g => .pure _).adds⟩
    | joint fg f => exact ⟨_, (readJoint_starts h fg _).bind fun v => (Talk.Writes.pure _).adds⟩
    | custom fg f => exact ⟨_, (invokeJoint_starts h fg _).bind fun v => (Talk.Writes.pure _).adds⟩
    | tracked record p =>
      refine ⟨_, (recordAt_starts h .tracked record p _).bind fun g => ?_⟩
      split
      · exact (Talk.Writes.pure _).adds
      · exact Talk.adds_ofExcept (.error _)
  obtain ⟨c, hc⟩ := hboth
  exact ⟨c, hc.bind fun answer => Talk.adds_ofExcept (answer.toJet n)⟩

end Requests

end VariableMetric
