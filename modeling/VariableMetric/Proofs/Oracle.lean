import VariableMetric.Descent.Partners
import VariableMetric.Proofs.Records

/-!
# Runs on deterministic objectives

A deterministic objective answers a point alike whenever it is asked. With it, and with what the
caller says each time it is asked whether to stop, a run is settled from beginning to end.

* `Dialogue.hold`: a dialogue with someone who answers by what was said before.
* `Dialogue.hold_eq_ok_iff`: it takes the course on which every answer is that one.
* `Oracle`: **a deterministic objective**; its two modes need not agree.
* `Oracle.run`: **the run on it**, `Oracle.run_eq_ok_iff`: when a run is that one.
* `Oracle.run_of_leaving`: a run that nobody stops returns wherever it leaves its loop.
* `Oracle.conduct_partners`: partners with that objective play that run.
-/

namespace VariableMetric

open Course

namespace Dialogue

variable {Q : Type} {A : Q → Type} {β γ : Type}

/-- **A dialogue with someone who answers by the exchanges before**: the exchanges that it adds to
those of the past, and what it comes to. -/
def hold (answer : List (Exchange Q A) → (q : Q) → A q) :
    Dialogue Q A β → List (Exchange Q A) → List (Exchange Q A) × Except Fault β
  | .done b, _ => ([], .ok b)
  | .fail e, _ => ([], .error e)
  | .ask q next, past =>
    let a := answer past q
    let out := hold answer (next a) (past ++ [⟨q, a⟩])
    (⟨q, a⟩ :: out.1, out.2)

/-- Every answer of a course is the one to be given after the exchanges before it. -/
def Answered (answer : List (Exchange Q A) → (q : Q) → A q) :
    List (Exchange Q A) → List (Exchange Q A) → Prop
  | _, [] => True
  | past, e :: c => e.answer = answer past e.question ∧ Answered answer (past ++ [e]) c

theorem hold_eq_ok_iff {answer : List (Exchange Q A) → (q : Q) → A q} {d : Dialogue Q A β}
    {past c : List (Exchange Q A)} {b : β} :
    d.hold answer past = (c, .ok b) ↔ d.Comes c (.done b) ∧ Answered answer past c := by
  induction d generalizing past c with
  | done b' =>
    constructor
    · intro h
      cases h
      exact ⟨.stay _, trivial⟩
    · rintro ⟨h, -⟩
      obtain ⟨rfl, hb⟩ := comes_done h
      cases hb
      rfl
  | fail e =>
    constructor
    · intro h
      cases h
    · rintro ⟨h, -⟩
      cases (comes_fail h).2
  | ask q next ih =>
    constructor
    · intro h
      have h' := Prod.mk.inj h
      obtain ⟨hc, ha⟩ := ih _ |>.1 (Prod.ext rfl h'.2)
      rw [← h'.1]
      exact ⟨.ask hc, rfl, ha⟩
    · rintro ⟨h, ha⟩
      obtain ⟨a, c', rfl, h'⟩ := comes_ask h
      obtain ⟨hq, hrest⟩ := ha
      change a = answer past q at hq
      subst hq
      have hout := (ih _).2 ⟨h', hrest⟩
      change (_ :: ((next (answer past q)).hold answer (past ++ [⟨q, answer past q⟩])).1,
        ((next (answer past q)).hold answer (past ++ [⟨q, answer past q⟩])).2) = _
      rw [hout]

/-- A dialogue gives up only for what it may. -/
theorem Keeps.hold {answer : List (Exchange Q A) → (q : Q) → A q} {d : Dialogue Q A β}
    {past : List (Exchange Q A)} {ok : Q → Prop} {bad : Fault → Prop} {fine : β → Prop} {e : Fault}
    (h : d.Keeps ok bad fine) (he : (d.hold answer past).2 = .error e) : bad e := by
  induction d generalizing past with
  | done b => cases he
  | fail e' =>
    cases he
    exact h
  | ask q next ih => exact ih _ (h.2 _) he

end Dialogue

/-- **A deterministic objective**: its value at a point when that is asked for alone, and its value
and gradient when they are asked for together. -/
structure Oracle (α : Type) (n : ℕ) where
  value : Vec α n → α
  jet : Vec α n → α × Vec α n

variable {α : Type} {n : ℕ}

/-- The answer is that of a deterministic objective. -/
def Exchange.By (o : Oracle α n) : Exchange (Request α n) Request.Answer → Prop
  | ⟨.value x, v⟩ => v = o.value x
  | ⟨.gradient x, a⟩ => a = o.jet x
  | _ => True

namespace Oracle

/-- The answers to a run on a deterministic objective, where `stop` says whether to stop each time
that this is asked. -/
def answer (o : Oracle α n) (stop : ℕ → Bool) (past : Course α n) : (q : Request α n) → q.Answer
  | .value x => o.value x
  | .gradient x => o.jet x
  | .stop => stop (polls past).length
  | .remark _ | .record _ | .finish _ => ()

/-- **The run on a deterministic objective**: its course and what it comes to. -/
def run [Scalar α] [Solver α] (o : Oracle α n) (stop : ℕ → Bool) (s : Settings α) (x0 : Vec α n) :
    Course α n × Except Fault (Result α n) :=
  (minimize s x0).hold (o.answer stop) []

theorem answered_iff {o : Oracle α n} {stop : ℕ → Bool} {past c : Course α n} :
    Dialogue.Answered (o.answer stop) past c ↔
      (∀ e ∈ c, e.By o) ∧
        polls c = (List.range' (polls past).length (polls c).length).map stop := by
  induction c generalizing past with
  | nil => exact ⟨fun _ => ⟨nofun, rfl⟩, fun _ => trivial⟩
  | cons e c ih =>
    obtain ⟨q, a⟩ := e
    rw [Dialogue.Answered, ih, List.forall_mem_cons, polls_append]
    cases q with
    | stop =>
      have hpast : (polls past ++ polls [⟨.stop, a⟩]).length = (polls past).length + 1 :=
        List.length_append
      have hcons : polls (⟨.stop, a⟩ :: c) = a :: polls c := rfl
      rw [hpast, hcons, List.length_cons, List.range'_succ, List.map_cons, List.cons.injEq]
      constructor
      · rintro ⟨ha, hby, hpolls⟩
        exact ⟨⟨trivial, hby⟩, ha, hpolls⟩
      · rintro ⟨⟨-, hby⟩, ha, hpolls⟩
        exact ⟨ha, hby, hpolls⟩
    | value x =>
      rw [show polls [(⟨.value x, a⟩ : Exchange (Request α n) Request.Answer)] = [] from rfl,
        List.append_nil]
      exact and_assoc.symm
    | gradient x =>
      rw [show polls [(⟨.gradient x, a⟩ : Exchange (Request α n) Request.Answer)] = [] from rfl,
        List.append_nil]
      exact and_assoc.symm
    | remark _ | record _ | finish _ =>
      rw [show polls [(⟨_, a⟩ : Exchange (Request α n) Request.Answer)] = [] from rfl,
        List.append_nil]
      exact ⟨fun h => ⟨⟨trivial, h.2.1⟩, h.2.2⟩, fun h => ⟨rfl, h.1.2, h.2⟩⟩

/-- **When a run is that on a deterministic objective**: its answers are those of the objective, and
the caller says what `stop` does. -/
theorem run_eq_ok_iff [Scalar α] [Solver α] {o : Oracle α n} {stop : ℕ → Bool} {s : Settings α}
    {x0 : Vec α n} {c : Course α n} {r : Result α n} :
    o.run stop s x0 = (c, .ok r) ↔
      (minimize s x0).Comes c (.done r) ∧ (∀ e ∈ c, e.By o) ∧
        polls c = (List.range (polls c).length).map stop := by
  rw [run, Dialogue.hold_eq_ok_iff, answered_iff, List.range_eq_range']
  rfl

section Segments

variable [Scalar α] {o : Oracle α n} {s : Settings α} {st : State α n} {x0 x d g : Vec α n}
  {v step : α} {b : ℕ}

/-- Before the loop only the starting point is asked for. -/
theorem by_starting (h : (v, g) = o.jet x0) : ∀ q ∈ starting s x0 v g, q.By o :=
  List.forall_mem_cons.2 ⟨h, List.forall_mem_cons.2 ⟨trivial, List.forall_mem_singleton.2 trivial⟩⟩

/-- Up to the answer at the full step nothing but that is asked for. -/
theorem by_opening [Solver α] (h : (v, g) = o.jet (st.x + d)) :
    ∀ q ∈ opening s st d v g, q.By o := by
  rw [opening, List.forall_mem_append, List.forall_mem_singleton]
  refine ⟨?_, h⟩
  unfold ridging
  split
  · exact List.forall_mem_singleton.2 trivial
  · exact List.forall_mem_nil _

/-- At an accepted point nothing is asked for. -/
theorem by_moving : ∀ q ∈ moving s st x v g b step, q.By o := by
  unfold moving
  dsimp only
  split <;> simp [Exchange.By]

end Segments

/-- **A run that the caller does not stop** returns wherever it leaves its loop. -/
theorem run_of_leaving [Scalar α] [Solver α] {o : Oracle α n} {s : Settings α} {x0 : Vec α n}
    {c : Course α n} {st : State α n} {e : Option Ending} {ending : Ending} (h : AtHead s x0 c st e)
    (hleave : Leaving s st e [] ending) (ho : ∀ q ∈ c, q.By o) :
    o.run (fun _ => false) s x0 = (c ++ finishing st ending, .ok (st.result ending)) := by
  have hne : ending ≠ .stoppedByCaller := by
    cases hleave with
    | limit hn => decide
    | ended => exact fun hend => h.ne_stopped (congrArg some hend)
  have hreturns := h.returns hleave
  have hpolls := h.polls_returns hleave
  rw [List.append_nil] at hreturns hpolls
  refine run_eq_ok_iff.2 ⟨hreturns, ?_, ?_⟩
  · rw [List.forall_mem_append]
    exact ⟨ho, by simp [finishing, Exchange.By]⟩
  · rw [hpolls, if_neg hne, List.append_nil, List.length_replicate, List.map_const',
      List.length_range]

/-- It returns from the head where its limit is reached. -/
theorem exists_run_of_atHead [Scalar α] [Solver α] {o : Oracle α n} {s : Settings α}
    {x0 : Vec α n} {c : Course α n} {st : State α n} {e : Option Ending} (h : AtHead s x0 c st e)
    (hn : st.nit = s.maxiter) (ho : ∀ q ∈ c, q.By o) :
    ∃ ending, o.run (fun _ => false) s x0 = (c ++ finishing st ending, .ok (st.result ending)) := by
  cases e with
  | none => exact ⟨_, run_of_leaving h (.limit hn) ho⟩
  | some ending => exact ⟨ending, run_of_leaving h .ended ho⟩

end Oracle

/-! ### Partners with a deterministic objective -/

/-- Answers of callables that are numbers, arrays or pairs already. -/
inductive Plain (α : Type) where
  | number (a : α)
  | array (a : NdArray α)
  | pair (v w : Plain α)

instance : Reading (Plain α) α where
  scalar
    | .number a => .ok a
    | _ => .error .arrayAsScalar
  array
    | .array a => .ok a
    | _ => .error (.ragged [])
  unpack
    | .pair v w => .ok (v, w)
    | _ => .error .tooManyToUnpack

namespace Oracle

/-- A callable that answers the points of dimension `n`. -/
def callable (f : Vec α n → Plain α) : Callable α (Plain α) := fun a =>
  match a.toVec? n with
  | some x => .ok (f x)
  | none => .error (.startShape a.shape)

/-- The objective of an oracle: one callable gives value and gradient, another the value alone. -/
def objective (o : Oracle α n) : Objective α (Plain α) :=
  .joint (callable fun x => .pair (.number (o.jet x).1) (.array (.ofVec (o.jet x).2)))
    (some (callable fun x => .number (o.value x)))

/-- Partners with a deterministic objective, and an observer who takes no notice. They remember how
often they were asked whether to stop. -/
def partners (o : Oracle α n) (stop : ℕ → Bool) : Partners ℕ α (Plain α) where
  objective := o.objective
  note _ := pure ()
  observers := [⟨fun _ _ => pure (), fun _ _ => pure ()⟩]
  callback _ _ := pure ()
  stop := do
    let k ← get
    set (k + 1)
    return stop k
  remark _ := pure ()

variable [Elementary α]

omit [Elementary α] in
theorem measure_objective (o : Oracle α n) (x : Vec α n) (k : ℕ) :
    (o.objective.measure (fun _ => pure ()) x).run.run k = (.ok (o.value x), k) := by
  have hx : callable (fun x => Plain.number (o.value x)) (.ofVec x) =
      .ok (.number (o.value x)) := by
    rw [callable, NdArray.toVec?_ofVec]
  simp only [Objective.measure, objective, Objective.value, Objective.invoke, hx]
  rfl

theorem measureBoth_objective (o : Oracle α n) (x : Vec α n) (k : ℕ) :
    (o.objective.measureBoth (fun _ => pure ()) x).run.run k = (.ok (o.jet x), k) := by
  have hx : callable (fun x => Plain.pair (.number (o.jet x).1) (.array (.ofVec (o.jet x).2)))
      (.ofVec x) = .ok (.pair (.number (o.jet x).1) (.array (.ofVec (o.jet x).2))) := by
    rw [callable, NdArray.toVec?_ofVec]
  have hjet : Handed.toJet (ν := Plain α) n (.read ((o.jet x).1, .ofVec (o.jet x).2)) =
      .ok (o.jet x) := by
    simp only [Handed.toJet, asGradient, NdArray.toVec?_ofVec]
    rfl
  simp only [Objective.measureBoth, objective, Objective.both, Objective.readJoint,
    Objective.invokeJoint, Objective.invoke, hx]
  change (Talk.ofExcept (Handed.toJet n (.read ((o.jet x).1, .ofVec (o.jet x).2)))).run.run k = _
  rw [hjet]
  rfl

/-- The answers of the partners, and how often they have been asked whether to stop after them. -/
theorem answer_partners (o : Oracle α n) (stop : ℕ → Bool) (past : Course α n) (q : Request α n) :
    ((o.partners stop).answer q).run.run (polls past).length =
      (.ok (o.answer stop past q), (polls (past ++ [⟨q, o.answer stop past q⟩])).length) := by
  rw [polls_append, List.length_append]
  cases q with
  | value x => exact measure_objective o x _
  | gradient x => exact measureBoth_objective o x _
  | stop => rfl
  | remark r => rfl
  | record q => rfl
  | finish r => rfl

/-- **Partners with a deterministic objective play the run on it.** -/
theorem conduct_partners [Solver α] {β : Type} (o : Oracle α n) (stop : ℕ → Bool)
    (d : Descent α n β) (past : Course α n) :
    (d.conduct (o.partners stop).answer).run.run (polls past).length =
      ((d.hold (o.answer stop) past).2,
        (polls (past ++ (d.hold (o.answer stop) past).1)).length) := by
  induction d generalizing past with
  | done b =>
    rw [Dialogue.hold, List.append_nil]
    rfl
  | fail e =>
    rw [Dialogue.hold, List.append_nil]
    rfl
  | ask q next ih =>
    rw [Dialogue.conduct, Talk.run_bind, answer_partners]
    refine (ih _ _).trans ?_
    rw [Dialogue.hold, List.append_assoc]
    rfl

end Oracle

end VariableMetric
