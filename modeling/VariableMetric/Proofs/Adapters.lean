import VariableMetric.Proofs.Oracle
import VariableMetric.Proofs.Projection
import VariableMetric.Session

/-!
# Adapters are interchangeable

A function for the value and one for the gradient can be handed over in several makes: apart, as one
callable for both, or as an objective of the caller's own, the last two with or without a callable
for the value alone. Each make calls other callables, and reads their answers in its own order.

* `Total`: the two functions answer a number and a gradient at every point.
* `Reads`: what is read of their answers at one point.
* `Objective.adapters`: **the makes**; each of them answers every request alike (`measure_yields`,
  `measureBoth_yields`).
* `World.outward`: what happens in a run, the calls of the objective left out. Seen so, a run talks
  to its objective by questions and answers alone (`Setup.answer_projects`).
* `adapters_interchangeable`: **the outcome of a run** is the same for all makes.
-/

namespace VariableMetric

open Objective

section Answers

variable {α ν σ κ : Type} {n : ℕ} [Reading ν α] {f g fg : Callable α ν}

/-- **Total functions**: `f` answers a number, and `g` a gradient, at every point of dimension `n`.
-/
structure Total (n : ℕ) (f g : Callable α ν) : Prop where
  number (x : Vec α n) : ∃ v a, f (.ofVec x) = .ok v ∧ Reading.scalar v = .ok a
  gradient (x : Vec α n) :
    ∃ w b d, g (.ofVec x) = .ok w ∧ Reading.array w = .ok b ∧ b.toVec? n = some d

/-- `fg` answers what `f` and `g` do, as a pair. -/
def Pairs (f g fg : Callable α ν) : Prop :=
  ∀ x v w, f x = .ok v → g x = .ok w → ∃ p, fg x = .ok p ∧ Reading.unpack p = .ok (v, w)

/-- **What is read at `x`**, apart or together: the value `a` and the gradient `d`. -/
def Reads (f g fg : Callable α ν) (x : Vec α n) (a : α) (d : Vec α n) : Prop :=
  ∃ v w p b, f (.ofVec x) = .ok v ∧ g (.ofVec x) = .ok w ∧ fg (.ofVec x) = .ok p ∧
    Reading.unpack p = .ok (v, w) ∧ Reading.scalar v = .ok a ∧ Reading.array w = .ok b ∧
    b.toVec? n = some d

/-- **The objective of total functions**, which answers alike with and without a gradient. -/
theorem Total.exists_oracle (h : Total n f g) (hfg : Pairs f g fg) :
    ∃ o : Oracle α n, ∀ x, (o.jet x).1 = o.value x ∧ Reads f g fg x (o.value x) (o.jet x).2 := by
  choose v a hv ha using h.number
  choose w b d hw hb hd using h.gradient
  refine ⟨⟨a, fun x => (a x, d x)⟩, fun x => ⟨rfl, ?_⟩⟩
  obtain ⟨p, hp, hunpack⟩ := hfg _ _ _ (hv x) (hw x)
  exact ⟨v x, w x, p, b x, hv x, hw x, hp, hunpack, ha x, hb x, hd x⟩

/-- **The makes of an objective** from callables for the value, the gradient, and both. -/
def Objective.adapters (f g fg : Callable α ν) : List (Objective α ν) :=
  [.apart f g, .joint fg none, .joint fg (some f), .custom fg none, .custom fg (some f)]

variable {view : σ → κ} {note : Call → Talk σ Unit} {x : Vec α n} {a : α} {d : Vec α n}
  {o : Objective α ν}

/-- Calls of the objective are not seen. -/
abbrev Unseen (view : σ → κ) (note : Call → Talk σ Unit) : Prop :=
  ∀ c, c ≠ .poll → Talk.Yields view (note c) ()

omit [Reading ν α] in
theorem invoke_yields {β : Type} {c : Call} {b : β} (hnote : Unseen view note) (hc : c ≠ .poll) :
    Talk.Yields view (invoke note c (.ok b)) b :=
  .yields_bind (hnote c hc) (.pure b)

theorem invokeJoint_yields {y : NdArray α} {p v w : ν} (hnote : Unseen view note)
    (hp : fg y = .ok p) (hunpack : Reading.unpack p = .ok (v, w)) :
    Talk.Yields view (invokeJoint note fg y) (v, w) := by
  rw [invokeJoint, hp]
  refine .yields_bind (invoke_yields hnote (by decide)) ?_
  rw [hunpack]
  exact .pure _

theorem readJoint_yields {y : NdArray α} {p v w : ν} {b : NdArray α} (hnote : Unseen view note)
    (hp : fg y = .ok p) (hunpack : Reading.unpack p = .ok (v, w)) (ha : Reading.scalar v = .ok a)
    (hb : Reading.array w = .ok b) : Talk.Yields view (readJoint note fg y) (a, b) := by
  refine .yields_bind (invokeJoint_yields hnote hp hunpack) ?_
  dsimp only
  rw [ha, hb]
  exact .pure _

/-- **A request for the value** is answered alike by all makes. -/
theorem measure_yields (hnote : Unseen view note) (h : Reads f g fg x a d)
    (ho : o ∈ adapters f g fg) : Talk.Yields view (o.measure note x) a := by
  obtain ⟨v, w, p, b, hv, hw, hp, hunpack, ha, hb, hd⟩ := h
  -- the answer is a number already, or is read as one afterwards
  suffices hvalue : ∃ answer, Talk.Yields view (o.value note (.ofVec x)) answer ∧
      answer.toScalar = .ok a by
    obtain ⟨answer, hyields, hread⟩ := hvalue
    refine .yields_bind hyields ?_
    rw [hread]
    exact .pure a
  have hf : Talk.Yields view (invoke note .value (f (.ofVec x))) v := by
    rw [hv]
    exact invoke_yields hnote (by decide)
  have hnumber : Talk.Yields view (do
      let v ← invoke note .value (f (.ofVec x))
      return Handed.read (γ := ν) (← Talk.ofExcept (Reading.scalar v))) (.read a) := by
    refine .yields_bind hf ?_
    rw [ha]
    exact .pure _
  simp only [adapters, List.mem_cons, List.not_mem_nil, or_false] at ho
  rcases ho with rfl | rfl | rfl | rfl | rfl
  · exact ⟨.read a, hnumber, rfl⟩
  · exact ⟨.read a, .yields_bind (readJoint_yields hnote hp hunpack ha hb) (.pure _), rfl⟩
  · exact ⟨.read a, hnumber, rfl⟩
  · exact ⟨.raw v, .yields_bind (invokeJoint_yields hnote hp hunpack) (.pure _), ha⟩
  · exact ⟨.raw v, .yields_bind hf (.pure _), ha⟩

/-- **A request for value and gradient** is answered alike by all makes. -/
theorem measureBoth_yields [Elementary α] (hnote : Unseen view note) (h : Reads f g fg x a d)
    (ho : o ∈ adapters f g fg) : Talk.Yields view (o.measureBoth note x) (a, d) := by
  obtain ⟨v, w, p, b, hv, hw, hp, hunpack, ha, hb, hd⟩ := h
  have hgradient : asGradient n b = .ok d := by rw [asGradient, hd]
  suffices hboth : ∃ answer, Talk.Yields view (o.both note (.ofVec x)) answer ∧
      answer.toJet n = .ok (a, d) by
    obtain ⟨answer, hyields, hread⟩ := hboth
    refine .yields_bind hyields ?_
    rw [hread]
    exact .pure (a, d)
  have hread : Handed.toJet (ν := ν) n (.read (a, b)) = .ok (a, d) := by
    rw [Handed.toJet, hgradient]
    rfl
  have hraw : Handed.toJet n (.raw (v, w)) = .ok (a, d) := by
    simp only [Handed.toJet, ha, hb]
    change (do let g ← asGradient n b; return (a, g)) = _
    rw [hgradient]
    rfl
  simp only [adapters, List.mem_cons, List.not_mem_nil, or_false] at ho
  rcases ho with rfl | rfl | rfl | rfl | rfl
  · refine ⟨.read (a, b), ?_, hread⟩
    rw [both, hv, hw]
    refine .yields_bind (invoke_yields hnote (by decide)) ?_
    rw [ha]
    refine .yields_bind (.pure a) (.yields_bind (invoke_yields hnote (by decide)) ?_)
    rw [hb]
    exact .pure _
  · exact ⟨_, .yields_bind (readJoint_yields hnote hp hunpack ha hb) (.pure _), hread⟩
  · exact ⟨_, .yields_bind (readJoint_yields hnote hp hunpack ha hb) (.pure _), hread⟩
  · exact ⟨_, .yields_bind (invokeJoint_yields hnote hp hunpack) (.pure _), hraw⟩
  · exact ⟨_, .yields_bind (invokeJoint_yields hnote hp hunpack) (.pure _), hraw⟩

end Answers

/-! ### Sessions -/

/-- Everything but the calls of the objective. -/
def Happening.outward : Happening → Bool
  | .called .poll | .output _ | .reported .. => true
  | .called _ => false

namespace World

/-- **What is seen from outside**: the calls of the objective are not. -/
def outward (w : World) : World := { w with past := w.past.filter Happening.outward }

theorem outward_add (w : World) {h : Happening} (hh : h.outward = true) :
    (w.add h).outward = w.outward.add h := by
  simp only [outward, add, List.filter_cons_of_pos hh]

theorem outward_add_call (w : World) {c : Call} (hc : c ≠ .poll) :
    (w.add (.called c)).outward = w.outward := by
  have hh : ¬ (Happening.called c).outward = true := by
    cases c with
    | poll => exact absurd rfl hc
    | value | gradient | joint | untracked | tracked => exact Bool.false_ne_true
  simp only [outward, add, List.filter_cons_of_neg hh]

theorem outward_outputs (outputs : List Report.Output) (w : World) :
    (outputs.foldl (fun w o => w.add (.output o)) w).outward =
      outputs.foldl (fun w o => w.add (.output o)) w.outward := by
  induction outputs generalizing w with
  | nil => rfl
  | cons o os ih => rw [List.foldl_cons, List.foldl_cons, ih, outward_add w rfl]

theorem react_run (i : ℕ) (hear : Report.Observer → Report.Reaction) (w : World) :
    (react i hear).run.run w =
      match w.observers[i]? with
      | none => (.ok (), w)
      | some o => ((hear o).outcome, (hear o).outputs.foldl (fun w o => w.add (.output o))
          { w with observers := w.observers.set i (hear o).observer }) := by
  change ExceptT.run (match w.observers[i]? with
    | none => (pure () : Talk World Unit)
    | some o => do
      set ((hear o).outputs.foldl (fun w o => w.add (.output o))
        { w with observers := w.observers.set i (hear o).observer })
      Talk.ofExcept (hear o).outcome) w = _
  cases w.observers[i]? <;> rfl

/-- An observer reacts to what is seen. -/
theorem react_projects (i : ℕ) (hear : Report.Observer → Report.Reaction) :
    Talk.Projects outward (react i hear) (react i hear) := by
  intro w
  have hsame : w.outward.observers[i]? = w.observers[i]? := rfl
  rw [react_run, react_run, hsame]
  cases w.observers[i]? with
  | none => rfl
  | some o =>
    dsimp only
    rw [outward_outputs]
    rfl

/-- What happens is seen, unless it is a call of the objective. -/
theorem add_projects {h : Happening} (hh : h.outward = true) :
    Talk.Projects outward (modify (·.add h)) (modify (·.add h)) :=
  fun w => congrArg (Prod.mk (Except.ok ())) (w.outward_add hh).symm

end World

/-- Telling everyone is seen as telling everyone. -/
theorem tell_projects {σ κ β : Type} {view : σ → κ} {act : β → Talk σ Unit} {act' : β → Talk κ Unit}
    {bs : List β} (h : ∀ b ∈ bs, Talk.Projects view (act b) (act' b)) :
    Talk.Projects view (Partners.tell act bs) (Partners.tell act' bs) := by
  induction bs with
  | nil => exact .pure ()
  | cons b bs ih =>
    rw [List.forall_mem_cons] at h
    exact h.1.bind fun _ => ih h.2

/-- The answers of partners, those of the objective being those of a deterministic one. -/
def Partners.answerWith {σ α ν : Type} {n : ℕ} [Elementary α] [Reading ν α] (p : Partners σ α ν)
    (o : Oracle α n) : (q : Request α n) → Talk σ q.Answer
  | .value x => pure (o.value x)
  | .gradient x => pure (o.jet x)
  | .stop => p.answer (n := n) .stop
  | .remark r => p.answer (n := n) (.remark r)
  | .record r => p.answer (.record r)
  | .finish r => p.answer (.finish r)

namespace Setup

variable {s : Setup} {f g fg : Callable Float Datum} {n : ℕ} {o : Oracle Float n}
  {a b : Objective Float Datum} {threshold : Float} {count : ℕ}

/-- **Seen from outside**, the partners of a run answer for any make of the objective as they would
for one that answers without being called. -/
theorem answer_projects
    (ho : ∀ x, (o.jet x).1 = o.value x ∧ Reads f g fg x (o.value x) (o.jet x).2)
    (ha : a ∈ adapters f g fg) (q : Request Float n) :
    Talk.Projects World.outward ((s.partners a threshold count).answer q)
      ((s.partners a threshold count).answerWith o q) := by
  have hnote : Unseen World.outward (s.partners a threshold count).note := fun c hc w =>
    congrArg (Prod.mk (Except.ok ())) (w.outward_add_call hc).symm
  cases q with
  | value x => exact measure_yields hnote (ho x).2 ha
  | gradient x =>
    have hboth := measureBoth_yields hnote (ho x).2 ha
    rw [← (ho x).1] at hboth
    exact hboth
  | stop =>
    change Talk.Projects _ (s.partners a threshold count).stop (s.partners a threshold count).stop
    simp only [Setup.partners]
    split
    · exact .pure false
    · exact .pure false
    · exact .ofExcept (.error _)
    · exact (World.add_projects rfl).bind fun _ w => rfl
  | remark r => exact World.add_projects rfl
  | record r =>
    have hlisteners : ∀ l ∈ (List.range count).map World.listener,
        Talk.Projects World.outward (l.record n r) (l.record n r) := by
      intro l hl
      obtain ⟨i, -, rfl⟩ := List.mem_map.1 hl
      exact World.react_projects i _
    refine (tell_projects hlisteners).bind fun _ => ?_
    simp only [Setup.partners]
    split
    · exact .pure ()
    · exact .ofExcept (.error _)
    · exact (World.add_projects rfl).bind fun _ => .ofExcept _
  | finish r =>
    have hlisteners : ∀ l ∈ (List.range count).map World.listener,
        Talk.Projects World.outward (l.finish n r) (l.finish n r) := by
      intro l hl
      obtain ⟨i, -, rfl⟩ := List.mem_map.1 hl
      exact World.react_projects i _
    exact tell_projects hlisteners

/-- What the partners of a run answer apart from the objective does not depend on it. -/
theorem answerWith_partners (a b : Objective Float Datum) :
    (s.partners a threshold count).answerWith o = (s.partners b threshold count).answerWith o := by
  funext q
  cases q <;> rfl

end Setup

/-- What a run comes to, the calls of the objective left out. -/
def Outcome.outward (r : Outcome) : Outcome :=
  { r with happenings := r.happenings.filter Happening.outward }

/-- What a run from a starting point came to, by its result and the state that it left. -/
def Outcome.ofPlay (start : Point) (out : Except Fault (Result Float start.dim) × World) :
    Outcome :=
  ⟨out.2.past.reverse, out.2.observers, out.1.map fun r => ⟨start.dim, r⟩⟩

theorem Outcome.outward_ofPlay (start : Point)
    (out : Except Fault (Result Float start.dim) × World) :
    (Outcome.ofPlay start out).outward = Outcome.ofPlay start (out.1, out.2.outward) := by
  rw [Outcome.outward, Outcome.ofPlay, List.filter_reverse]
  rfl

namespace Setup

variable {s : Setup} {f g fg : Callable Float Datum} {a b : Objective Float Datum}

theorem play_eq {options : Options} {threshold : Float}
    (h : options.curvatureTol.toFloat = .ok threshold) (start : Point)
    (observers : List Report.Observer) :
    s.play a options start observers =
      Outcome.ofPlay start (((s.partners a threshold observers.length).play
        (options.settings (s.history.getD false)) start.entries).run.run ⟨[], observers, 0⟩) := by
  unfold play
  rw [h]
  rfl

/-- **A run that has what it needs** comes to the same with two makes of an objective. -/
theorem play_outward {start : Point} (h : Total start.dim f g) (hfg : Pairs f g fg)
    (ha : a ∈ adapters f g fg) (hb : b ∈ adapters f g fg) (options : Options)
    (observers : List Report.Observer) :
    (s.play a options start observers).outward = (s.play b options start observers).outward := by
  obtain ⟨o, ho⟩ := h.exists_oracle hfg
  cases hthreshold : options.curvatureTol.toFloat with
  | error e => simp only [play, hthreshold]
  | ok threshold =>
    -- both are seen as the run with the partners that answer without a call
    let d := minimize (options.settings (s.history.getD false)) start.entries
    let world : World := ⟨[], observers, 0⟩
    let partners (c : Objective Float Datum) := s.partners c threshold observers.length
    have hseen {c : Objective Float Datum} (hc : c ∈ adapters f g fg) :
        (d.conduct ((partners c).answerWith o)).run.run world.outward =
          (((d.conduct (partners c).answer).run.run world).1,
            ((d.conduct (partners c).answer).run.run world).2.outward) :=
      Dialogue.conduct_projects (answer_projects ho hc) d world
    have hquiet : (d.conduct ((partners a).answerWith o)).run.run world.outward =
        (d.conduct ((partners b).answerWith o)).run.run world.outward :=
      congrArg (fun answer => (d.conduct answer).run.run world.outward) (answerWith_partners a b)
    rw [play_eq hthreshold, play_eq hthreshold, Outcome.outward_ofPlay, Outcome.outward_ofPlay]
    exact congrArg (Outcome.ofPlay start) ((hseen ha).symm.trans (hquiet.trans (hseen hb)))

/-- What a run needs apart from its objective. -/
def needed (s : Setup) : Except Fault (Options × Point) := do
  if (s.override? handedByName).isSome then throw (.keywordTwice runCall handedByName)
  if let some (name, _) := s.overrides.find? fun e => handedOver.contains e.1 then
    throw (.argumentTwice "bfgs" name)
  let assembled ← Options.assemble s.base s.settle.overrides
  let start ← Point.ofStart s.start
  return (assembled.options, start)

/-- An objective that can be used is needed before the options are. -/
theorem prepare_eq (h : s.objective.toObjective = .ok a) :
    s.prepare = s.needed.map fun r => (a, r) := by
  unfold prepare needed
  rw [h]
  cases (s.override? handedByName).isSome with
  | true => rfl
  | false =>
    cases s.overrides.find? fun e => handedOver.contains e.1 with
    | some e => rfl
    | none =>
      cases Options.assemble s.base s.settle.overrides with
      | error e => rfl
      | ok assembled =>
        cases Point.ofStart s.start with
        | error e => rfl
        | ok start => rfl

/-- A run, from what it needs on. -/
theorem run_eq (h : s.objective.toObjective = .ok a) (observers : Option (List Report.Observer)) :
    s.run observers =
      match s.needed with
      | .error e => ⟨[], observers.getD [], .error e⟩
      | .ok (options, start) =>
        match s.observersFor options observers with
        | .error e => ⟨[], observers.getD [], .error e⟩
        | .ok taking => s.settle.play a options start taking := by
  unfold run
  rw [prepare_eq h]
  cases s.needed with
  | error e => rfl
  | ok r =>
    obtain ⟨options, start⟩ := r
    cases htaking : s.observersFor options observers with
    | error e =>
      simp only [Except.map, bind, Except.bind, htaking]
    | ok taking =>
      simp only [Except.map, bind, Except.bind, htaking]
      rfl

/-- Nothing else that a run needs depends on the objective that it is handed. -/
theorem run_with {x : Subject Float Datum} (h : x.toObjective = .ok a)
    (observers : Option (List Report.Observer)) :
    Setup.run { s with objective := x } observers =
      match s.needed with
      | .error e => ⟨[], observers.getD [], .error e⟩
      | .ok (options, start) =>
        match s.observersFor options observers with
        | .error e => ⟨[], observers.getD [], .error e⟩
        | .ok taking => s.settle.play a options start taking :=
  run_eq (s := { s with objective := x }) h observers

/-- What a run needs has a starting point that it can start from. -/
theorem ofStart_of_needed {options : Options} {start : Point}
    (h : s.needed = .ok (options, start)) :
    Point.ofStart s.start = .ok start := by
  unfold needed at h
  cases hhanded : (s.override? handedByName).isSome with
  | true => rw [hhanded] at h; cases h
  | false =>
    cases htwice : s.overrides.find? fun e => handedOver.contains e.1 with
    | some e => simp only [hhanded, htwice] at h; cases h
    | none =>
      cases hassembled : Options.assemble s.base s.settle.overrides with
      | error e => simp only [hhanded, htwice, hassembled] at h; cases h
      | ok assembled =>
        cases hstart : Point.ofStart s.start with
        | error e => simp only [hhanded, htwice, hassembled, hstart] at h; cases h
        | ok p => simp only [hhanded, htwice, hassembled, hstart] at h; cases h; rfl

end Setup

/-- The callable that answers the value and the gradient as a pair. -/
def paired (f g : Callable Float Datum) : Callable Float Datum := fun x => do
  return .tuple [← f x, ← g x]

theorem pairs_paired (f g : Callable Float Datum) : Pairs f g (paired f g) := by
  intro x v w hv hw
  refine ⟨.tuple [v, w], ?_, rfl⟩
  rw [paired, hv, hw]
  rfl

/-- **The ways to hand over** a value and a gradient as the objective of a run. -/
def Subject.adapters (f g : Callable Float Datum) : List (Subject Float Datum) :=
  .callable (paired f g) :: (Objective.adapters f g (paired f g)).map .objective

theorem Subject.toObjective_of_adapters {f g : Callable Float Datum} {a : Subject Float Datum}
    (ha : a ∈ adapters f g) :
    ∃ o ∈ Objective.adapters f g (paired f g), a.toObjective = .ok o := by
  rcases List.mem_cons.1 ha with rfl | ha
  · exact ⟨.joint (paired f g) none, by simp [Objective.adapters], rfl⟩
  · obtain ⟨o, ho, rfl⟩ := List.mem_map.1 ha
    exact ⟨o, ho, rfl⟩

/-- **Adapters are interchangeable.** Whatever is handed over with them, in whatever way a value and
a gradient that are total are handed over as the objective: the run has the same result, or fails
with the same fault, leaves its observers the same, and all that happens but the calls of the
objective is the same. -/
theorem adapters_interchangeable (s : Setup) {f g : Callable Float Datum}
    (h : ∀ p, Point.ofStart s.start = .ok p → Total p.dim f g)
    (observers : Option (List Report.Observer)) {a b : Subject Float Datum}
    (ha : a ∈ Subject.adapters f g) (hb : b ∈ Subject.adapters f g) :
    (Setup.run { s with objective := a } observers).outward =
      (Setup.run { s with objective := b } observers).outward := by
  obtain ⟨oa, hoa, haa⟩ := Subject.toObjective_of_adapters ha
  obtain ⟨ob, hob, hbb⟩ := Subject.toObjective_of_adapters hb
  rw [Setup.run_with haa, Setup.run_with hbb]
  cases hneeded : s.needed with
  | error e => rfl
  | ok r =>
    obtain ⟨options, start⟩ := r
    dsimp only
    cases s.observersFor options observers with
    | error e => rfl
    | ok taking =>
      have htotal : Total start.dim f g := h start (Setup.ofStart_of_needed hneeded)
      exact Setup.play_outward htotal (pairs_paired f g) hoa hob options taking

/-- Half the square of a point, whose gradient is the point itself. -/
theorem adapters_interchangeable_halfSquare :
    let f : Callable Float Datum := fun x => .ok (.float (dot x.entries x.entries / 2))
    let g : Callable Float Datum := fun x => .ok (.array x)
    let s : Setup :=
      ⟨.value .nothing, .list [.float 3, .float 4], .nothing, [], .value .nothing, none, none⟩
    (∃ p, Point.ofStart s.start = .ok p ∧ p.dim = 2) ∧
      (∀ p, Point.ofStart s.start = .ok p → Total p.dim f g) ∧
      .callable (paired f g) ∈ Subject.adapters f g ∧
      .objective (.apart f g) ∈ Subject.adapters f g ∧
      (Setup.run { s with objective := .callable (paired f g) } none).outward =
        (Setup.run { s with objective := .objective (.apart f g) } none).outward := by
  intro f g s
  have htotal (n : ℕ) : Total n f g := by
    refine ⟨fun x => ⟨_, _, rfl, rfl⟩, fun x => ?_⟩
    exact ⟨_, _, _, rfl, rfl, dif_pos rfl⟩
  have hpair : .callable (paired f g) ∈ Subject.adapters f g := List.mem_cons_self
  have hapart : .objective (.apart f g) ∈ Subject.adapters f g :=
    List.mem_cons_of_mem _ List.mem_cons_self
  have hfinite : allFinite (#v[3, 4] : Vec Float 2) = true := by decide +kernel
  refine ⟨⟨⟨2, #v[3, 4]⟩, if_pos hfinite, rfl⟩, fun p _ => htotal p.dim, hpair, hapart, ?_⟩
  exact adapters_interchangeable s (fun p _ => htotal p.dim) none hpair hapart

end VariableMetric
