import VariableMetric.Algebra.Factors
import VariableMetric.Descent.Partners
import VariableMetric.Objective.Formula
import VariableMetric.Report.Observer

/-!
# Sessions

A run on doubles, from what a caller hands over to its result, with all that happens on the way.
Observers outlast a run: those of one run can be passed to the next.

* `Happening`: what can happen in a run.
* `World`: what has happened, and what the partners of a run remember.
* `Setup`: what a caller hands over.
* `Setup.run`: a run; `Outcome`: what it came to.
* `solve`: a run that is handed nothing beyond its objective, its start and its options, and gives
  back no more than a `Solution`.
-/

namespace VariableMetric

open Report (Figures Notice Observer Output)

/-- What can happen in a run. -/
inductive Happening where
  /-- A callable is called. -/
  | called (c : Call)
  /-- An observer or the run itself puts something out. -/
  | output (o : Output)
  /-- The callback is told of an iteration. -/
  | reported (n : Nat) (r : Record Float n)

/-- The state that the partners of a run share. -/
structure World where
  /-- What has happened, the latest first. -/
  past : List Happening
  /-- The observers as they are now. -/
  observers : List Observer
  /-- How often it has been asked whether to stop. -/
  polls : Nat

namespace World

/-- One more thing has happened. -/
def add (w : World) (h : Happening) : World := { w with past := h :: w.past }

/-- Observer `i` reacts. -/
def react (i : Nat) (hear : Observer → Report.Reaction) : Talk World Unit := do
  let w ← get
  match w.observers[i]? with
  | none => pure ()
  | some o =>
    let reaction := hear o
    set (reaction.outputs.foldl (fun w o => w.add (.output o))
      { w with observers := w.observers.set i reaction.observer })
    Talk.ofExcept reaction.outcome

/-- Observer `i` as a listener. -/
def listener (i : Nat) : Listener World Float where
  record _ r := react i (Observer.hearIteration (.ok (some r.iteration)) (.ok (Figures.ofRecord r)))
  finish _ r := react i (Observer.hearFinish r.ending.status r.ending.message)

end World

/-- What a caller hands over. -/
structure Setup where
  objective : Subject Float Datum
  /-- The starting point. -/
  start : Datum
  /-- What the options are built on. -/
  base : Base
  /-- What is set on top of that, and arguments of the run by their names. -/
  overrides : List (String × Datum)
  /-- Told of every iteration; it may fail. -/
  callback : Argument ((n : Nat) → Record Float n → Except Fault Unit)
  /-- Whether to stop, when it has been asked that often before; it may be left open. -/
  stop : Option (Argument (Nat → Bool))
  /-- The accepted points are kept; it may be left open. -/
  history : Option Bool

/-- The settings of a run. Numbers that are compared with doubles are replaced by the doubles that
stand in for them. -/
def Options.settings (o : Options) (history : Bool) : Settings Float where
  maxiter := o.maxiter
  tolx := o.tolx.ceiling
  tolfun := o.tolfun.ceiling
  backtrack := o.backtrack
  minStep := o.minStep.floor
  curvatureTol := o.curvatureTol.floor
  ridge := 1e-12
  trialLimit := trialLimit
  history := history

/-- A point of some dimension. -/
structure Point where
  dim : Nat
  entries : Vec Float dim

/-- **The starting point** that a value stands for: at least one finite number; a lone number is a
point of dimension one. -/
def Point.ofStart (d : Datum) : Except Fault Point := do
  let a ← d.toArray
  match a.shape with
  | [] | [_] => start ⟨a.shape.cells, a.entries⟩
  | shape => throw (.startShape shape)
where
  /-- A point that a run can start from. -/
  start (p : Point) : Except Fault Point :=
    if p.dim = 0 then .error .startEmpty
    else if allFinite p.entries then .ok p
    else .error .startInfinite

/-- What a run came to. -/
structure Outcome where
  /-- What happened, in order. -/
  happenings : List Happening
  /-- The observers as the run left them. -/
  observers : List Observer
  /-- The dimension and the result. -/
  result : Except Fault ((n : Nat) × Result Float n)

/-- The arguments that every run is handed in a fixed order, by name. -/
def handedOver : List String := ["objective", "x0", "options"]

/-- The argument that every run is handed by its name. -/
def handedByName : String := "callback"

/-- The arguments that may be left open, and are then looked for among the overrides. -/
def leftOpen : List String := ["observers", "should_stop", "history"]

namespace Setup

/-- The partners of a run with `count` observers. -/
def partners (s : Setup) (objective : Objective Float Datum) (threshold : Float) (count : Nat) :
    Partners World Float Datum where
  objective := objective
  note c := modify (·.add (.called c))
  observers := (List.range count).map World.listener
  callback n r := match s.callback with
    | .value .nothing => pure ()
    | .value d => throw (.called d)
    | .callable take => do
      modify (·.add (.reported n r))
      Talk.ofExcept (take n r)
  stop := match s.stop with
    | none | some (.value .nothing) => pure false
    | some (.value d) => throw (.called d)
    | some (.callable decide) => do
      modify (·.add (.called .poll))
      let w ← get
      set { w with polls := w.polls + 1 }
      return decide w.polls
  remark r := modify (·.add (.output (.logged (Report.remarkEntry threshold r))))

/-- The override of a name. -/
def override? (s : Setup) (name : String) : Option Datum :=
  (s.overrides.find? (·.1 == name)).map (·.2)

/-- The setup with the arguments that it leaves open taken from the overrides. Overrides of other
names are options. -/
def settle (s : Setup) : Setup :=
  { s with
    overrides := s.overrides.filter fun e => !leftOpen.contains e.1
    stop := s.stop.or ((s.override? "should_stop").map .value)
    history := s.history.or ((s.override? "history").map Datum.isTrue) }

/-- The call that starts a run, as messages name it in full. -/
def runCall : String := "bfgsmin.optimize.quasi_newton.bfgs"

/-- What a run needs: its objective, its options and its starting point, checked in this order. No
argument can be handed over twice. -/
def prepare (s : Setup) : Except Fault (Objective Float Datum × Options × Point) := do
  if (s.override? handedByName).isSome then throw (.keywordTwice runCall handedByName)
  if let some (name, _) := s.overrides.find? fun e => handedOver.contains e.1 then
    throw (.argumentTwice "bfgs" name)
  let objective ← s.objective.toObjective
  let assembled ← Options.assemble s.base s.settle.overrides
  let start ← Point.ofStart s.start
  return (objective, assembled.options, start)

/-- The observers of a run: those that it is handed, or else those among the overrides; where there
are none, the options decide what is displayed. -/
def observersFor (s : Setup) (options : Options) (observers : Option (List Observer)) :
    Except Fault (List Observer) :=
  match observers, s.override? "observers" with
  | some handed, _ => .ok handed
  | none, none | none, some .nothing => .ok (Observer.ofDisplay options.display)
  | none, some d => match d.parts? with
    | some items => .ok (items.map .value)
    | none => .error (.notIterable d)

/-- A run with all that it needs. -/
def play (s : Setup) (objective : Objective Float Datum) (options : Options) (start : Point)
    (observers : List Observer) : Outcome :=
  match options.curvatureTol.toFloat with
  | .error e => ⟨[], observers, .error e⟩
  | .ok threshold =>
    let partners := s.partners objective threshold observers.length
    let settings := options.settings (s.history.getD false)
    let (result, world) := (partners.play settings start.entries).run.run ⟨[], observers, 0⟩
    ⟨world.past.reverse, world.observers, result.map fun r => ⟨start.dim, r⟩⟩

/-- **A run** with the observers that it is handed, if there are any. -/
def run (s : Setup) (observers : Option (List Observer)) : Outcome :=
  match (do
      let (objective, options, start) ← s.prepare
      return (objective, options, start, ← s.observersFor options observers) :
      Except Fault (Objective Float Datum × Options × Point × List Observer)) with
  | .error e => ⟨[], observers.getD [], .error e⟩
  | .ok (objective, options, start, taking) => s.settle.play objective options start taking

/-- The setup of a run that is handed an objective, a starting point and options, and nothing
else. -/
def bare (objective : Subject Float Datum) (start : Datum) (base : Base) : Setup where
  objective := objective
  start := start
  base := base
  overrides := []
  callback := .value .nothing
  stop := none
  history := none

end Setup

/-- Where a run ended: the point, its value, and the exit status. -/
structure Solution where
  dim : Nat
  x : Vec Float dim
  value : Float
  status : ExitStatus

/-- The part of a result that a solution keeps. -/
def Result.solution {n : Nat} (r : Result Float n) : Solution := ⟨n, r.x, r.value, r.ending.status⟩

/-- **A run in short**: what happens in it, and where it ends. -/
def solve (objective : Subject Float Datum) (start : Datum) (base : Base) :
    List Happening × Except Fault Solution :=
  let outcome := (Setup.bare objective start base).run none
  (outcome.happenings, outcome.result.map fun r => r.2.solution)

end VariableMetric
