import VariableMetric.Options

/-!
# Making options

Options are made step by step, on earlier options or on none, and a step that fails does not stop
the next. What is made is kept; an attempt to set an attribute of it is refused.

* `Given`: a value that a step is handed, in which there can be what earlier steps came to.
* `OptionStep`: the three ways to make or to change options.
* `Workshop.perform`, `Workshop.run`: one step, and one step after the other.
-/

namespace VariableMetric

/-- An attribute set, of whatever name and to whatever value: options never change. -/
def Options.assign (_ : Options) (name : String) (_ : Datum) : Except Fault Options :=
  .error (.frozenOption name)

/-- A value that a step is handed. -/
inductive Given where
  | datum (d : Datum)
  /-- The options that the step of this number came to; nothing if it came to none. -/
  | made (step : Nat)
  | list (items : List Given)
  | dictionary (entries : List (String × Given))

/-- A step that makes options, or tries to change some. -/
inductive OptionStep where
  /-- Options from the defaults and named values. -/
  | make (values : List (String × Given))
  /-- Options from a base and overrides. -/
  | assemble (base : Given) (overrides : List (String × Given))
  /-- An attribute set of the options that a step came to. -/
  | assign (step : Nat) (name : String) (value : Given)

/-- The options made so far, and what each step came to. -/
structure Workshop where
  /-- All options ever made, in order. -/
  objects : List Options := []
  /-- The place of the options that a step came to, if it came to any. -/
  results : List (Option Nat) := []

namespace Workshop

/-- The place of the options that a step came to. -/
def place? (w : Workshop) (step : Nat) : Option Nat := (w.results[step]?).join

/-- The options that a step came to. -/
def object? (w : Workshop) (step : Nat) : Option Options :=
  (w.place? step).bind fun place => w.objects[place]?

/-- What options count as where a value of another kind is wanted: no number, no text, and nothing
that has parts. A fault shows this value in their place. -/
def foreign : Datum := .array ⟨[], #v[0]⟩

mutual

/-- What is handed over, as a value. -/
def value (w : Workshop) : Given → Datum
  | .datum d => d
  | .made step => if (w.object? step).isSome then foreign else .nothing
  | .list items => .list (w.valueItems items)
  | .dictionary entries => .dictionary (w.valueEntries entries)

/-- The items of a list that is handed over. -/
def valueItems (w : Workshop) : List Given → List Datum
  | [] => []
  | g :: gs => w.value g :: w.valueItems gs

/-- Values that are handed over by name. -/
def valueEntries (w : Workshop) : List (String × Given) → List (String × Datum)
  | [] => []
  | (name, g) :: es => (name, w.value g) :: w.valueEntries es

end

/-- What is handed over, as a base for options. -/
def base (w : Workshop) : Given → Base
  | .made step => (w.object? step).elim .nothing .options
  | g => .ofDatum (w.value g)

/-- The place of the base, where it is options. -/
def basePlace (w : Workshop) : Given → Option Nat
  | .made step => w.place? step
  | _ => none

/-- One more step, and the place of what it came to. -/
def note (w : Workshop) (place : Option Nat) : Workshop :=
  { w with results := w.results ++ [place] }

/-- One more step, that came to new options. -/
def add (w : Workshop) (o : Options) : Workshop :=
  { objects := w.objects ++ [o], results := w.results ++ [some w.objects.length] }

/-- **One step.** A step that fails comes to nothing. -/
def perform (w : Workshop) : OptionStep → Workshop × Except Fault Unit
  | .make given =>
    match Options.make (w.valueEntries given) with
    | .ok o => (w.add o, .ok ())
    | .error e => (w.note none, .error e)
  | .assemble base overrides =>
    match Options.assemble (w.base base) (w.valueEntries overrides) with
    | .ok a => (if a.isBase then w.note (w.basePlace base) else w.add a.options, .ok ())
    | .error e => (w.note none, .error e)
  | .assign step name given =>
    match w.place? step, w.object? step with
    | some place, some o =>
      match o.assign name (w.value given) with
      | .ok o => ({ w with objects := w.objects.set place o }.note none, .ok ())
      | .error e => (w.note none, .error e)
    | _, _ => (w.note none, .error (.noAttribute Datum.nothing.fullTypeName name))

/-- **One step after the other**, failed or not. -/
def run (w : Workshop) (steps : List OptionStep) : Workshop :=
  steps.foldl (fun w step => (w.perform step).1) w

end Workshop

end VariableMetric
