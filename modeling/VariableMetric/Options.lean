import VariableMetric.Datum.Reader

/-!
# Options

What a run can be told: its tolerances, its limits and how much it reports. Options are built from
values of any type, checked once, and never change.

* `Display`: how much a run reports by default.
* `Options`: a checked set of options; `Options.default` is the one that every set starts from.
* `Draft`: options before the check, and `Draft.check`, the check.
* `Options.assemble`: options from a base and overrides, unknown names being refused first.
-/

namespace VariableMetric

/-- How much a run reports by default. -/
inductive Display where
  | silent
  /-- One line at the end. -/
  | final
  /-- A table row for each iteration, and the line at the end. -/
  | iter
  deriving DecidableEq, Repr

namespace Display

/-- The name of a level. -/
def name : Display → String
  | .silent => "silent"
  | .final => "final"
  | .iter => "iter"

/-- The level of a name in lower case; two more names stand for silence. -/
def ofName? (key : String) : Option Display :=
  if key = "silent" ∨ key = "off" ∨ key = "none" then some .silent
  else if key = "final" then some .final
  else if key = "iter" then some .iter
  else none

/-- The level that a value names, in any case and with blanks around it. Only basic letters are
lowered: no other letter occurs in a name. -/
def parse (d : Datum) : Except Fault Display :=
  match d with
  | .text s =>
    match ofName? (String.ofList ((Text.strip Text.isBlank s.toList).map Char.toLower)) with
    | some level => .ok level
    | none => .error (.displayUnknown s)
  | d => .error (.displayNotText d)

end Display

/-- A checked set of options. Tolerances keep the make of number that they were given in. -/
structure Options where
  /-- The largest number of iterations. -/
  maxiter : Nat
  /-- Steps whose largest entry is below this count as small. -/
  tolx : Number
  /-- Changes of the value below this count as small. -/
  tolfun : Number
  /-- The factor by which the line search shrinks its step. -/
  backtrack : Float
  /-- How much is reported. -/
  display : Display
  /-- The line search stops once its step is not above this. -/
  minStep : Number
  /-- Denominators of the secant update have to be above this. -/
  curvatureTol : Number

namespace Options

/-- The options of a run that is told nothing. -/
def default : Options where
  maxiter := 200
  tolx := .float 1e-6
  tolfun := .float 1e-6
  backtrack := 0.5
  display := .silent
  minStep := .float 1e-12
  curvatureTol := .float 1e-12

/-- Equal options: equal numbers of whatever make, and the same level of display. -/
def same (a b : Options) : Bool :=
  a.maxiter == b.maxiter && a.tolx.same b.tolx && a.tolfun.same b.tolfun &&
    a.backtrack == b.backtrack && a.display == b.display && a.minStep.same b.minStep &&
    a.curvatureTol.same b.curvatureTol

end Options

/-- The names that options go by. -/
inductive OptionName where
  | maxiter | tolx | tolfun | backtrack | display | minStep | curvatureTol
  deriving DecidableEq, Repr

/-- The option of a name. -/
def OptionName.ofText? : String → Option OptionName
  | "maxiter" => some .maxiter
  | "tolx" => some .tolx
  | "tolfun" => some .tolfun
  | "backtrack" => some .backtrack
  | "display" => some .display
  | "min_step" => some .minStep
  | "curvature_tol" => some .curvatureTol
  | _ => none

/-- Options before the check: values of any type. -/
structure Draft where
  maxiter : Datum
  tolx : Datum
  tolfun : Datum
  backtrack : Datum
  /-- A level, or a value that has to name one. -/
  display : Display ⊕ Datum
  minStep : Datum
  curvatureTol : Datum

namespace Draft

/-- Checked options as a draft. -/
def ofOptions (o : Options) : Draft where
  maxiter := .int o.maxiter
  tolx := o.tolx.toDatum
  tolfun := o.tolfun.toDatum
  backtrack := .float o.backtrack
  display := .inl o.display
  minStep := o.minStep.toDatum
  curvatureTol := o.curvatureTol.toDatum

/-- The draft with one option replaced. -/
def set (o : Draft) (name : OptionName) (d : Datum) : Draft :=
  match name with
  | .maxiter => { o with maxiter := d }
  | .tolx => { o with tolx := d }
  | .tolfun => { o with tolfun := d }
  | .backtrack => { o with backtrack := d }
  | .display => { o with display := .inr d }
  | .minStep => { o with minStep := d }
  | .curvatureTol => { o with curvatureTol := d }

/-- A count: an integer, of fixed size or not, that is not negative. A truth value is none. -/
def checkCount : Datum → Except Fault Nat
  | .int n | .sizedInt n => if n < 0 then .error .maxiterNegative else .ok n.toNat
  | d => .error (.maxiterNotInteger d)

/-- A number that is finite as a double. -/
def checkFinite (d : Datum) (refused : Fault) : Except Fault Number := do
  let a ← d.real
  let x ← a.toFloat
  if x.isFinite then return a else throw refused

/-- A positive finite number. -/
def checkPositive (name : String) (d : Datum) : Except Fault Number := do
  let a ← checkFinite d (.notPositive name d)
  if (Number.int 0).lt a then return a else throw (.notPositive name d)

/-- A number strictly between zero and one, hence a double. -/
def checkFraction (d : Datum) : Except Fault Float :=
  match d.number? with
  | some a =>
    let x := a.nearest
    if Float.lt 0 x && x.lt 1 then .ok x else .error .backtrackOutside
  | none => .error (.unorderable .below (.float 0) d)

/-- A finite number that is not negative. -/
def checkNonNegative (d : Datum) : Except Fault Number := do
  let a ← checkFinite d .curvatureTolNegative
  if a.lt (.int 0) then throw .curvatureTolNegative else return a

/-- **The check.** The first option that fails, in this order, decides the fault. -/
def check (o : Draft) : Except Fault Options := do
  let maxiter ← checkCount o.maxiter
  let tolx ← checkPositive "tolx" o.tolx
  let tolfun ← checkPositive "tolfun" o.tolfun
  let minStep ← checkPositive "min_step" o.minStep
  let backtrack ← checkFraction o.backtrack
  let curvatureTol ← checkNonNegative o.curvatureTol
  let display ← match o.display with
    | .inl level => .ok level
    | .inr d => Display.parse d
  return { maxiter, tolx, tolfun, backtrack, display, minStep, curvatureTol }

end Draft

/-- The same key of a dictionary: the same text, equal numbers, or nothing at all. -/
def sameKey (a b : Datum) : Bool :=
  match a, b with
  | .text s, .text t => s == t
  | .nothing, .nothing => true
  | a, b => match a.number?, b.number? with
    | some m, some n => m.same n
    | _, _ => false

/-- Entries of a dictionary under construction, in the order in which keys first appeared. -/
abbrev Entries := List (Datum × Datum)

/-- The entries with one key set: in place if it is there, else at the end. -/
def Entries.put (entries : Entries) (key value : Datum) : Entries :=
  match entries with
  | [] => [(key, value)]
  | (k, v) :: rest =>
    if sameKey k key then (k, value) :: rest else (k, v) :: Entries.put rest key value

/-- The entries that a list of two-part items spells out, from item `position` on. -/
def Entries.ofItems (position : Nat) : List Datum → Except Fault Entries
  | [] => .ok []
  | d :: ds => do
    let some parts := d.parts? | throw (.entryNotSequence position)
    let [key, value] := parts | throw (.entryLength position parts.length)
    match key with
    | .list _ | .dictionary _ | .array _ => throw (.unhashable key)
    | _ => return (key, value) :: (← Entries.ofItems (position + 1) ds)

/-- A value as the entries of a dictionary: a dictionary, or items of two parts each. -/
def Datum.toEntries (d : Datum) : Except Fault Entries :=
  match d with
  | .dictionary entries => .ok (entries.map fun e => (.text e.1, e.2))
  | d => match d.parts? with
    | some items => do
      let entries ← Entries.ofItems 0 items
      return entries.foldl (fun es e => Entries.put es e.1 e.2) []
    | none => .error (.notIterable d)

/-- The option that a key names. -/
def Datum.optionName? : Datum → Option OptionName
  | .text s => OptionName.ofText? s
  | _ => none

/-- A key next to its predecessor can be ordered. -/
def checkOrderable : List Datum → Except Fault Unit
  | a :: b :: rest => do
    match a, b with
    | .text _, .text _ => pure ()
    | a, b => match a.number?, b.number? with
      | some _, some _ => pure ()
      | _, _ => throw (.unorderable .below b a)
    checkOrderable (b :: rest)
  | _ => .ok ()

/-- One key is not after another, for keys that can be ordered. -/
def keyAtMost (a b : Datum) : Bool :=
  match a, b with
  | .text s, .text t => s ≤ t
  | a, b => match a.number?, b.number? with
    | some m, some n => !n.lt m
    | _, _ => true

/-- The texts of keys, at their positions; the first that is no text is a fault. -/
def keyTexts (position : Nat) : List Datum → Except Fault (List String)
  | [] => .ok []
  | .text s :: ds => do return s :: (← keyTexts (position + 1) ds)
  | d :: _ => .error (.optionNameNotText position d)

/-- Refuse keys that name no option, listing them in order. -/
def refuseUnknown (entries : Entries) : Except Fault Unit := do
  let unknown := (entries.map (·.1)).filter fun k => k.optionName?.isNone
  if unknown.isEmpty then return ()
  checkOrderable unknown
  throw (.unknownOptions (← keyTexts 0 (unknown.mergeSort keyAtMost)))

/-- What options are built on: the defaults, earlier options, or a value that spells some out. -/
inductive Base where
  | nothing
  | options (o : Options)
  | value (d : Datum)

/-- A value as a base; no value is no base. -/
def Base.ofDatum : Datum → Base
  | .nothing => .nothing
  | d => .value d

/-- Options, and whether they are those that were passed as the base. -/
structure Assembled where
  options : Options
  isBase : Bool

/-- A draft with the options that entries name. -/
def Draft.setAll (draft : Draft) (entries : Entries) : Draft :=
  entries.foldl
    (fun o e => match e.1.optionName? with
      | some name => o.set name e.2
      | none => o) draft

/-- **Options from a base and overrides.** Overrides win over the base. Unknown names are refused
before any value is looked at; with nothing to set, the options of the base come back as they are.
-/
def Options.assemble (base : Base) (overrides : List (String × Datum)) :
    Except Fault Assembled := do
  if overrides.any (·.1 == "base") then throw (.argumentTwice "optimset" "base")
  let (start, given) ← match base with
    | .nothing => pure (Options.default, [])
    | .options o => pure (o, [])
    | .value d => do pure (Options.default, ← d.toEntries)
  let entries : Entries :=
    overrides.foldl (fun es e => Entries.put es (.text e.1) e.2) given
  refuseUnknown entries
  if entries.isEmpty then
    return ⟨start, match base with | .options _ => true | _ => false⟩
  return ⟨← ((Draft.ofOptions start).setAll entries).check, false⟩

/-- The call that makes options, as messages name it. -/
def optionsCall : String := "BFGSOptions.__init__"

/-- Options from the defaults and named values; a name that is no option is refused, and so is the
one by which options call themselves. -/
def Options.make (values : List (String × Datum)) : Except Fault Options := do
  for (name, _) in values do
    if name = "self" then throw (.argumentTwice optionsCall name)
    if (OptionName.ofText? name).isNone then throw (.unexpectedOption optionsCall name)
  ((Draft.ofOptions .default).setAll (values.map fun e => (.text e.1, e.2))).check

end VariableMetric
