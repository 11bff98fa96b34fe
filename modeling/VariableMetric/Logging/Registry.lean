import VariableMetric.Logging.Tree

/-!
# A registry of loggers

The registry keeps the loggers that the package has handed out, gives each of them one handler, and
sets the levels of all of them together.

* `normalize`: the full name of a logger.
* `Registry.get`, `Registry.setLevel`, `Registry.configure`: the three operations of the package.
* `Registry.decide`: whether a logger takes a record of a level.
* `Registry.send`: what a message leads to: lines on streams.
-/

namespace VariableMetric.Logging

/-- The name under which all loggers of the package stand. -/
def packageName : String := "bfgsmin"

/-- The template of a registry that is told nothing. -/
def defaultTemplate : String := "[%(levelname)s] %(name)s: %(message)s"

/-- **The full name of a logger**: no name is the package's own, a name outside of the package is
put under it. -/
def normalize : Option String → String
  | none => packageName
  | some name =>
    if name = packageName ∨ (packageName ++ ".").toList.isPrefixOf name.toList then name
    else packageName ++ "." ++ name

/-- A value as the name of a logger, or as none. -/
def nameOf : Datum → Except Fault (Option String)
  | .nothing => .ok none
  | .text s => .ok (some s)
  | d => .error (.noAttribute d.fullTypeName "startswith")

/-- A value as a template. One that counts as false stands for the default; a text has to hold a
field. -/
def templateOf (d : Datum) : Except Fault String :=
  if !d.isTrue then .ok defaultTemplate
  else match d with
    | .text s => if Template.valid s then .ok s else .error (.badTemplate s)
    | d => .error (.templateNotText d)

/-- The loggers, those that the package handed out, and the level of those to come. -/
structure Registry where
  /-- Every logger but the root. -/
  tree : Tree := []
  /-- The root, whose level decides where no other does. -/
  root : Logger := { level := warning }
  /-- The names of the loggers that the package handed out, in order. -/
  cached : List String := []
  /-- The threshold of loggers to come. -/
  fallback : Threshold := .level warning

namespace Registry

/-- A registry under a setting of the environment, if there is one. -/
def start (setting : Option String) : Registry :=
  { fallback := Threshold.ofName (setting.getD "WARNING") }

/-- The name stands for the root. -/
def isRoot (name : String) : Bool := name == "" || name == rootName

/-- The logger of a name; one that has not been made yet has no settings. -/
def logger (r : Registry) (name : String) : Logger :=
  if isRoot name then r.root else (r.tree.logger? name).getD {}

/-- The registry with a logger of a name, new if there was none. -/
def create (r : Registry) (name : String) : Registry :=
  if isRoot name then r else { r with tree := r.tree.create name }

/-- The registry with the logger of a name changed. -/
def modify (r : Registry) (name : String) (f : Logger → Logger) : Registry :=
  if isRoot name then { r with root := f r.root }
  else match r.tree.logger? name with
    | some l => { r with tree := r.tree.put name (.logger (f l)) }
    | none => r

/-- Every decision is forgotten, as it has to be when a level is set. -/
def forget (r : Registry) : Registry :=
  { r with
    tree := r.tree.mapLoggers fun _ l => { l with decisions := [] }
    root := { r.root with decisions := [] } }

/-- **Hand out a logger.** A new one gets the fallback level and one handler; one that was given
handlers from outside is left as it is. The registry of a failure is returned with it. -/
def get (r : Registry) (name : Option String) : Registry × Except Fault String :=
  let full := normalize name
  if r.cached.contains full then (r, .ok full)
  else
    let r := r.create full
    let handedOut := { r with cached := r.cached ++ [full] }
    if !(r.logger full).handlers.isEmpty then (handedOut, .ok full)
    else match r.fallback.toLevel with
      | .error e => (r, .error e)
      | .ok level =>
        let ready (l : Logger) : Logger :=
          { l with
            level
            handlers := [⟨level, defaultTemplate, standardError⟩]
            propagate := false }
        (handedOut.forget.modify full ready, .ok full)

/-- Every logger that was handed out, changed; their levels are among what changes. -/
def mapCached (r : Registry) (f : Logger → Logger) : Registry :=
  if r.cached.isEmpty then r
  else { r.forget with
    tree := r.forget.tree.mapLoggers fun name l => if r.cached.contains name then f l else l }

/-- A threshold for all loggers: refused if there are any and it is no level. -/
def setAll (r : Registry) (t : Threshold) (f : Level → Logger → Logger) :
    Registry × Except Fault Unit :=
  match t.toLevel with
  | .ok level => ({ r.mapCached (f level) with fallback := t }, .ok ())
  | .error e => if r.cached.isEmpty then ({ r with fallback := t }, .ok ()) else (r, .error e)

/-- **Set the level** of all loggers, of their handlers, and of loggers to come. -/
def setLevel (r : Registry) (d : Datum) : Registry × Except Fault Unit :=
  match Threshold.parse d with
  | .error e => (r, .error e)
  | .ok t => r.setAll t fun level l =>
      { l with level, handlers := l.handlers.map fun h => { h with level } }

/-- **Replace the handlers** of all loggers by one, and set their level and that of loggers to
come. -/
def configure (r : Registry) (d template : Datum) (stream : Stream) :
    Registry × Except Fault Unit :=
  match (do return (← Threshold.parse d, ← templateOf template) : Except Fault _) with
  | .error e => (r, .error e)
  | .ok (t, template) =>
    r.setAll t fun level l => { l with level, handlers := [⟨level, template, stream⟩] }

/-- A handler added from outside to the logger of a name. -/
def attach (r : Registry) (name : String) (h : Handler) : Registry :=
  (r.create name).modify name fun l => { l with handlers := l.handlers ++ [h] }

/-- A logger and those above it, the root last. -/
def lineage (r : Registry) (name : String) : List Logger :=
  if isRoot name then [r.root] else r.tree.lineage r.root (name.length + 1) (some name)

/-- The level that a logger obeys: its own, or that of the nearest above it that has one. -/
def effectiveLevel (r : Registry) (name : String) : Level :=
  ((r.lineage name).find? (·.level ≠ 0)).elim 0 (·.level)

/-- **Whether a logger takes a record of a level.** A level that is not positive never counts. The
logger abides by what it decided before. -/
def decide (r : Registry) (name : String) (level : Level) : Registry × Bool :=
  match (r.logger name).decisions.find? (·.1 = level) with
  | some (_, taken) => (r, taken)
  | none =>
    let taken : Bool := 0 < level && r.effectiveLevel name ≤ level
    (r.modify name fun l => { l with decisions := (level, taken) :: l.decisions }, taken)

/-- The loggers that see a message: the one it is given to, and those above as long as each passes
it on. -/
def path : List Logger → List Logger
  | [] => []
  | l :: ls => if l.propagate then l :: path ls else [l]

/-- The lines of a record that its logger has taken. Where no handler is found at all, warnings go
to standard error as they are. -/
def deliver (r : Registry) (record : Record) : List Line :=
  let handlers := (path (r.lineage record.name)).flatMap (·.handlers)
  if handlers.isEmpty then
    if record.level < warning then [] else [⟨standardError, record.text ++ "\n"⟩]
  else handlers.filterMap (Handler.write · record)

/-- **Send a message.** Its logger, which has to be there, takes it or drops it. -/
def send (r : Registry) (record : Record) : Registry × List Line :=
  let (r, taken) := r.decide record.name record.level
  (r, if taken then r.deliver record else [])

/-- Messages sent one after the other. -/
def sendAll (r : Registry) : List Record → List Line
  | [] => []
  | record :: rest =>
    let (r, lines) := r.send record
    lines ++ sendAll r rest

/-- A message from outside to the logger of a name, which is made if it has to be. A level that is
neither an integer nor a truth value is refused. -/
def log (r : Registry) (name : String) (level message : Datum) :
    Registry × Except Fault (List Line) :=
  let r := r.create name
  match sentLevel? level with
  | none => (r, .error .levelNotInteger)
  | some l =>
    let name := if isRoot name then rootName else name
    let (r, lines) := r.send { name, level := l, message, truth := level.isTruth }
    (r, .ok lines)

end Registry

end VariableMetric.Logging
