import VariableMetric.Logging.Handler

/-!
# The tree of loggers

Loggers form a tree by their dotted names. Each knows the one above it. Where a name on the way up
has no logger yet, those below it are noted, and put below it as soon as it has one.

* `ancestorsOf`: the names on the way up from a name.
* `Logger`, `Node`, `Tree`: loggers, places for them, and all places by name.
* `Tree.create`: the tree with a logger of a name.
* `Tree.lineage`: a logger and those above it, the root last.
-/

namespace VariableMetric.Logging

/-- The names of the possible ancestors of a logger, nearest first: what stands before a dot. Of two
dots in a row only the second counts. The text is given in reverse. -/
def ancestorsOf : List Char → List String
  | [] => []
  | '.' :: '.' :: rest => String.ofList ('.' :: rest).reverse :: ancestorsOf rest
  | '.' :: rest =>
    (if rest.isEmpty then [] else [String.ofList rest.reverse]) ++ ancestorsOf rest
  | _ :: rest => ancestorsOf rest

/-- A logger. -/
structure Logger where
  /-- Records below it are dropped; zero leaves the decision to the nearest logger above that has
  one. -/
  level : Level := 0
  handlers : List Handler := []
  /-- Records go on to the loggers above. -/
  propagate : Bool := true
  /-- The name of the logger above; nothing stands for the root. -/
  parent : Option String := none
  /-- What it has decided on records of a level since any level was set. -/
  decisions : List (Level × Bool) := []
  deriving DecidableEq, Repr

/-- The place of a name: a logger, or the names of those below that wait for one. -/
inductive Node where
  | logger (l : Logger)
  | waiting (below : List String)
  deriving DecidableEq, Repr

/-- Places by name, in the order in which they came. -/
abbrev Tree := List (String × Node)

/-- The name of the root. -/
def rootName : String := "root"

namespace Tree

/-- The place of a name. -/
def find? (t : Tree) (name : String) : Option Node :=
  (List.find? (fun e => e.1 == name) t).map (·.2)

/-- The logger of a name. -/
def logger? (t : Tree) (name : String) : Option Logger :=
  match t.find? name with
  | some (.logger l) => some l
  | _ => none

/-- The tree with the place of a name set. -/
def put (t : Tree) (name : String) (node : Node) : Tree :=
  match t with
  | [] => [(name, node)]
  | (n, k) :: rest => if n = name then (n, node) :: rest else (n, k) :: Tree.put rest name node

/-- Every logger changed, by its name. -/
def mapLoggers (t : Tree) (f : String → Logger → Logger) : Tree :=
  t.map fun (name, node) => (name, match node with
    | .logger l => .logger (f name l)
    | .waiting below => .waiting below)

/-- A logger that waited for `name` goes below it, unless the name of the one above it begins with
`name` already. -/
def adopt (name : String) (t : Tree) (child : String) : Tree :=
  match t.logger? child with
  | some c =>
    if name.toList.isPrefixOf (c.parent.getD rootName).toList then t
    else t.put child (.logger { c with parent := some name })
  | none => t

/-- The way up for a new logger, along the names above it: where there is no logger it is noted, and
the first logger is the one above it. -/
def climb (t : Tree) (name : String) : List String → Tree × Option String
  | [] => (t, none)
  | above :: rest =>
    match t.find? above with
    | some (.logger _) => (t, some above)
    | some (.waiting below) => climb (t.put above (.waiting (below ++ [name]))) name rest
    | none => climb (t.put above (.waiting [name])) name rest

/-- **The tree with a logger of a name**, new if there was none. -/
def create (t : Tree) (name : String) : Tree :=
  match t.find? name with
  | some (.logger _) => t
  | some (.waiting below) => place (below.foldl (adopt name) t)
  | none => place t
where
  /-- The new logger below the one that it finds above it. -/
  place (t : Tree) : Tree :=
    let (t, parent) := (t.put name (.logger {})).climb name (ancestorsOf name.toList.reverse)
    t.put name (.logger { parent })

/-- The loggers from a name on upwards, at most `limit` of them, and the root. -/
def lineage (t : Tree) (root : Logger) : (limit : Nat) → Option String → List Logger
  | limit + 1, some name =>
    match t.logger? name with
    | some l => l :: lineage t root limit l.parent
    | none => [root]
  | _, _ => [root]

end Tree

end VariableMetric.Logging
