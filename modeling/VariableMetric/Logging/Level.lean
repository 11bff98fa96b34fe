import VariableMetric.Datum.Number

/-!
# Log levels

How urgent a message is, as an integer, and the names that stand for levels.

* `levelName`: the name shown for a level.
* `namedLevel?`: the level of a name in capitals.
* `Threshold.parse`: the threshold that a value asks for.
* `sentLevel?`: the level of a message, as its sender gives it.
-/

namespace VariableMetric.Logging

/-- How urgent a message is. -/
abbrev Level := Int

/-- The level of messages for those who look for a defect. -/
def debug : Level := 10

/-- The level of messages on the normal course of things. -/
def info : Level := 20

/-- The level of messages on something unexpected, and of a registry that is told nothing. -/
def warning : Level := 30

/-- The name shown for a level; a level between the named ones is shown by its number. -/
def levelName (level : Level) : String :=
  if level = 0 then "NOTSET"
  else if level = 10 then "DEBUG"
  else if level = 20 then "INFO"
  else if level = 30 then "WARNING"
  else if level = 40 then "ERROR"
  else if level = 50 then "CRITICAL"
  else s!"Level {level}"

/-- The level of a name in capitals; some levels have two. -/
def namedLevel? (name : String) : Option Level :=
  if name = "NOTSET" then some 0
  else if name = "DEBUG" then some 10
  else if name = "INFO" then some 20
  else if name = "WARN" ∨ name = "WARNING" then some 30
  else if name = "ERROR" then some 40
  else if name = "FATAL" ∨ name = "CRITICAL" then some 50
  else none

/-- A letter in capitals. Beyond the basic letters only those that have basic capitals matter: no
other letter occurs in a name. -/
def capitals (c : Char) : List Char :=
  if c = 'ı' then ['I']
  else if c = 'ſ' then ['S']
  else if c = '\ufb05' || c = '\ufb06' then ['S', 'T']
  else [c.toUpper]

/-- The one name in capitals that stands for a text and not for a level. -/
def templateName : String := "BASIC_FORMAT"

/-- The text that `templateName` stands for. -/
def templateText : String := "%(levelname)s:%(name)s:%(message)s"

/-- Another name in capitals that stands for no level, but for the three styles of templates. -/
def stylesName : String := "_STYLES"

/-- What a threshold is set to. Neither a text nor the table of styles is a level, and no logger
accepts them. -/
inductive Threshold where
  | level (l : Level)
  | text (s : String)
  | styles
  deriving DecidableEq, Repr

namespace Threshold

/-- The threshold of a name in any case; a name that says nothing stands for warnings. -/
def ofName (name : String) : Threshold :=
  let key := String.ofList (name.toList.flatMap capitals)
  match namedLevel? key with
  | some l => .level l
  | none =>
    if key = templateName then .text templateText
    else if key = stylesName then .styles
    else .level warning

/-- The threshold that a value asks for: a text by its name, a number by its integer part. -/
def parse (d : Datum) : Except Fault Threshold :=
  match d with
  | .text s => .ok (ofName s)
  | d => do return .level (← d.toInt .notAnInteger)

/-- The threshold as a logger takes it. -/
def toLevel : Threshold → Except Fault Level
  | .level l => .ok l
  | .text s => .error (.unknownLevel s)
  | .styles => .error .levelIsStyles

end Threshold

/-- The level of a message as its sender gives it: an integer, or a truth value in its place. -/
def sentLevel? : Datum → Option Level
  | .int n => some n
  | .bool b => some (Number.ofBool b)
  | _ => none

end VariableMetric.Logging
