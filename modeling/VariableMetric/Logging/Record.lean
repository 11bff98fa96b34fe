import VariableMetric.Logging.Level

/-!
# Records

* `Record`: a message on its way, with its sender and its level.
* `Record.properties`: the properties of a record, in order, by the names that templates know them
  by.
* `Record.property?`: a property by its name.
* `Record.whole`: the record with all its properties.
-/

namespace VariableMetric.Logging

/-- A message on its way: who sent it, how urgent it is, and what it says. -/
structure Record where
  /-- The name of the logger that it was given to. -/
  name : String
  /-- How urgent it is. -/
  level : Level
  /-- What it says, as its sender gave it. -/
  message : Datum
  /-- The level was given as a truth value, and is shown as one. -/
  truth : Bool := false

namespace Record

/-- What the record says, in text. -/
def text (r : Record) : String := r.message.plain

/-- The level as it was given. -/
def givenLevel (r : Record) : Datum := if r.truth then .bool (r.level ≠ 0) else .int r.level

/-- The name shown for the level. A truth value above zero is no number of a level. -/
def shownLevel (r : Record) : String :=
  if r.truth && r.level ≠ 0 then "Level " ++ r.givenLevel.shown else levelName r.level

/-- What stands for the place that a record was sent from, which is not known. -/
def unknownFile : Datum := .text "(unknown file)"

/-- **The properties of a record**, in order. A record knows neither the place nor the time that it
was sent from: both stand at their beginning. -/
def properties (r : Record) : List (String × Datum) :=
  [("name", .text r.name), ("msg", r.message), ("args", .tuple []),
    ("levelname", .text r.shownLevel), ("levelno", r.givenLevel), ("pathname", unknownFile),
    ("filename", unknownFile), ("module", unknownFile), ("exc_info", .nothing),
    ("exc_text", .nothing), ("stack_info", .nothing), ("lineno", .int 0),
    ("funcName", .text "(unknown function)"), ("created", .float 0), ("msecs", .float 0),
    ("relativeCreated", .float 0), ("thread", .int 0), ("threadName", .text "MainThread"),
    ("processName", .text "MainProcess"), ("process", .int 0), ("message", .text r.text)]

/-- The time that a record was sent, in text. It is found by those who ask for it by name only. -/
def sentAt : Datum := .text "1970-01-01 00:00:00,000"

/-- A property of a record. -/
def property? (r : Record) (key : String) : Option Datum :=
  if key = "asctime" then some sentAt
  else (r.properties.find? (·.1 == key)).map (·.2)

/-- The record with all its properties. -/
def whole (r : Record) : Datum := .dictionary r.properties

end Record

end VariableMetric.Logging
