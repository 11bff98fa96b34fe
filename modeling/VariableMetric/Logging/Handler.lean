import VariableMetric.Logging.Template

/-!
# Handlers

* `Handler`: writes records from some level on to a stream.
* `Handler.write`: the line that a handler writes of a record, if any.
-/

namespace VariableMetric.Logging

/-- Where lines go: standard error, or a stream of a caller's by its name. -/
abbrev Stream := String

/-- The stream of error messages. -/
def standardError : Stream := "stderr"

/-- Writes records from some level on to a stream. -/
structure Handler where
  level : Level
  template : String
  stream : Stream
  deriving DecidableEq, Repr

/-- A line written to a stream. -/
structure Line where
  stream : Stream
  text : String
  deriving DecidableEq, Repr

/-- What a handler writes of a record. -/
def Handler.write (h : Handler) (record : Record) : Option Line :=
  if record.level < h.level then none
  else (Template.render? h.template record).map fun text => ⟨h.stream, text ++ "\n"⟩

end VariableMetric.Logging
