import VariableMetric.Text.Printable

/-!
# Quoted texts

How a text is shown inside a message: between single quotes, or between double quotes if it holds a
single quote and no double one, with escapes for whatever would not be seen.

* `quoteMark`: the quote that a text is shown in.
* `quoted`: the text with its quotes and escapes.
* `basicOnly`: a text with escapes for all but the basic characters.
-/

namespace VariableMetric.Text

/-- The lowest `digits` hexadecimal digits of `n`. -/
def hex (digits n : Nat) : List Char :=
  (List.range digits).reverse.map fun i => Nat.digitChar (n / Nat.pow 16 i % 16)

/-- A character that is not shown as it is, by the shortest of the three numeric escapes. -/
def escapeCode (n : Nat) : List Char :=
  if n ≤ 0xff then '\\' :: 'x' :: hex 2 n
  else if n ≤ 0xffff then '\\' :: 'u' :: hex 4 n
  else '\\' :: 'U' :: hex 8 n

/-- One character of a text shown between two quotes `mark`. -/
def escape (mark c : Char) : List Char :=
  if c = '\\' || c = mark then ['\\', c]
  else if c = '\n' then ['\\', 'n']
  else if c = '\t' then ['\\', 't']
  else if c = '\r' then ['\\', 'r']
  else if isPrintable c then [c]
  else escapeCode c.toNat

/-- Single quotes, unless the text holds one and no double quote. -/
def quoteMark (cs : List Char) : Char :=
  if cs.contains '\'' && !cs.contains '"' then '"' else '\''

/-- The text between quotes, escaped where it has to be. -/
def quoted (s : String) : String :=
  let mark := quoteMark s.toList
  String.ofList (mark :: (s.toList.flatMap (escape mark) ++ [mark]))

/-- A text with escapes for all but the basic characters. -/
def basicOnly (s : String) : String :=
  String.ofList (s.toList.flatMap fun c => if c.toNat < 0x80 then [c] else escapeCode c.toNat)

end VariableMetric.Text
