import VariableMetric.Logging.Field
import VariableMetric.Logging.Record
import VariableMetric.Text.Digit
import VariableMetric.Text.Word

/-!
# Templates of log lines

A template is a text with fields such as `%(message)10s`: the name of a property of the record,
marks, a width, a precision, a size that says nothing, and a conversion. The first field may go
without a name and show the whole record. Two percent signs stand for one.

* `Template.valid`: the text holds at least one field, as far as a first look tells.
* `Template.pieces?`: the text cut into plain characters and fields.
* `Template.render?`: the line for a record, `none` if a field cannot be filled in.
-/

namespace VariableMetric.Logging

/-- A part of a template. -/
inductive Piece where
  | plain (c : Char)
  | field (f : Field)

namespace Template

/-- The conversions that the first look knows, in either case. -/
def conversions : List Char := "diouxefgcrsa%".toList

/-- The marks that can stand before a width. -/
def marks : List Char := "#0+ -".toList

/-- A letter without its case. The two letters `i` without and with a dot, and the long `s`, are the
only ones beyond the basic letters that differ from a conversion in case alone. -/
def withoutCase (c : Char) : Char :=
  if c = 'ı' || c = 'İ' then 'i' else if c = 'ſ' then 's' else c.toLower

/-- A digit of any script. -/
def isDigit (c : Char) : Bool := (Text.digitValue? c).isSome

/-- What follows a number, or an asterisk in its place; the whole text if there is neither. -/
def afterNumber : List Char → List Char
  | '*' :: cs => cs
  | cs => cs.dropWhile isDigit

/-- What follows a precision; the whole text if there is none. -/
def afterPrecision (cs : List Char) : List Char :=
  match cs with
  | '.' :: '*' :: rest => rest
  | '.' :: d :: rest => if isDigit d then rest.dropWhile isDigit else cs
  | _ => cs

/-- A field stands at the start of the text. -/
def startsField : List Char → Bool
  | '%' :: '(' :: cs =>
    let name := cs.takeWhile Text.isWordChar
    match cs.dropWhile Text.isWordChar with
    | ')' :: rest =>
      !name.isEmpty &&
        match afterPrecision (afterNumber (rest.dropWhile marks.contains)) with
        | c :: _ => conversions.contains (withoutCase c)
        | [] => false
    | _ => false
  | _ => false

/-- A field stands somewhere in the text. -/
def holdsField : List Char → Bool
  | [] => false
  | c :: cs => startsField (c :: cs) || holdsField cs

/-- **A template holds at least one field.** -/
def valid (text : String) : Bool := holdsField text.toList

/-- How far into a field reading has come. -/
inductive Stage where
  | outside | percent
  /-- In the name, with parentheses still open. -/
  | key (depth : Nat)
  | marks | width | precision
  /-- After the size. -/
  | sized
  deriving DecidableEq

/-- A template read so far: the pieces in reverse, and the field at hand. -/
structure Progress where
  pieces : List Piece := []
  stage : Stage := .outside
  /-- The name of the field at hand, in reverse. -/
  key : List Char := []
  field : Field := {}

/-- No width and no precision is larger. -/
def sizeLimit : Nat := 2147483647

/-- A number with one more digit. -/
def withDigit (n : Nat) (c : Char) : Nat := 10 * n + (c.toNat - '0'.toNat)

namespace Progress

/-- The end of a field: its conversion. -/
def close (p : Progress) (c : Char) : Option Progress :=
  if p.field.width ≤ sizeLimit ∧ p.field.precision.getD 0 ≤ sizeLimit then
    some { pieces := .field { p.field with conversion := c } :: p.pieces }
  else none

/-- One more character where a size or the conversion can stand. -/
def size (p : Progress) (c : Char) : Option Progress :=
  if "hlL".toList.contains c then some { p with stage := .sized } else p.close c

/-- One more character where a digit of the precision can stand as well. -/
def precision (p : Progress) (c : Char) : Option Progress :=
  if c.isDigit then
    some { p with field := { p.field with precision := p.field.precision.map (withDigit · c) } }
  else p.size c

/-- One more character where a digit of the width and the point can stand as well. -/
def width (p : Progress) (c : Char) : Option Progress :=
  if c.isDigit then
    some { p with stage := .width, field := { p.field with width := withDigit p.field.width c } }
  else if c = '.' then
    some { p with stage := .precision, field := { p.field with precision := some 0 } }
  else p.size c

/-- One more character where marks can stand as well. -/
def mark (p : Progress) (c : Char) : Option Progress :=
  if c = '-' then some { p with field := { p.field with leftAligned := true } }
  else if c = '0' then some { p with field := { p.field with zeros := true } }
  else if c = '#' then some { p with field := { p.field with alternate := true } }
  else if c = '+' then some { p with field := { p.field with plus := some '+' } }
  else if c = ' ' then some { p with field := { p.field with plus := p.field.plus.or (some ' ') } }
  else p.width c

/-- One more character of a name. Parentheses in it have to match. -/
def name (p : Progress) (depth : Nat) (c : Char) : Progress :=
  if c = ')' ∧ depth ≤ 1 then
    { p with stage := .marks, field := { p.field with key := some (String.ofList p.key.reverse) } }
  else
    let depth := if c = '(' then depth + 1 else if c = ')' then depth - 1 else depth
    { p with stage := .key depth, key := c :: p.key }

/-- **One more character of a template**; `none` when no template goes on like this. -/
def next (p : Progress) (c : Char) : Option Progress :=
  match p.stage with
  | .outside =>
    if c = '%' then some { pieces := p.pieces, stage := .percent }
    else some { p with pieces := .plain c :: p.pieces }
  | .percent =>
    if c = '%' then some { pieces := .plain '%' :: p.pieces }
    else if c = '(' then some { p with stage := .key 1 }
    else ({ p with stage := .marks } : Progress).mark c
  | .key depth => some (p.name depth c)
  | .marks => p.mark c
  | .width => p.width c
  | .precision => p.precision c
  | .sized => p.close c

end Progress

/-- The template cut into pieces, `none` if it ends inside a field or a field is malformed. -/
def pieces? (text : String) : Option (List Piece) := do
  let p ← text.toList.foldlM Progress.next {}
  if p.stage = .outside then return p.pieces.reverse else none

/-- The text of a piece, `none` if a field's property or its conversion has none. -/
def fill? (r : Record) : Piece → Option (List Char)
  | .plain c => some [c]
  | .field f => do f.show? (← f.key.elim (some r.whole) r.property?)

/-- Every field after the first one has a name. -/
def named (pieces : List Piece) : Bool :=
  (pieces.filterMap key?).tail.all Option.isSome
where
  /-- The name of a piece that is a field. -/
  key? : Piece → Option (Option String)
    | .plain _ => none
    | .field f => some f.key

/-- **The line of a record**, `none` if the template cannot be filled in. -/
def render? (text : String) (r : Record) : Option String := do
  let pieces ← pieces? text
  if named pieces then return String.ofList (← pieces.mapM (fill? r)).flatten else none

end Template

end VariableMetric.Logging
