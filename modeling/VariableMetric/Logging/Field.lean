import VariableMetric.Datum.Number
import VariableMetric.Decimal.Printer

/-!
# Fields

A field of a template shows a value in a column: as a text, as a character, as an integer in one of
three bases, or as a real number in one of three forms.

* `Field`: what a field says of the text that it stands for.
* `Field.align`, `Field.layout`: texts and numbers in a column.
* `Field.show?`: a value shown by a field.
-/

namespace VariableMetric.Logging

/-- A field of a template. -/
structure Field where
  /-- The property that it shows; without a name it shows the whole record. -/
  key : Option String := none
  /-- Padded at the right instead of at the left. -/
  leftAligned : Bool := false
  /-- Numbers are padded with zeros. -/
  zeros : Bool := false
  /-- Integers show their base, and real numbers their point. -/
  alternate : Bool := false
  /-- The sign of a number that is not negative. -/
  plus : Option Char := none
  /-- The least number of characters. -/
  width : Nat := 0
  /-- The most characters of a text, the fewest digits of an integer, the places or digits of a real
  number. -/
  precision : Option Nat := none
  /-- How the value is turned into text. -/
  conversion : Char := 's'

namespace Field

/-- A text in a column. -/
def align (f : Field) (cs : List Char) : List Char :=
  let blanks := List.replicate (f.width - cs.length) ' '
  if f.leftAligned then cs ++ blanks else blanks ++ cs

/-- The text of a value, cut at the precision. -/
def showText (f : Field) (text : String) : List Char :=
  let cs := text.toList
  f.align (match f.precision with | some n => cs.take n | none => cs)

/-- The sign of a number. -/
def sign (f : Field) (negative : Bool) : List Char := if negative then ['-'] else f.plus.toList

/-- A number in a column; zeros go between what stands in front of it and its digits. -/
def layout (f : Field) (front digits : List Char) : List Char :=
  if f.zeros && !f.leftAligned then
    front ++ List.replicate (f.width - front.length - digits.length) '0' ++ digits
  else f.align (front ++ digits)

/-- The characters in capitals if the conversion is one. -/
def inCase (f : Field) (cs : List Char) : List Char :=
  if f.conversion.isUpper then cs.map Char.toUpper else cs

/-- An integer in a base; the mark of a base other than ten is the conversion itself. -/
def showInteger (f : Field) (base : Nat) (n : Int) : List Char :=
  let ds := Nat.toDigits base n.natAbs
  let mark := if f.alternate && base ≠ 10 then ['0', f.conversion] else []
  f.layout (f.sign (n < 0) ++ mark)
    (f.inCase (List.replicate (f.precision.getD 0 - ds.length) '0' ++ ds))

/-- A real number, with the digits that `form` gives of a ratio; six is the usual precision. -/
def showReal? (f : Field) (form : (keep : Bool) → (count num den : Nat) → List Char) (d : Datum) :
    Option (List Char) := do
  let x ← (← d.number?).toFloat.toOption
  let (negative, digits) := match Binary.Parts.ofFloat x with
    | .finite negative m q =>
      let (num, den) := Binary.scale m 1 q
      (negative, form f.alternate (f.precision.getD 6) num den)
    | .infinite negative => (negative, "inf".toList)
    | .nan => (false, "nan".toList)
  return f.layout (f.sign negative) (f.inCase digits)

/-- The character of a code point, or a text of one character. -/
def showCharacter? (f : Field) (d : Datum) : Option (List Char) :=
  match d, d.number?.bind Number.int? with
  | .text s, _ => if s.length = 1 then some (f.align s.toList) else none
  | _, some n =>
    if 0 ≤ n ∧ n.toNat.isValidChar then some (f.align [Char.ofNat n.toNat]) else none
  | _, none => none

/-- **A value shown by a field**, `none` if the conversion does not suit it. -/
def show? (f : Field) (d : Datum) : Option (List Char) :=
  match f.conversion with
  | 's' => some (f.showText d.plain)
  | 'r' => some (f.showText d.shown)
  | 'a' => some (f.showText (Text.basicOnly d.shown))
  | 'c' => f.showCharacter? d
  | 'd' | 'i' | 'u' => (d.toInt .notAnInteger).toOption.map (f.showInteger 10)
  | 'o' => (d.number?.bind Number.int?).map (f.showInteger 8)
  | 'x' | 'X' => (d.number?.bind Number.int?).map (f.showInteger 16)
  | 'f' | 'F' => f.showReal? Decimal.fixedDigits d
  | 'e' | 'E' => f.showReal? Decimal.scientificDigits d
  | 'g' | 'G' => f.showReal? Decimal.generalDigits d
  | _ => none

end Field

end VariableMetric.Logging
