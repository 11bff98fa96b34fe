import VariableMetric.Binary.Double
import VariableMetric.Decimal.Rounded
import VariableMetric.Text.Blank
import VariableMetric.Text.Digit

/-!
# Reading a double

A decimal number in text: white space around it, an optional sign, digits of any script with single
underscores between them, a point, an exponent; or an infinity or a NaN by name.

* `ofDecimal`: the double nearest to an integer times a power of ten.
* `unscored`: the text without its underscores, each of which must stand between two digits.
* `read?`: the double that a text stands for.
-/

namespace VariableMetric.Decimal

/-- **The double nearest to `c · 10 ^ e`**, with a sign. Exponents far outside the range of doubles
are answered at once. -/
def ofDecimal (negative : Bool) (c : Nat) (e : Int) : Float :=
  let top := ((Nat.toDigits 10 c).length : Int) + e
  if c = 0 then Binary.ofRatio negative 0 1
  else if 400 < top then Binary.infinite negative
  else if top < -400 then Binary.ofRatio negative 0 1
  else if 0 ≤ e then Binary.ofRatio negative (c * tenTo e.toNat) 1
  else Binary.ofRatio negative c (tenTo (-e).toNat)

/-- A character with every decimal digit replaced by the basic one of its value. -/
def plainDigit (c : Char) : Char :=
  match Text.digitValue? c with
  | some d => Nat.digitChar d
  | none => c

/-- The text without underscores, `none` if one of them does not stand between two digits.
`afterDigit` says whether a digit comes just before. -/
def unscored (afterDigit : Bool) : List Char → Option (List Char)
  | [] => some []
  | ['_'] => none
  | '_' :: d :: rest =>
    if afterDigit && d.isDigit then (unscored true rest).map (d :: ·) else none
  | c :: rest => (unscored c.isDigit rest).map (c :: ·)

/-- The sign before a number (`true` for minus), and what follows it. -/
def signed : List Char → Bool × List Char
  | '-' :: rest => (true, rest)
  | '+' :: rest => (false, rest)
  | cs => (false, cs)

/-- The number that digits stand for. -/
def natOfDigits (ds : List Char) : Nat :=
  ds.foldl (fun n d => 10 * n + (d.toNat - '0'.toNat)) 0

/-- The exponent at the end of a number: nothing at all, or a mark, an optional sign and digits. -/
def readExponent? : List Char → Option Int
  | [] => some 0
  | c :: rest =>
    if c = 'e' ∨ c = 'E' then
      let (negative, ds) := signed rest
      if ds.isEmpty || !ds.all Char.isDigit then none
      else some (if negative then -(natOfDigits ds : Int) else natOfDigits ds)
    else none

/-- A number without its sign: digits with an optional point among them, and an exponent. -/
def readUnsigned? (negative : Bool) (cs : List Char) : Option Float :=
  let whole := cs.takeWhile Char.isDigit
  let (fraction, rest) := match cs.dropWhile Char.isDigit with
    | '.' :: rest => (rest.takeWhile Char.isDigit, rest.dropWhile Char.isDigit)
    | rest => ([], rest)
  if whole.isEmpty && fraction.isEmpty then none
  else (readExponent? rest).map fun e =>
    ofDecimal negative (natOfDigits (whole ++ fraction)) (e - fraction.length)

/-- **The double that a text stands for**, `none` if it is not a number. -/
def read? (text : String) : Option Float := do
  let cs ← unscored false ((Text.strip Text.isSpace text.toList).map plainDigit)
  let (negative, body) := signed cs
  let name := String.ofList (body.map Char.toLower)
  if name = "inf" ∨ name = "infinity" then return Binary.infinite negative
  if name = "nan" then return Binary.nan
  readUnsigned? negative body

end VariableMetric.Decimal
