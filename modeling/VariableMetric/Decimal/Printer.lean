import VariableMetric.Binary.Double
import VariableMetric.Decimal.Rounded

/-!
# Doubles in decimal

The three classic forms of a double in text, each the rounding of its exact value: with a fixed
number of places, with an exponent, and the general form that chooses between the two.

* `fixed`, `scientific`, `general`: the three forms.
* `padLeft`: a text moved to the right end of a column.
-/

namespace VariableMetric.Decimal

open Binary (Parts)

/-- The text moved to the right end of a column of `size` characters; longer texts stay whole. -/
def padLeft (size : Nat) (text : String) : String :=
  String.ofList (List.replicate (size - text.length) ' ') ++ text

/-- The decimal digits of a natural number, with zeros in front up to `size` of them. -/
def digits (size n : Nat) : List Char :=
  let ds := Nat.toDigits 10 n
  List.replicate (size - ds.length) '0' ++ ds

/-- Digits with a point before the last `places` of them. When there are none, the point stands only
if it is to be kept. -/
def pointed (keep : Bool) (places : Nat) (ds : List Char) : List Char :=
  if places = 0 && !keep then ds
  else ds.take (ds.length - places) ++ '.' :: ds.drop (ds.length - places)

/-- The exponent of a number in scientific form: its sign and at least two digits. -/
def exponentText (e : Int) : List Char :=
  'e' :: (if e < 0 then '-' else '+') :: digits 2 e.natAbs

/-- The digits without the zeros, and then the point, at their end. Only for digits with a point. -/
def trimZeros (ds : List Char) : List Char :=
  let kept := (ds.reverse.dropWhile (· = '0'))
  (if kept.head? = some '.' then kept.drop 1 else kept).reverse

/-- The texts of the values that have no digits, and the sign before those that do. -/
def withSign (x : Float) (body : (num den : Nat) → List Char) : String :=
  match Parts.ofFloat x with
  | .nan => "nan"
  | .infinite negative => if negative then "-inf" else "inf"
  | .finite negative m q =>
    let (num, den) := Binary.scale m 1 q
    String.ofList (if negative then '-' :: body num den else body num den)

/-- The digits of a ratio with a number of places; `keep` keeps a point that ends them. -/
def fixedDigits (keep : Bool) (places num den : Nat) : List Char :=
  pointed keep places (digits (places + 1) (atPlace places num den))

/-- A ratio rounded to `count` significant digits, zero included. -/
def leading (count num den : Nat) : Nat × Int :=
  if num = 0 then (0, 0) else significant count num den

/-- The digits of a ratio with one digit before the point, and an exponent; `keep` keeps a point
that ends the digits. -/
def scientificDigits (keep : Bool) (places num den : Nat) : List Char :=
  let (c, e) := leading (places + 1) num den
  pointed keep places (digits (places + 1) c) ++ exponentText e

/-- The digits of a ratio in the general form with `count` significant digits: with an exponent when
the exponent, after rounding, is below -4 or at least `count`. Zeros at the end, and the point
before them, go unless they are to be kept. -/
def generalDigits (keep : Bool) (count num den : Nat) : List Char :=
  let count := max count 1
  let (c, e) := leading count num den
  let trim (places : Nat) (ds : List Char) : List Char :=
    if keep || places = 0 then ds else trimZeros ds
  if e < -4 ∨ (count : Int) ≤ e then
    trim (count - 1) (pointed keep (count - 1) (digits count c)) ++ exponentText e
  else
    let places := ((count : Int) - 1 - e).toNat
    trim places (pointed keep places (digits (places + 1) c))

/-- The double with a fixed number of places. -/
def fixed (places : Nat) (x : Float) : String := withSign x (fixedDigits false places)

/-- The double with one digit before the point, `places` after it, and an exponent. -/
def scientific (places : Nat) (x : Float) : String := withSign x (scientificDigits false places)

/-- **The general form** with `count` significant digits. -/
def general (count : Nat) (x : Float) : String := withSign x (generalDigits false count)

end VariableMetric.Decimal
