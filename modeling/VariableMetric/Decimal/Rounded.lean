import VariableMetric.Binary.Rounding

/-!
# Decimal expansions, rounded

A positive ratio rounded to a number of decimal places or of significant digits, in exact integer
arithmetic, a half going to the even neighbour.

* `magnitude`: the exponent of the leading digit.
* `atPlace`: the ratio in units of a power of ten, rounded.
* `significant`: the ratio with a given number of digits, as an integer and the exponent of its
  leading digit.
-/

namespace VariableMetric.Decimal

open Binary (roundDiv)

/-- Ten to the power of `k`. -/
def tenTo (k : Nat) : Nat := Nat.pow 10 k

/-- The ratio `num / den` times `10 ^ e` as a ratio. -/
def shift (num den : Nat) (e : Int) : Nat × Nat :=
  if 0 ≤ e then (num * tenTo e.toNat, den) else (num, den * tenTo (-e).toNat)

/-- How many decimal digits a natural number is written with. -/
def width (n : Nat) : Nat := (Nat.toDigits 10 n).length

/-- The exponent of the power of ten at or just below a positive ratio. -/
def magnitude (num den : Nat) : Int :=
  let guess : Int := (width num : Int) - (width den : Int)
  let (n, d) := shift num den (-guess)
  if n < d then guess - 1 else guess

/-- The ratio in units of `10 ^ (-places)`, rounded. -/
def atPlace (places : Int) (num den : Nat) : Nat :=
  let (n, d) := shift num den places
  roundDiv .nearest n d

/-- A positive ratio rounded to `digits` significant digits (at least one): those digits as an
integer, and the exponent of the first of them. -/
def significant (digits : Nat) (num den : Nat) : Nat × Int :=
  let e := magnitude num den
  let c := atPlace ((digits : Int) - 1 - e) num den
  if c = tenTo digits then (c / 10, e + 1) else (c, e)

example : significant 3 1 8 = (125, -1) := by decide

example : significant 2 999 10 = (10, 2) := by decide

end VariableMetric.Decimal
