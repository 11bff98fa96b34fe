import VariableMetric.Binary.Rounding
import VariableMetric.Scalar

/-!
# Doubles as numbers

A finite double is `± m · 2 ^ q`; this module goes from the bits to `m` and `q` and back, and turns
ratios and integers into doubles.

* `Parts`, `Parts.ofFloat`: what the bits of a double stand for.
* `reliance`: the rounding error of one, and the smallest number that has no larger one.
* `ofRatio`: a signed ratio rounded to a double, infinite when it is too large.
* `ofInt?`, `ofIntNearest`, `ofIntToward`: an integer as a double, to the nearest or in a chosen
  direction.
* `truncate`: the integer part of a finite number.
* `Format.narrow`: a double rounded to a narrower format.
-/

namespace VariableMetric.Binary

/-- What a double stands for. -/
inductive Parts where
  | nan
  | infinite (negative : Bool)
  /-- The number `m · 2 ^ q`, or its opposite. -/
  | finite (negative : Bool) (m : Nat) (q : Int)
  deriving DecidableEq, Repr

/-- The parts of a double, read off its bits. -/
def Parts.ofFloat (x : Float) : Parts :=
  let bits : Nat := x.toBits.toNat
  let negative := bits / twoTo 63 = 1
  let exponent : Nat := bits / twoTo 52 % twoTo 11
  let fraction : Nat := bits % twoTo 52
  if exponent = 2047 then
    if fraction = 0 then .infinite negative else .nan
  else if exponent = 0 then .finite negative fraction (-1074)
  else .finite negative (twoTo 52 + fraction) ((exponent : Int) - 1075)

/-- The double `m · 2 ^ q`, for `m` and `q` as `Format.round` gives them for doubles. -/
def assemble (negative : Bool) (m : Nat) (q : Int) : Float :=
  let sign := if negative then twoTo 63 else 0
  let body := if m < twoTo 52 then m else (q + 1075).toNat * twoTo 52 + (m - twoTo 52)
  Float.ofBits (UInt64.ofNat (sign + body))

/-- The infinite double of a sign. -/
def infinite (negative : Bool) : Float :=
  Float.ofBits (UInt64.ofNat ((if negative then twoTo 63 else 0) + 2047 * twoTo 52))

/-- A value that is not a number. -/
def nan : Float := Float.ofBits 0x7ff8000000000000

/-- The rounding error of one is half the distance from one to the next double; numbers below the
smallest with all bits in use lose some of them. -/
def reliance : Reliance Float :=
  ⟨Float.ofBits 0x3ca0000000000000, Float.ofBits 0x0010000000000000⟩

/-- A ratio with a sign, rounded to the nearest double; infinite when it is too large. -/
def ofRatio (negative : Bool) (num den : Nat) : Float :=
  match double.round .nearest num den with
  | some (m, q) => assemble negative m q
  | none => infinite negative

/-- An integer rounded to the nearest double, `none` when it is too large for one. -/
def ofInt? (n : Int) : Option Float :=
  (double.round .nearest n.natAbs 1).map fun (m, q) => assemble (n < 0) m q

/-- An integer rounded to the nearest double, infinite when it is too large for one. -/
def ofIntNearest (n : Int) : Float := (ofInt? n).getD (infinite (n < 0))

/-- The largest finite double of a sign. -/
def largest (negative : Bool) : Float := assemble negative (twoTo 53 - 1) 971

/-- **The double next to an integer**, at or above it (`upward`) or at or below it. A double is
below `n` exactly when it is below the double above `n`, and above `n` exactly when it is above the
double below `n`, so it stands in for `n` in such comparisons. -/
def ofIntToward (upward : Bool) (n : Int) : Float :=
  let negative := decide (n < 0)
  let dir := if upward == negative then .down else .up
  match double.round dir n.natAbs 1 with
  | some (m, q) => assemble negative m q
  | none => if upward == negative then largest negative else infinite negative

/-- The integer part of a finite number, its fraction dropped. -/
def truncate (negative : Bool) (m : Nat) (q : Int) : Int :=
  let size := if 0 ≤ q then m * twoTo q.toNat else m / twoTo (-q).toNat
  if negative then -size else size

/-- A double rounded to a narrower format and back. -/
def Format.narrow (f : Format) (x : Float) : Float :=
  match Parts.ofFloat x with
  | .finite negative m q =>
    let (num, den) := scale m 1 q
    match f.round .nearest num den with
    | some (m', q') =>
      let (num', den') := scale m' 1 q'
      ofRatio negative num' den'
    | none => infinite negative
  | _ => x

end VariableMetric.Binary
