/-!
# Rounding a ratio to a binary format

A binary floating-point format is given by the bits of its significand and the range of its
exponents. A positive ratio is written `m · 2 ^ q` with as many bits as the format has, no `q` below
the least exponent, and rounded in a chosen direction.

* `roundDiv`: a quotient rounded to a natural number.
* `Format`: single and double precision, two formats of two bytes and four of one byte.
* `Format.round`: a ratio rounded to a format, `none` when it overflows.
-/

namespace VariableMetric.Binary

/-- Two to the power of `k`. -/
def twoTo (k : Nat) : Nat := Nat.pow 2 k

/-- Which neighbour a number between two representable ones goes to. -/
inductive Direction where
  /-- Toward zero. -/
  | down
  /-- Away from zero. -/
  | up
  /-- To the nearer one, and to the even one from the middle. -/
  | nearest
  deriving DecidableEq, Repr

/-- `num / den` rounded to a natural number. -/
def roundDiv (dir : Direction) (num den : Nat) : Nat :=
  let quotient := num / den
  let rest := num % den
  match dir with
  | .down => quotient
  | .up => if rest = 0 then quotient else quotient + 1
  | .nearest =>
    if 2 * rest < den then quotient
    else if den < 2 * rest then quotient + 1
    else quotient + quotient % 2

/-- A binary floating-point format: its finite positive numbers are `m · 2 ^ q` with
`m < 2 ^ bits` and `least ≤ q ≤ greatest`. -/
structure Format where
  /-- Bits of the significand, the leading one included. -/
  bits : Nat
  /-- The exponent of the last bit of the smallest numbers. -/
  least : Int
  /-- The exponent of the last bit of the largest numbers. -/
  greatest : Int
  deriving DecidableEq, Repr

/-- Double precision. -/
def double : Format := ⟨53, -1074, 971⟩

/-- Single precision. -/
def single : Format := ⟨24, -149, 104⟩

/-- Half precision. -/
def half : Format := ⟨11, -24, 5⟩

/-- Half the bits of single precision, with all of its exponents. -/
def bfloat : Format := ⟨8, -133, 120⟩

/-- One byte with four bits of significand, whose largest numbers are left to what is no number. -/
def quarterFine : Format := ⟨4, -9, 5⟩

/-- One byte with three bits of significand. -/
def quarterWide : Format := ⟨3, -16, 13⟩

/-- One byte with four bits of significand and its exponents lowered by one. -/
def quarterFineLow : Format := ⟨4, -10, 4⟩

/-- One byte with three bits of significand and its exponents lowered by one. -/
def quarterWideLow : Format := ⟨3, -17, 13⟩

/-- The ratio `num / den` times `2 ^ e` as a ratio. -/
def scale (num den : Nat) (e : Int) : Nat × Nat :=
  if 0 ≤ e then (num * twoTo e.toNat, den) else (num, den * twoTo (-e).toNat)

/-- The exponent of the power of two at or just below a positive ratio. -/
def log2 (num den : Nat) : Int :=
  let guess : Int := (num.log2 : Int) - (den.log2 : Int)
  let (n, d) := scale num den (-guess)
  if n < d then guess - 1 else guess

/-- **A positive ratio rounded to a format**: the pair `(m, q)` of `m · 2 ^ q`, with all bits of the
significand in use unless `q` is the least exponent. `none` when the rounded number is too large. -/
def Format.round (f : Format) (dir : Direction) (num den : Nat) : Option (Nat × Int) :=
  if num = 0 then some (0, f.least)
  else
    let q := max (log2 num den - f.bits + 1) f.least
    let (n, d) := scale num den (-q)
    let m := roundDiv dir n d
    let (m, q) := if m = twoTo f.bits then (m / 2, q + 1) else (m, q)
    if f.greatest < q then none else some (m, q)

end VariableMetric.Binary
