import VariableMetric.Decimal.Printer

/-!
# The shortest decimal of a double

The fewest digits that read back as the same double; among those the nearest to it, and the even one
of two equally near.

* `Span`: the numbers that round to a double.
* `shortest`: the digits and the exponent of the first of them.
* `shown`: the text, positional for exponents from -4 to 15 and always with a point or an exponent.
-/

namespace VariableMetric.Decimal

open Binary (Parts)

/-- The numbers that round to the double `m · 2 ^ q`, as multiples of `2 ^ (q - 2)`: from `low` to
`high`, the ends included when `m` is even. -/
structure Span where
  /-- The lower end. -/
  low : Nat
  /-- The upper end. -/
  high : Nat
  /-- The ends themselves round to the double. -/
  closed : Bool

/-- The span of `m · 2 ^ q`. Below a power of two the neighbour is only half as far away. -/
def Span.of (m : Nat) (q : Int) : Span :=
  let below := if m = Binary.twoTo 52 ∧ -1074 < q then 1 else 2
  ⟨4 * m - below, 4 * m + 2, m % 2 = 0⟩

/-- The ratio `num / den` lies in the span, in the span's units. -/
def Span.has (s : Span) (num den : Nat) : Bool :=
  if s.closed then s.low * den ≤ num && num ≤ s.high * den
  else s.low * den < num && num < s.high * den

/-- A decimal with `count` digits that lies in the span of `m · 2 ^ q`: of the two neighbours of the
double on that grid the one inside, of two the nearer, of two equally near the even one. -/
def gridHit (m : Nat) (q : Int) (count : Nat) : Option (Nat × Int) :=
  let span := Span.of m q
  let (num, den) := Binary.scale m 1 q
  let e := magnitude num den
  let place := (count : Int) - 1 - e
  let (n, d) := shift num den place
  let lower := n / d
  let inside (c : Nat) : Bool :=
    let (cn, cd) := shift c 1 (-place)
    let (un, ud) := Binary.scale cn cd (2 - q)
    span.has un ud
  let result (c : Nat) : Nat × Int := if c = tenTo count then (c / 10, e + 1) else (c, e)
  match decide (0 < lower) && inside lower, inside (lower + 1) with
  | true, true =>
    let near := Binary.roundDiv .nearest n d
    some (result near)
  | true, false => some (result lower)
  | false, true => some (result (lower + 1))
  | false, false => none

/-- The fewest digits that read back as the positive double `m · 2 ^ q`, and the exponent of the
first. Seventeen always do. -/
def shortest (m : Nat) (q : Int) : Nat × Int :=
  let hit := (List.range 16).findSome? fun k => gridHit m q (k + 1)
  let (num, den) := Binary.scale m 1 q
  hit.getD (significant 17 num den)

/-- The digits of a positive double: positional when the exponent of the first digit is from -4 to
15, and always with a point or an exponent. -/
def shortestDigits (m : Nat) (q : Int) : List Char :=
  if m = 0 then ['0', '.', '0']
  else
    let (c, e) := shortest m q
    let ds := (Nat.toDigits 10 c).reverse.dropWhile (· = '0') |>.reverse
    let count := ds.length
    if e < -4 ∨ 16 ≤ e then
      (if count = 1 then ds else pointed false (count - 1) ds) ++ exponentText e
    else if e < 0 then '0' :: '.' :: (List.replicate ((-e).toNat - 1) '0' ++ ds)
    else
      let whole := e.toNat + 1
      if count ≤ whole then ds ++ List.replicate (whole - count) '0' ++ ['.', '0']
      else pointed false (count - whole) ds

/-- **The shortest text that reads back as the double.** -/
def shown (x : Float) : String :=
  match Parts.ofFloat x with
  | .nan => "nan"
  | .infinite negative => if negative then "-inf" else "inf"
  | .finite negative m q =>
    String.ofList (if negative then '-' :: shortestDigits m q else shortestDigits m q)

end VariableMetric.Decimal
