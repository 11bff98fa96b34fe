import VariableMetric.Algebra.Definite

/-!
# Tridiagonal forms

A symmetric matrix is brought to tridiagonal form by one reflection for each column, which leaves
its eigenvalues alone.

* `euclidean`, `hypotenuse`: lengths of vectors.
* `Reflection.ofColumn?`: the reflection that clears a column below its leading entry.
* `Reflection.conjugate`: what a reflection makes of a symmetric matrix from both sides.
* `tridiagonal`: the tridiagonal form of a symmetric matrix.
-/

namespace VariableMetric

/-- A row of a tridiagonal matrix that is symmetric. -/
structure BandRow (α : Type) where
  diagonal : α
  /-- The entry right of the diagonal, zero in the last row. -/
  right : α

/-- A reflection: what is left of the identity when `factor` times the product of `axis` with itself
is taken off. -/
structure Reflection (α : Type) (n : Nat) where
  factor : α
  /-- The direction that is reversed; its leading entry is one. -/
  axis : Vec α n
  /-- What becomes of the leading entry of the column that the reflection clears. -/
  leading : α

variable {α : Type} [Elementary α] {n : Nat}

/-- The length of a vector with two entries, the smaller one seen from the larger one. -/
def hypotenuse (a b : α) : α :=
  let (small, large) :=
    if Scalar.lt (Scalar.abs b) (Scalar.abs a) then (Scalar.abs b, Scalar.abs a)
    else (Scalar.abs a, Scalar.abs b)
  if Scalar.isZero small then large
  else large * Elementary.sqrt (1 + small / large * (small / large))

/-- A size with the sign of a number, which may be the sign of a zero. -/
def withSignOf (a size : α) : α :=
  if Scalar.lt a 0 || Scalar.isZero a && Scalar.lt (1 / a) 0 then -size else size

/-- The sum of the squares. -/
def sumSquares (entries : List α) : α := Scalar.total (entries.map fun a => a * a)

/-- The length of a vector. Where squares would lose bits, the entries are seen from the largest
one. -/
def euclidean (r : Reliance α) (entries : List α) : α :=
  let squares := sumSquares entries
  if Scalar.le (r.least / r.unit) squares then Elementary.sqrt squares
  else
    let largest := entries.foldl (fun best a => Scalar.larger best (Scalar.abs a)) 0
    largest * Elementary.sqrt (sumSquares (entries.map (· / largest)))

namespace Reflection

/-- The reflection of a column with an entry below the leading one that differs from zero. -/
def direct (r : Reliance α) (column : Vec α (n + 1)) : Reflection α (n + 1) :=
  let old := column.get lead
  let new := -withSignOf old (hypotenuse old (euclidean r (column.toList.drop 1)))
  let inverse := 1 / (old - new)
  ⟨(new - old) / new,
    Vector.ofFn fun i => if i = lead then 1 else column.get i * inverse, new⟩

/-- The same for a column that may be so short that it has to be stretched first, at most `limit`
times. -/
def stretched (r : Reliance α) : (limit : Nat) → Vec α (n + 1) → Reflection α (n + 1)
  | 0, column => direct r column
  | limit + 1, column =>
    let reflection := direct r column
    let short := r.least / r.unit
    if Scalar.lt (Scalar.abs reflection.leading) short then
      let reflection := stretched r limit (1 / short * column)
      { reflection with leading := reflection.leading * short }
    else reflection

/-- **The reflection that clears a column** below its leading entry, `none` if there is nothing to
clear. -/
def ofColumn? (r : Reliance α) (column : Vec α (n + 1)) : Option (Reflection α (n + 1)) :=
  if (column.toList.drop 1).all Scalar.isZero then none else some (stretched r 20 column)

/-- The image of the axis under a symmetric matrix, times the factor. -/
def image (h : Reflection α n) (a : Mat α n n) : Vec α n :=
  Vector.ofFn fun i =>
    let upTo := (List.finRange n).filter (· ≤ i)
    let beyond := (List.finRange n).filter (i < ·)
    (upTo.map fun j => h.factor * h.axis.get j * a.entry i j).foldl (· + ·) 0 +
      h.factor * (beyond.map fun j => a.entry j i * h.axis.get j).foldl (· + ·) 0

/-- **A symmetric matrix reflected from both sides.** Of the matrix the lower triangle counts. -/
def conjugate (h : Reflection α n) (a : Mat α n n) : Mat α n n :=
  let image := h.image a
  let w := image + (-(h.factor / (1 + 1)) * dot image h.axis) * h.axis
  mirrorLower (Mat.ofFn fun i j =>
    a.entry i j - h.axis.get j * w.get i - w.get j * h.axis.get i)

end Reflection

/-- **The tridiagonal form** of a symmetric matrix. A column with nothing to clear needs no
reflection. -/
def tridiagonal (r : Reliance α) : {n : Nat} → Mat α n n → List (BandRow α)
  | 0, _ => []
  | 1, a => [⟨a.entry lead lead, 0⟩]
  | n + 2, a =>
    let column : Vec α (n + 1) := Vector.ofFn fun i => a.entry i.succ lead
    let rest : Mat α (n + 1) (n + 1) := Mat.ofFn fun i j => a.entry i.succ j.succ
    match Reflection.ofColumn? r column with
    | none => ⟨a.entry lead lead, column.get lead⟩ :: tridiagonal r rest
    | some h => ⟨a.entry lead lead, h.leading⟩ :: tridiagonal r (h.conjugate rest)

end VariableMetric
