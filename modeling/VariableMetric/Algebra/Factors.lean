import VariableMetric.Algebra.LinearSystem
import VariableMetric.Binary.Double

/-!
# Triangular factors

A matrix whose rows are exchanged suitably is the product of a lower triangular factor with ones on
its diagonal and an upper one. The factors are found column by column, and a linear system is solved
by substitution in one after the other.

* `Factors`: the factors found so far, and the exchanges of rows.
* `Factors.reduce`: a column with the columns before it eliminated.
* `Factors.push?`: one more column.
* `Factors.ofMat?`: the factors of a matrix, or `none` when a pivot is zero.
* `Factors.solve`: the solution for a right-hand side.
-/

namespace VariableMetric

/-- Both factors of the leading columns of a matrix, and how its rows were exchanged. -/
structure Factors (α : Type) (n : Nat) where
  /-- The columns: what is on the diagonal and above belongs to the upper factor, what is below to
  the lower one. -/
  columns : List (Vec α n) := []
  /-- The exchanges of two rows, in order. -/
  exchanges : List (Fin n × Fin n) := []

/-- Two entries exchanged. -/
def exchange {β : Type} {n : Nat} (v : Vector β n) (i j : Fin n) : Vector β n :=
  v.swap i.val j.val i.isLt j.isLt

namespace Factors

variable {α : Type} [Scalar α] {n : Nat}

/-- A vector with the rows exchanged as they have been so far. -/
def rearrange (f : Factors α n) (v : Vec α n) : Vec α n :=
  f.exchanges.foldl (fun v (i, j) => exchange v i j) v

/-- **A column with the columns before it eliminated**, from the top down: every entry loses the
multiples of those above it that the lower factor names. -/
def reduce (f : Factors α n) (column : Vec α n) : Vec α n :=
  (List.finRange n).foldl (fun v i =>
    let above := (List.zip f.columns v.toList).take i.val
    v.set i.val (v.get i - (above.map fun (c, x) => c.get i * x).foldl (· + ·) 0))
    (f.rearrange column)

/-- The first row from `j` on whose entry is largest in absolute value. -/
def pivotRow (j : Fin n) (column : Vec α n) : Fin n :=
  ((List.finRange n).filter (j < ·)).foldl (fun best i =>
    if Scalar.lt (Scalar.abs (column.get best)) (Scalar.abs (column.get i)) then i else best) j

/-- The entries below row `j` as multiples of the pivot: products with its inverse, and zero where
the inverse vanishes. -/
def multiples (j : Fin n) (pivot : α) (column : Vec α n) : Vec α n :=
  let inverse := 1 / pivot
  Vector.ofFn fun i =>
    if i ≤ j then column.get i
    else if Scalar.isZero inverse then 0
    else column.get i * inverse

/-- **One more column**, which is the one at `j`; `none` if its pivot is zero. A pivot that is not
at least `least`, or cannot be compared with it, leaves all columns so far as they are. -/
def push? (least : α) (f : Factors α n) (j : Fin n) (column : Vec α n) : Option (Factors α n) :=
  let column := f.reduce column
  let p := pivotRow j column
  let pivot := column.get p
  let exchanges := f.exchanges ++ [(j, p)]
  if Scalar.isZero pivot then none
  else if Scalar.le least (Scalar.abs pivot) then
    let columns := f.columns.map fun c => exchange c j p
    some ⟨columns ++ [multiples j pivot (exchange column j p)], exchanges⟩
  else some ⟨f.columns ++ [column], exchanges⟩

/-- **The factors of a matrix**, or `none` when a pivot is zero. Pivots below `least` are too small
to be divided by. -/
def ofMat? (least : α) (a : Mat α n n) : Option (Factors α n) :=
  (List.finRange n).foldlM (fun f j => f.push? least j (a.transpose.get j)) {}

/-- The columns of both factors with their places. -/
def placed (f : Factors α n) : List (Fin n × Vec α n) := (List.finRange n).zip f.columns

/-- Substitution in the lower factor: each unknown, once known, is taken off those below it. -/
def forward (f : Factors α n) (b : Vec α n) : Vec α n :=
  f.placed.foldl (fun x (i, column) =>
    Vector.ofFn fun k => if i < k then x.get k - x.get i * column.get k else x.get k) b

/-- Substitution in the upper factor, from the last unknown back; `quotient` divides by a diagonal
entry. -/
def backward (quotient : α → α → α) (f : Factors α n) (b : Vec α n) : Vec α n :=
  f.placed.reverse.foldl (fun x (i, column) =>
    let known := quotient (x.get i) (column.get i)
    Vector.ofFn fun k =>
      if k < i then x.get k - known * column.get k else if k = i then known else x.get k) b

/-- **The solution for a right-hand side.** -/
def solve (quotient : α → α → α) (f : Factors α n) (b : Vec α n) : Vec α n :=
  f.backward quotient (f.forward (f.rearrange b))

end Factors

/-- Systems of doubles are solved by factors. Where several right-hand sides share them, the
diagonal of the upper factor is inverted once for all. -/
instance : Solver Float where
  solveAll? {_ c} a sides :=
    let quotient : Float → Float → Float := if c = 1 then (· / ·) else fun x d => x * (1 / d)
    (Factors.ofMat? Binary.reliance.least a).map fun f => sides.map (f.solve quotient)

end VariableMetric
