import VariableMetric.Algebra.NdArray

/-!
# Stacks of matrices

An array with two axes or more is a stack of matrices: the last two axes are those of the matrices,
and the axes in front of them tell the matrices apart.

* `Shape.split?`: the axes of a shape, taken apart in this way.
* `Stack`: matrices of one size, arranged in a shape.
* `NdArray.toStack`, `Stack.toArray`: from arrays to stacks and back.
* `Stack.stretch`: a stack over more places.
-/

namespace VariableMetric

/-- The axes along which matrices are stacked, and the rows and columns of the matrices; `none` if
there are too few axes for a matrix. -/
def Shape.split? (s : Shape) : Option (Shape × Nat × Nat) :=
  match s.reverse with
  | n :: m :: rest => some (rest.reverse, m, n)
  | _ => none

/-- Matrices of `m` rows and `n` columns, arranged in a shape. -/
structure Stack (α : Type) (m n : Nat) where
  /-- The axes along which the matrices are stacked. -/
  loop : Shape
  /-- The matrices, the last axis of `loop` running fastest. -/
  items : Vector (Mat α m n) loop.cells

variable {α : Type} [Scalar α] {m n : Nat}

/-- The matrices of an array. -/
def NdArray.toStack (a : NdArray α) (loop : Shape) (m n : Nat) : Stack α m n :=
  ⟨loop, Vector.ofFn fun k => Mat.ofFn fun i j =>
    (a.entries[(k.val * m + i.val) * n + j.val]?).getD 0⟩

namespace Stack

/-- The entries of all matrices, row by row. -/
def entries (s : Stack α m n) : List α :=
  s.items.toList.flatMap fun a => a.toList.flatMap Vector.toList

/-- The stack as an array, the axes of the matrices last. -/
def toArray (s : Stack α m n) : NdArray α := .ofList (s.loop ++ [m, n]) s.entries

/-- The stack over the places of a shape that its own broadcasts to. -/
def stretch (s : Stack α m n) (target : Shape) : Stack α m n :=
  ⟨target, Vector.ofFn fun i =>
    (s.items[sourcePlace target.reverse s.loop.reverse i.val]?).getD (Mat.ofFn fun _ _ => 0)⟩

end Stack

end VariableMetric
