import VariableMetric.Scalar

/-!
# Vectors and matrices

Vectors and matrices carry their size in the type; a matrix is a vector of rows. Sums, differences
and multiples are the entrywise ones of `Vector`.

* `dot`, `normInf`: the inner product and the largest absolute entry.
* `Mat.mulVec`, `Mat.identity`, `Mat.ofFn`: the few matrix operations that the method needs.
-/

namespace VariableMetric

/-- A vector of `n` entries. -/
abbrev Vec (α : Type) (n : Nat) := Vector α n

/-- A matrix of `m` rows and `n` columns, row by row. -/
abbrev Mat (α : Type) (m n : Nat) := Vector (Vector α n) m

/-- The index of the leading entry. -/
def lead {n : Nat} : Fin (n + 1) := 0

variable {α : Type} [Scalar α] {m n : Nat}

/-- The inner product. -/
def dot (u v : Vec α n) : α :=
  Scalar.total (Vector.zipWith (· * ·) u v).toList

/-- The largest absolute entry, zero for the empty vector. -/
def normInf (v : Vec α n) : α :=
  v.foldl (fun best a => Scalar.larger best (Scalar.abs a)) 0

/-- Every entry is finite. -/
def allFinite (v : Vec α n) : Bool := v.all Scalar.isFinite

namespace Mat

/-- The entry of a row and a column. -/
def entry (a : Mat α m n) (i : Fin m) (j : Fin n) : α := (a.get i).get j

/-- The matrix with the given entries. -/
def ofFn (f : Fin m → Fin n → α) : Mat α m n :=
  Vector.ofFn fun i => Vector.ofFn fun j => f i j

/-- The identity matrix. -/
def identity (n : Nat) : Mat α n n :=
  ofFn fun i j => if i = j then 1 else 0

/-- A matrix applied to a vector. -/
def mulVec (a : Mat α m n) (v : Vec α n) : Vec α m :=
  Vector.ofFn fun i => (Vector.zipWith (· * ·) (a.get i) v).foldl (· + ·) 0

/-- The transpose. -/
def transpose (a : Mat α m n) : Mat α n m :=
  ofFn fun j i => a.entry i j

end Mat

end VariableMetric
