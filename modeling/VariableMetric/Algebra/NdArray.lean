import VariableMetric.Algebra.Vec

/-!
# Arrays of any shape

Numbers arranged in a shape, as they come from outside before their shape has been checked.

* `NdArray`: a shape and as many entries as it has cells.
* `NdArray.toVec?`, `NdArray.toMat?`: the array as a vector or matrix of the wanted size.
* `NdArray.ofList`: the array of a shape with listed entries.
* `broadcastShape?`: the common shape of two arrays, extents of one being stretched.
* `NdArray.transpose`: the array with its axes in reverse.
-/

namespace VariableMetric

/-- The extents of an array along its axes. -/
abbrev Shape := List Nat

/-- How many entries a shape has. -/
def Shape.cells (s : Shape) : Nat := s.foldr (· * ·) 1

/-- An array: a shape and its entries, the last axis running fastest. -/
structure NdArray (α : Type) where
  /-- The extents along the axes. -/
  shape : Shape
  /-- The entries. -/
  entries : Vector α shape.cells

namespace NdArray

variable {α : Type} {m n : Nat}

/-- The array without axes that holds one number. -/
def ofScalar (a : α) : NdArray α := ⟨[], #v[a]⟩

/-- The array with every entry changed. -/
def map {β : Type} (f : α → β) (a : NdArray α) : NdArray β := ⟨a.shape, a.entries.map f⟩

/-- The array of a shape with listed entries, the missing ones being zero. -/
def ofList [Zero α] (shape : Shape) (entries : List α) : NdArray α :=
  let entries := entries.toArray
  ⟨shape, Vector.ofFn fun i => (entries[i.val]?).getD 0⟩

/-- A vector as an array with one axis. -/
def ofVec (v : Vec α n) : NdArray α := ⟨[n], v.cast (by simp [Shape.cells])⟩

/-- A matrix as an array with two axes. -/
def ofMat (a : Mat α m n) : NdArray α :=
  ⟨[m, n], a.flatten.cast (by simp [Shape.cells])⟩

/-- The array as a vector of `n` entries, if that is its shape. -/
def toVec? (a : NdArray α) (n : Nat) : Option (Vec α n) :=
  if h : a.shape = [n] then some (a.entries.cast (by simp [h, Shape.cells])) else none

/-- Row `i` ends before the last of `m` rows does. -/
theorem place_lt (i : Fin m) (j : Fin n) : i.val * n + j.val < m * n := by
  have rowEnd : i.val * n + n ≤ m * n := Nat.succ_mul i.val n ▸ Nat.mul_le_mul_right n i.isLt
  omega

/-- The array as a matrix of `m` rows and `n` columns, if that is its shape. -/
def toMat? (a : NdArray α) (m n : Nat) : Option (Mat α m n) :=
  if h : a.shape = [m, n] then
    have cells : a.shape.cells = m * n := by simp [h, Shape.cells]
    some (Vector.ofFn fun i => Vector.ofFn fun j =>
      a.entries.get ⟨i.val * n + j.val, cells ▸ place_lt i j⟩)
  else none

/-- The only entry of an array that has exactly one. -/
def single? (a : NdArray α) : Option α :=
  if h : a.shape.cells = 1 then some (a.entries.get ⟨0, by omega⟩) else none

@[simp] theorem toVec?_ofVec (v : Vec α n) : (ofVec v).toVec? n = some v := by
  rw [toVec?, dif_pos (show (ofVec v).shape = [n] from rfl)]
  rfl

end NdArray

/-- The common extent of two axes: equal, or one of them a single cell. -/
def broadcastExtent? (a b : Nat) : Option Nat :=
  if a = b then some a else if a = 1 then some b else if b = 1 then some a else none

/-- The common shape of two reversed shapes, missing axes counting as single cells. -/
def broadcastReversed? : List Nat → List Nat → Option (List Nat)
  | [], bs => some bs
  | as, [] => some as
  | a :: as, b :: bs => do
    let c ← broadcastExtent? a b
    let cs ← broadcastReversed? as bs
    return c :: cs

/-- The common shape of two arrays, aligned at their last axes. -/
def broadcastShape? (a b : Shape) : Option Shape :=
  (broadcastReversed? a.reverse b.reverse).map List.reverse

/-- The place in the entries of `shape`, reversed, that lies under place `i` of the reversed shape
`target`. -/
def sourcePlace : (target shape : List Nat) → (i : Nat) → Nat
  | t :: ts, s :: ss, i => (if s = 1 then 0 else i % t) + s * sourcePlace ts ss (i / t)
  | _, _, _ => 0

/-- The array stretched to a shape that it broadcasts to, with `fill` where it has no entry. -/
def NdArray.stretchWith {β : Type} (fill : β) (a : NdArray β) (target : Shape) : NdArray β :=
  ⟨target, Vector.ofFn fun i =>
    (a.entries[sourcePlace target.reverse a.shape.reverse i]?).getD fill⟩

/-- The array stretched to a shape that it broadcasts to. -/
def NdArray.stretch {α : Type} [Zero α] (a : NdArray α) (target : Shape) : NdArray α :=
  a.stretchWith 0 target

/-- The place in the entries of a shape that has place `i` when the axes are taken in reverse. -/
def reversedPlace : Shape → (i : Nat) → Nat
  | [], _ => 0
  | n :: rest, i => i % n * Shape.cells rest + reversedPlace rest (i / n)

/-- The array with its axes in reverse. -/
def NdArray.transpose {α : Type} [Zero α] (a : NdArray α) : NdArray α :=
  ⟨a.shape.reverse, Vector.ofFn fun i => (a.entries[reversedPlace a.shape i.val]?).getD 0⟩

/-- Two arrays combined entry by entry on their common shape. -/
def NdArray.zipWith? {α : Type} [Zero α] (f : α → α → α) (a b : NdArray α) : Option (NdArray α) :=
  (broadcastShape? a.shape b.shape).map fun s =>
    ⟨s, Vector.zipWith f (a.stretch s).entries (b.stretch s).entries⟩

end VariableMetric
