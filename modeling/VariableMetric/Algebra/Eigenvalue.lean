import VariableMetric.Algebra.Tridiagonal
import VariableMetric.Binary.Double

/-!
# Eigenvalues

The eigenvalues of a symmetric matrix are read off its tridiagonal form, which is swept by rotations
until the entries beside the diagonal are negligible. The form falls into blocks where they are, and
two rows on their own have their eigenvalues written down.

* `pairRoots`: the two eigenvalues of two rows.
* `blocks`: a tridiagonal form in blocks.
* `sweep`: a round of rotations, which makes an entry beside the diagonal smaller.
* `settle?`: the eigenvalues of a block, unless that takes too many sweeps.
* `eigenvalues?`: the eigenvalues of a symmetric matrix, in ascending order.
-/

namespace VariableMetric

variable {α : Type} [Elementary α] {n : Nat}

/-- The eigenvalues of the matrix with `a` and `c` on the diagonal and `b` beside it. The outer one
comes first; the other is what it leaves of the determinant. -/
def pairRoots (a b c : α) : α × α :=
  let sum := a + c
  let gap := Scalar.abs (a - c)
  let twice := Scalar.abs (b + b)
  let (big, small) := if Scalar.lt (Scalar.abs c) (Scalar.abs a) then (a, c) else (c, a)
  let spread :=
    if Scalar.lt twice gap then gap * root (twice / gap)
    else if Scalar.lt gap twice then twice * root (gap / twice)
    else twice * root 1
  if Scalar.lt sum 0 then withInner big small (half (sum - spread))
  else if Scalar.lt 0 sum then withInner big small (half (sum + spread))
  else (half spread, -half spread)
where
  /-- The longest side of a right triangle whose other sides are one and `x`. -/
  root (x : α) : α := Elementary.sqrt (1 + x * x)
  /-- Half of a number. -/
  half (x : α) : α := x / (1 + 1)
  /-- The outer eigenvalue and the other one. -/
  withInner (big small outer : α) : α × α := (outer, big / outer * small - b / outer * b)

namespace BandRow

/-- The row with both entries multiplied by a factor. -/
def scale (factor : α) (a : BandRow α) : BandRow α := ⟨a.diagonal * factor, a.right * factor⟩

/-- The entry between two rows is negligible beside their diagonal entries. -/
def negligible (r : Reliance α) (a b : BandRow α) : Bool :=
  Scalar.le (Scalar.abs a.right)
    (Elementary.sqrt (Scalar.abs a.diagonal) * Elementary.sqrt (Scalar.abs b.diagonal) * r.unit)

/-- The same for rows whose entries beside the diagonal are squared. -/
def negligibleSquare (r : Reliance α) (a b : BandRow α) : Bool :=
  Scalar.le (Scalar.abs a.right) (r.unit * r.unit * Scalar.abs (a.diagonal * b.diagonal))

end BandRow

/-- The rows with nothing right of the last diagonal entry. -/
def sealLast : List (BandRow α) → List (BandRow α)
  | [] => []
  | [a] => [⟨a.diagonal, 0⟩]
  | a :: rest => a :: sealLast rest

/-- The rows in blocks, which end where an entry is negligible. -/
def blocks (r : Reliance α) (rows : List (BandRow α)) : List (List (BandRow α)) :=
  (rows.splitBy fun a b => !a.negligible r b).map sealLast

/-- The rows up to the first entry that is negligible, its square being given, and those after. -/
def leadingBlock (r : Reliance α) : List (BandRow α) → List (BandRow α) × List (BandRow α)
  | [] => ([], [])
  | [a] => ([a], [])
  | a :: b :: rest =>
    if a.negligibleSquare r b then ([⟨a.diagonal, 0⟩], b :: rest)
    else
      let (block, others) := leadingBlock r (b :: rest)
      (a :: block, others)

/-- What comes after the first block is less than all. -/
theorem leadingBlock_rest_lt (r : Reliance α) (a : BandRow α) (rest : List (BandRow α)) :
    (leadingBlock r (a :: rest)).2.length < (a :: rest).length := by
  induction rest generalizing a with
  | nil => simp [leadingBlock]
  | cons b rest ih =>
    rw [leadingBlock]
    split
    · simp
    · exact Nat.lt_succ_of_lt (ih b)

/-- A sweep on its way up: the rotation of the row below, what it makes of the diagonal entry there
and of its square, and the rows that are done. -/
structure Sweep (α : Type) where
  cosine : α
  sine : α
  diagonal : α
  square : α
  done : List (BandRow α)

/-- One row of a sweep with a shift. -/
def Sweep.next (shift : α) (row : BandRow α) (s : Sweep α) : Sweep α :=
  let sum := s.square + row.right
  let right := if s.done.isEmpty then 0 else s.sine * sum
  let cosine := s.square / sum
  let sine := row.right / sum
  let diagonal := cosine * (row.diagonal - shift) - sine * s.diagonal
  let square :=
    if Scalar.isZero cosine then s.cosine * row.right else diagonal * diagonal / cosine
  ⟨cosine, sine, diagonal, square,
    ⟨s.diagonal + (row.diagonal - diagonal), right⟩ :: s.done⟩

/-- The shift of a sweep: close to an eigenvalue of the first two rows. -/
def shiftOf (a b : BandRow α) : α :=
  let beside := Elementary.sqrt a.right
  let middle := (b.diagonal - a.diagonal) / ((1 + 1) * beside)
  a.diagonal - beside / (middle + withSignOf middle (hypotenuse middle 1))

/-- **A sweep** over rows whose entries beside the diagonal are squared, from the last row up. -/
def sweep (shift : α) (upper : List (BandRow α)) (last : BandRow α) : List (BandRow α) :=
  let start := last.diagonal - shift
  let s := upper.foldr (Sweep.next shift) ⟨1, 0, start, start * start, []⟩
  ⟨shift + s.diagonal, s.sine * s.square⟩ :: s.done

/-- **The eigenvalues of rows** whose entries beside the diagonal are squared, and how much of the
budget of sweeps they leave; `none` if it does not suffice. -/
def settle? (r : Reliance α) (budget : Nat) : List (BandRow α) → Option (List α × Nat)
  | [] => some ([], budget)
  | a :: rest =>
    let cut := leadingBlock r (a :: rest)
    have shorter : cut.2.length < (a :: rest).length := leadingBlock_rest_lt r a rest
    match cut.1 with
    | [] | [_] => do
      let (roots, budget) ← settle? r budget cut.2
      return (a.diagonal :: roots, budget)
    | [_, b] => do
      let (u, v) := pairRoots a.diagonal (Elementary.sqrt a.right) b.diagonal
      let (roots, budget) ← settle? r budget cut.2
      return (u :: v :: roots, budget)
    | _ :: b :: c :: more =>
      match budget with
      | 0 => none
      | budget + 1 =>
        let upper := a :: b :: (c :: more).dropLast
        let last := (c :: more).getLast (by simp)
        settle? r budget (sweep (shiftOf a b) upper last ++ cut.2)
  termination_by rows => (budget, rows.length)

/-- The rows from the last to the first. -/
def turned (rows : List (BandRow α)) : List (BandRow α) :=
  List.zipWith BandRow.mk (rows.map (·.diagonal)).reverse
    ((rows.map (·.right)).dropLast.reverse ++ [0])

/-- The largest entry in absolute value. -/
def largestEntry (rows : List (BandRow α)) : α :=
  (rows.flatMap fun a => [a.diagonal, a.right]).foldl
    (fun best a => Scalar.larger best (Scalar.abs a)) 0

/-- The size that entries are scaled to when the largest of them is not between two limits. -/
def targetSize? (low high size : α) : Option α :=
  if Scalar.lt high size then some high
  else if Scalar.lt 0 size && Scalar.lt size low then some low
  else none

/-- The eigenvalues of a block, found from the end with the smaller diagonal entry. Its entries are
scaled if they cannot be squared. -/
def blockRoots? (r : Reliance α) (budget : Nat) (block : List (BandRow α)) :
    Option (List α × Nat) :=
  let size := largestEntry block
  if block.length ≤ 1 || Scalar.isZero size then some (block.map (·.diagonal), budget)
  else
    let high := Elementary.sqrt (1 / r.least) / (1 + 1 + 1)
    let low := Elementary.sqrt r.least / (r.unit * r.unit)
    match targetSize? low high size with
    | none => squared block
    | some target =>
      (squared (block.map (·.scale (target / size)))).map fun (roots, budget) =>
        (roots.map (· * (size / target)), budget)
where
  /-- The entries beside the diagonal are squared, and the rows turned if they have to be. -/
  squared (block : List (BandRow α)) : Option (List α × Nat) :=
    let rows := block.map fun a => ⟨a.diagonal, a.right * a.right⟩
    let first := Scalar.abs ((rows.head?.map (·.diagonal)).getD 0)
    let last := Scalar.abs ((rows.getLast?.map (·.diagonal)).getD 0)
    if Scalar.lt last first then
      (settle? r budget (turned rows)).map fun (roots, budget) => (roots.reverse, budget)
    else settle? r budget rows

/-- The eigenvalues of blocks. -/
def allRoots? (r : Reliance α) (budget : Nat) : List (List (BandRow α)) → Option (List α)
  | [] => some []
  | block :: rest => do
    let (roots, budget) ← blockRoots? r budget block
    return roots ++ (← allRoots? r budget rest)

/-- A number put into numbers in descending order. -/
def insertDescending (x : α) : List α → List α
  | [] => [x]
  | y :: ys => if Scalar.lt x y then y :: insertDescending x ys else x :: y :: ys

/-- Numbers in ascending order. -/
def ascending (xs : List α) : List α :=
  (xs.foldl (fun sorted x => insertDescending x sorted) []).reverse

/-- **The eigenvalues of a symmetric matrix** in ascending order, or `none` if they take more than
thirty sweeps for each row. A matrix with very large or very small entries is scaled. -/
def eigenvalues? (r : Reliance α) (a : Mat α n n) : Option (List α) :=
  let a := mirrorLower a
  if n ≤ 1 then some (a.toList.flatMap Vector.toList)
  else
    let low := Elementary.sqrt (r.least / (r.unit + r.unit))
    let size := normInf (a.map normInf)
    match targetSize? low (1 / low) size with
    | none => rootsOf a
    | some target =>
      let factor := target / size
      (rootsOf (Mat.ofFn fun i j => a.entry i j * factor)).map (·.map (· * (1 / factor)))
where
  /-- The eigenvalues of a matrix with common entries. -/
  rootsOf (a : Mat α n n) : Option (List α) :=
    (allRoots? r (30 * n) (blocks r (tridiagonal r a))).map ascending

/-- The eigenvalues of matrices of doubles. -/
instance : Spectrum Float where
  eigenvalues? {n} a :=
    (eigenvalues? Binary.reliance a).map fun roots => Vector.ofFn fun i : Fin n => roots.getD i 0

end VariableMetric
