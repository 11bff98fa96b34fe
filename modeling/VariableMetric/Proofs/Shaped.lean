import VariableMetric.Algebra.Shaped
import VariableMetric.Proofs.Exact

/-!
# Arrays that hold one system

The operations on arrays of any shape do to a matrix and a vector what the operations of a run do.
A matrix is a stack without axes in front, of one matrix only, and the arithmetic is any.

* `Stack.lone`, `toStack_ofMat`, `toStack_ofVec`: matrices and vectors as such stacks.
* `solve_ofMat`: **one system**, solved or singular.
* `NdArray.Covers`: an array that can be stretched to a matrix; `zipWith?_of_covers`: two of them
  combined.
* `solveRidged_ofMat`: **one system with its ridge**.
-/

namespace VariableMetric

variable {α β : Type} {m n : ℕ}

theorem Mat.ext_entry {a b : Mat α m n} (h : ∀ i j, a.entry i j = b.entry i j) : a = b :=
  vec_ext fun i => vec_ext (h i)

namespace Stack

/-- The one item of a stack without axes. -/
def only (items : Vector α (Shape.cells [])) : α := items.get ⟨0, Nat.one_pos⟩

/-- The stack of one matrix. -/
def lone (a : Mat α m n) : Stack α m n := ⟨[], #v[a]⟩

theorem eq_lone {a : Mat α m n} {items : Vector (Mat α m n) (Shape.cells [])}
    (h : ∀ i j, (only items).entry i j = a.entry i j) : (⟨[], items⟩ : Stack α m n) = lone a := by
  unfold lone
  congr 1
  refine Vector.ext fun k hk => ?_
  have hk0 : k = 0 := Nat.lt_one_iff.1 hk
  subst hk0
  exact Mat.ext_entry h

theorem only_map (f : α → β) (items : Vector α (Shape.cells [])) :
    only (items.map f) = f (only items) := Vector.getElem_map _ _

theorem only_zip (items : Vector α (Shape.cells [])) (items' : Vector β (Shape.cells [])) :
    only (items.zip items') = (only items, only items') := Vector.getElem_zip

/-- What may fail is done to the one item. -/
theorem mapM_only (f : α → Option β) (items : Vector α (Shape.cells [])) :
    items.mapM f = (f (only items)).map fun b => #v[b] := by
  have hone (as : Vector α 1) : as.mapM f = (f (as.get 0)).map fun b => #v[b] := by
    have has : as.toArray = #[as.get 0] := by
      refine Array.ext as.size_toArray fun i hi _ => ?_
      have hi0 : i = 0 := Nat.lt_one_iff.1 (as.size_toArray ▸ hi)
      subst hi0
      rfl
    apply Vector.map_toArray_inj.mp
    rw [Vector.toArray_mapM, has]
    cases hf : f (as.get 0) <;> simp [hf]
  exact hone items

theorem only_stretch_lone [Scalar α] (a : Mat α m n) : only ((lone a).stretch []).items = a :=
  get_ofFn _ _

/-- A stack of one matrix with one column, listed. -/
theorem entries_column (x : Mat α 1 n) : (lone x.transpose).entries = (x.get 0).toList := by
  have hrow (v : Vec α 1) : v.toList = [v.get 0] := by
    refine List.ext_getElem v.length_toList fun i hi _ => ?_
    rw [v.length_toList, Nat.lt_one_iff] at hi
    subst hi
    rfl
  have hflat (l : List (Vec α 1)) : l.flatMap Vector.toList = l.map (·.get 0) := by
    rw [List.map_eq_flatMap]
    exact congrArg (l.flatMap ·) (funext hrow)
  have hx : x.get 0 = Vector.ofFn fun j => (x.get 0).get j := vec_ext fun j => (get_ofFn _ j).symm
  show [x.transpose].flatMap (fun a => a.toList.flatMap Vector.toList) = _
  rw [List.flatMap_singleton, hflat, hx, Mat.transpose, Mat.ofFn, Vector.toList_ofFn,
    Vector.toList_ofFn, List.map_ofFn]
  congr 1

end Stack

namespace NdArray

section Places

/-- Places run along the rows. -/
theorem place_div (i : Fin m) (j : Fin n) : (i.val * n + j.val) / n = i.val := by
  rw [Nat.add_comm, Nat.add_mul_div_right _ _ j.pos, Nat.div_eq_of_lt j.isLt, Nat.zero_add]

theorem place_mod (i : Fin m) (j : Fin n) : (i.val * n + j.val) % n = j.val := by
  rw [Nat.mul_comm, Nat.mul_add_mod, Nat.mod_eq_of_lt j.isLt]

/-- Every place is in a row and a column. -/
theorem exists_place {k : ℕ} (hk : k < m * n) : ∃ (i : Fin m) (j : Fin n), i.val * n + j.val = k :=
  ⟨⟨k / n, Nat.div_lt_of_lt_mul (Nat.mul_comm m n ▸ hk)⟩,
    ⟨k % n, Nat.mod_lt k (Nat.pos_of_lt_mul_left hk)⟩, Nat.div_add_mod' k n⟩

theorem place_lt_cells (i : Fin m) (j : Fin n) : i.val * n + j.val < Shape.cells [m, n] := by
  have hcells : Shape.cells [m, n] = m * n := by simp [Shape.cells]
  exact hcells ▸ place_lt i j

/-- An array of the shape of a matrix has its own place below every place. -/
theorem sourcePlace_self (i : Fin m) (j : Fin n) :
    sourcePlace [n, m] [n, m] (i.val * n + j.val) = i.val * n + j.val := by
  have hextent {k : ℕ} (i : Fin k) : (if k = 1 then 0 else i.val % k) = i.val := by
    split
    · omega
    · exact Nat.mod_eq_of_lt i.isLt
  have hcolumn : (if n = 1 then 0 else (i.val * n + j.val) % n) = j.val := by
    rw [place_mod]
    split
    · omega
    · rfl
  simp only [sourcePlace, place_div, hextent, hcolumn, Nat.mul_zero, Nat.add_zero]
  rw [Nat.add_comm, Nat.mul_comm]

theorem getElem?_ofMat (a : Mat α m n) (i : Fin m) (j : Fin n) :
    (ofMat a).entries[i.val * n + j.val]? = some (a.entry i j) := by
  rw [← Vector.getElem?_toArray]
  show a.flatten.toArray[i.val * n + j.val]? = _
  rw [Vector.getElem?_toArray, Vector.getElem?_flatten, dif_pos (place_lt i j)]
  simp only [place_div, place_mod]
  rfl

theorem getElem?_ofVec (v : Vec α n) (i : Fin n) : (ofVec v).entries[i.val]? = some (v.get i) := by
  rw [← Vector.getElem?_toArray]
  show v.toArray[i.val]? = _
  rw [Vector.getElem?_toArray]
  exact Vector.getElem?_eq_getElem i.isLt

/-- An array with two axes is the matrix that has its entries. -/
theorem eq_ofMat {a : Mat α m n} {entries : Vector α (Shape.cells [m, n])}
    (h : ∀ i j, entries[i.val * n + j.val]? = some (a.entry i j)) :
    (⟨[m, n], entries⟩ : NdArray α) = ofMat a := by
  have hentries : entries = (ofMat a).entries := by
    refine Vector.ext fun k hk => ?_
    obtain ⟨i, j, rfl⟩ : ∃ (i : Fin m) (j : Fin n), i.val * n + j.val = k :=
      exists_place (by simpa [Shape.cells] using hk)
    have hboth := (h i j).trans (getElem?_ofMat a i j).symm
    rw [Vector.getElem?_eq_getElem hk] at hboth
    exact Option.some.inj (hboth.trans (Vector.getElem?_eq_getElem hk))
  rw [hentries]
  rfl

end Places

variable [Scalar α]

/-- A matrix as an array is a stack of one matrix. -/
theorem toStack_ofMat (a : Mat α m n) : (ofMat a).toStack [] m n = .lone a := by
  refine Stack.eq_lone fun i j => ?_
  rw [Stack.only, get_ofFn, entry_ofFn, Nat.zero_mul, Nat.zero_add, getElem?_ofMat]
  rfl

/-- A vector as an array is a stack of one matrix with one column. -/
theorem toStack_ofVec (v : Vec α n) :
    (ofVec v).toStack [] n 1 = .lone (Mat.ofFn fun i _ => v.get i) := by
  refine Stack.eq_lone fun i j => ?_
  have hplace : (0 * n + i.val) * 1 + j.val = i.val := by omega
  rw [Stack.only, get_ofFn, entry_ofFn, entry_ofFn, hplace, getElem?_ofVec]
  rfl

theorem ofList_toList (v : Vec α n) : ofList [n] v.toList = ofVec v := by
  unfold ofList ofVec
  dsimp only
  congr 1
  refine Vector.ext fun i hi => ?_
  have hin : i < n := by simpa [Shape.cells] using hi
  rw [Vector.getElem_ofFn, Vector.getElem_cast]
  show (v.toList.toArray[i]?).getD 0 = _
  rw [List.getElem?_toArray, Vector.getElem?_toList, Vector.getElem?_eq_getElem hin]
  rfl

section Systems

variable [Solver α]

theorem solveStack_lone {c : ℕ} (a : Mat α n n) (b : Mat α n c) :
    solveStack (.lone a) (.lone b) =
      match Solver.solveAll? a b.transpose with
      | some xs => .ok (.lone (Mat.transpose xs))
      | none => .error .singular := by
  -- both stacks have one place, though their types say so only once they are unfolded
  let items : Vector (Mat α n n × Mat α n c) (Shape.cells []) :=
    ((Stack.lone a).stretch []).items.zip ((Stack.lone b).stretch []).items
  have honly : Stack.only items = (a, b) :=
    (Stack.only_zip ((Stack.lone a).stretch []).items ((Stack.lone b).stretch []).items).trans
      (congrArg₂ Prod.mk (Stack.only_stretch_lone a) (Stack.only_stretch_lone b))
  have hmap : items.mapM (fun s => Solver.solveAll? s.1 s.2.transpose) =
      (Solver.solveAll? a b.transpose).map fun x => #v[x] := by
    rw [Stack.mapM_only, honly]
  have hloop : broadcastShape? (Stack.lone a).loop (Stack.lone b).loop = some [] := rfl
  unfold solveStack
  rw [hloop]
  dsimp only
  split
  · rename_i xs hxs
    obtain ⟨x, hx, hone⟩ := Option.map_eq_some_iff.1 (hmap.symm.trans hxs)
    rw [hx, ← hone]
    refine congrArg Except.ok (Stack.eq_lone fun i j => ?_)
    exact congrArg (fun m => Mat.entry m i j) (Stack.only_map Mat.transpose #v[x])
  · rename_i hxs
    rw [Option.map_eq_none_iff.1 (hmap.symm.trans hxs)]

/-- **One system on arrays** is solved as the system of a run is. A singular matrix is an error. -/
theorem solve_ofMat (a : Mat α n n) (b : Vec α n) :
    solve (ofMat a) (ofVec b) =
      match solve? a b with
      | some x => .ok (ofVec x)
      | none => .error .singular := by
  have hsplit : (ofMat a).shape.split? = some ([], n, n) := rfl
  have hshape : (ofVec b).shape = [n] := rfl
  have hside : (Mat.ofFn fun i (_ : Fin 1) => b.get i).transpose = #v[b] := by
    refine Mat.ext_entry fun i j => ?_
    rw [Mat.transpose, entry_ofFn, entry_ofFn, Subsingleton.elim i 0]
    rfl
  unfold solve
  rw [hsplit]
  simp only [if_true]
  unfold solveSquare
  rw [hshape]
  simp only [if_true]
  rw [toStack_ofMat, toStack_ofVec, solveStack_lone, hside, solve?]
  cases Solver.solveAll? a #v[b] with
  | none => rfl
  | some xs =>
    have hlist : ofList [n] (Stack.lone (Mat.transpose xs)).entries = ofVec (xs.get 0) := by
      rw [Stack.entries_column, ofList_toList]
    exact congrArg Except.ok hlist

end Systems

/-- **An array covers a matrix** if it has the entries of the matrix once it is stretched. -/
def Covers (s : NdArray α) (a : Mat α m n) : Prop :=
  ∀ i j, (s.stretch [m, n]).entries[i.val * n + j.val]? = some (a.entry i j)

/-- Below every place of a matrix lies the entry that the stretched array has there. -/
theorem covers_of_source {s : NdArray α} {a : Mat α m n}
    (h : ∀ i j, s.entries[sourcePlace [n, m] s.shape.reverse (i.val * n + j.val)]? =
      some (a.entry i j)) : s.Covers a := by
  intro i j
  have hentry : (s.stretch [m, n]).entries[i.val * n + j.val]? =
      some ((s.entries[sourcePlace [n, m] s.shape.reverse (i.val * n + j.val)]?).getD 0) :=
    (Vector.getElem?_eq_getElem (place_lt_cells i j)).trans
      (congrArg some (Vector.getElem_ofFn (place_lt_cells i j)))
  rw [hentry, h]
  rfl

theorem covers_ofMat (a : Mat α m n) : (ofMat a).Covers a := by
  refine covers_of_source fun i j => ?_
  have hplace : sourcePlace [n, m] (ofMat a).shape.reverse (i.val * n + j.val) =
      i.val * n + j.val := sourcePlace_self i j
  rw [hplace, getElem?_ofMat]

/-- A number covers the matrix that has it everywhere. -/
theorem covers_ofScalar (r : α) : (ofScalar r).Covers (Mat.ofFn fun (_ : Fin m) (_ : Fin n) => r) :=
  covers_of_source fun i j => by
    rw [entry_ofFn]
    rfl

/-- **Two arrays combined** that cover matrices of their common shape. -/
theorem zipWith?_of_covers (f : α → α → α) {s t : NdArray α} {a b : Mat α m n}
    (hshape : broadcastShape? s.shape t.shape = some [m, n]) (hs : s.Covers a) (ht : t.Covers b) :
    zipWith? f s t = some (ofMat (Mat.ofFn fun i j => f (a.entry i j) (b.entry i j))) := by
  have hzip {u v : Vector α (Shape.cells [m, n])} {k : ℕ} {x y : α} (hu : u[k]? = some x)
      (hv : v[k]? = some y) : (Vector.zipWith f u v)[k]? = some (f x y) := by
    rw [Vector.getElem?_zipWith, hu, hv]
  unfold zipWith?
  rw [hshape, Option.map_some]
  refine congrArg some (eq_ofMat fun i j => ?_)
  rw [entry_ofFn]
  exact hzip (hs i j) (ht i j)

/-- The ridge of a number is the identity times that number. -/
theorem ridge_ofScalar (r : α) :
    ridge n (ofScalar r) =
      .ok (ofMat (Mat.ofFn fun i j => r * (Mat.identity n : Mat α n n).entry i j)) := by
  have hzip := zipWith?_of_covers (· * ·) (s := ofScalar r) (t := ofMat (Mat.identity n)) rfl
    (covers_ofScalar r) (covers_ofMat (Mat.identity n))
  unfold ridge
  rw [hzip]
  simp only [entry_ofFn]

/-- The sum of a matrix and its ridge. -/
theorem zipWith?_ridge (a : Mat α n n) (r : α) :
    zipWith? (· + ·) (ofMat a)
        (ofMat (Mat.ofFn fun i j => r * (Mat.identity n : Mat α n n).entry i j)) =
      some (ofMat (addRidge a r)) := by
  have hshape : broadcastShape? [n, n] [n, n] = some [n, n] := by
    simp [broadcastShape?, broadcastReversed?, broadcastExtent?]
  rw [zipWith?_of_covers (· + ·) hshape (covers_ofMat a) (covers_ofMat _)]
  simp only [entry_ofFn, Mat.identity, addRidge]

/-- **One system with its ridge on arrays**: as the system of a run, with an error if even the sum
is singular. -/
theorem solveRidged_ofMat [Solver α] (a : Mat α n n) (b : Vec α n) (r : α) :
    solveRidged (ofMat a) (ofVec b) (.ok (ofScalar r)) =
      ⟨(VariableMetric.solveRidged a b r).ridged,
        match (VariableMetric.solveRidged a b r).solution with
        | some x => .ok (ofVec x)
        | none => .error .singular⟩ := by
  have hretried : solveRidged.retried (ofMat a) (ofVec b) (.ok (ofScalar r)) =
      solve (ofMat (addRidge a r)) (ofVec b) := by
    have hshape : (ofMat a).shape = [n, n] := rfl
    unfold solveRidged.retried
    rw [hshape]
    simp only [bind, Except.bind, ridge_ofScalar, zipWith?_ridge]
  unfold solveRidged VariableMetric.solveRidged
  rw [solve_ofMat, hretried, solve_ofMat]
  cases solve? a b with
  | some x => rfl
  | none => rfl

end NdArray

end VariableMetric
