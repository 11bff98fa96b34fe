import Mathlib.Data.Real.Basic
import VariableMetric.Proofs.Records
import VariableMetric.Proofs.Secant

/-!
# Directions of descent

Over the reals, with a solver that is exact, whatever the answers to a run are.

* `curvatureAlong`: the secant updates along a sequence of points with gradients.
* `AtHead.hessian_eq`: the curvature matrix at the head of the loop is that of the accepted points.
* `searchDirection_eq`: **a positive definite matrix leads downhill**, and needs no ridge.
* `spared_minimize`: the matrix is positive definite throughout, so that a ridge is never needed.
* `direction_at_heads`: all of this of every run.
-/

namespace VariableMetric

open Matrix Course

section Fold

variable {α : Type} [Scalar α] {n : ℕ}

/-- The secant steps from each point of a sequence to the next. -/
def secantSteps (tol : α) (ps : List (Vec α n × Vec α n)) : List (SecantStep α n) :=
  List.zipWith (fun p q => ⟨q.1 - p.1, q.2 - p.2, tol⟩) ps ps.tail

/-- **The curvature matrix of a sequence of points**: the identity, updated for each step. -/
def curvatureAlong (tol : α) (ps : List (Vec α n × Vec α n)) : Mat α n n :=
  (secantSteps tol ps).foldl SecantStep.update (Mat.identity n)

theorem secantSteps_concat (tol : α) (ps : List (Vec α n × Vec α n)) (p q : Vec α n × Vec α n) :
    secantSteps tol (ps ++ [p] ++ [q]) =
      secantSteps tol (ps ++ [p]) ++ [⟨q.1 - p.1, q.2 - p.2, tol⟩] := by
  induction ps with
  | nil => rfl
  | cons p' ps ih =>
    cases ps with
    | nil => rfl
    | cons p'' ps => exact congrArg (_ :: ·) ih

theorem curvatureAlong_concat (tol : α) (ps : List (Vec α n × Vec α n)) (p q : Vec α n × Vec α n) :
    curvatureAlong tol (ps ++ [p] ++ [q]) =
      (secantUpdate (curvatureAlong tol (ps ++ [p])) (q.1 - p.1) (q.2 - p.2) tol).matrix := by
  rw [curvatureAlong, secantSteps_concat, List.foldl_concat]
  rfl

/-- **The curvature matrix at the head of the loop** is that of the accepted points. -/
theorem AtHead.hessian_eq [Solver α] [Scalar.Ordered α] {s : Settings α} {x0 : Vec α n}
    {c : Course α n} {st : State α n} {e : Option Ending} (h : AtHead s x0 c st e) :
    st.hessian = curvatureAlong s.curvatureTol (accepted c) := by
  induction h with
  | start => rfl
  | @next c c' st st' e hat _ hi ih =>
    obtain ⟨ps, hps⟩ := hat.told.accepted_eq
    rw [hps] at ih
    -- the point that is accepted is the one that the matrix is corrected for
    cases (passage_of_iterate hi).progress with
    | @moves x g v a step values gradients k hst he hrec hstep hacc hv ha hlt =>
      rw [hacc, hps, curvatureAlong_concat, ← ih, hst]
      rfl
    | @stays values gradients k ending hst he hrec hacc hwhy =>
      rw [hacc, hps, ← ih, hst]
      rfl

end Fold

variable {n : ℕ} [Solver ℝ] [ExactSolver] {s : Settings ℝ} {st : State ℝ n}

/-- **The direction of a positive definite matrix**: it needs no ridge, solves the system, leads
downhill, and vanishes only with the gradient. -/
theorem searchDirection_eq (h : st.hessian.toMatrix.PosDef) :
    ∃ d, searchDirection s st = .done d ∧ st.hessian.mulVec d = -st.gradient ∧
      (st.gradient ≠ 0 → dot st.gradient d < 0) ∧ (d = 0 ↔ st.gradient = 0) := by
  obtain ⟨p, hp, hsol⟩ := solve?_eq_some ((isUnit_iff_isUnit_det _).1 h.isUnit).ne_zero st.gradient
  have hget : st.hessian.toMatrix *ᵥ p.get = st.gradient.get := by rw [← get_mulVec, hsol]
  have hneg : (-p).get = -p.get := funext fun i => get_neg p i
  have hzero : p = 0 ↔ st.gradient = 0 := by
    rw [← get_eq_zero_iff, ← get_eq_zero_iff, ← hget]
    constructor
    · intro h0
      rw [h0, mulVec_zero]
    · intro h0
      -- a solution other than zero would have a form that is not positive
      by_contra hne
      have hpos := h.dotProduct_mulVec_pos hne
      rw [star_trivial, h0, dotProduct_zero] at hpos
      exact lt_irrefl _ hpos
  have hd0 : -p = 0 ↔ p = 0 := by
    rw [← get_eq_zero_iff, ← get_eq_zero_iff, hneg, neg_eq_zero]
  refine ⟨-p, ?_, ?_, ?_, hd0.trans hzero⟩
  · simp only [searchDirection, solveRidged, hp, Bool.false_eq_true, if_false]
    rfl
  · refine vec_ext fun i => ?_
    rw [get_mulVec, hneg, mulVec_neg, hget, get_neg, Pi.neg_apply]
  · intro hg
    have hne : p.get ≠ 0 := fun h0 => hg (hzero.1 ((get_eq_zero_iff p).1 h0))
    have hpos := h.dotProduct_mulVec_pos hne
    rw [star_trivial, hget] at hpos
    rw [dot_eq, hneg, dotProduct_neg, dotProduct_comm]
    exact neg_neg_of_pos hpos

/-! ### No ridge -/

/-- Not the remark that a ridge was needed. -/
def Request.Unridged : Request ℝ n → Prop
  | .remark (.ridged _) => False
  | _ => True

/-- **No ridge is asked for, and no system is singular**; what comes out is in `fine`. -/
abbrev Descent.Spared {β : Type} (d : Descent ℝ n β) (fine : β → Prop) : Prop :=
  d.Keeps Request.Unridged (· ≠ .singular) fine

section Spared

omit [Solver ℝ] [ExactSolver]

theorem unridged_of_ne (q : Request ℝ n) (h : ∀ ridge, q ≠ .remark (.ridged ridge)) :
    q.Unridged := by
  rcases q with _ | _ | _ | r | _ | _
  case remark =>
    cases r with
    | ridged ridge => exact h ridge rfl
    | _ => trivial
  all_goals trivial

theorem spared_shrink (r : Ray ℝ n) (limit : ℕ) (t : Trial ℝ n) :
    (r.shrink Descent.value limit t).Spared fun _ => True := by
  induction limit generalizing t with
  | zero =>
    unfold Ray.shrink
    split <;> exact trivial
  | succ limit ih =>
    unfold Ray.shrink
    split
    · exact trivial
    · exact .ask trivial fun v => ih _

theorem spared_closing (out : State ℝ n × Ending) : (closing out).Spared fun _ => True := by
  refine .ask trivial fun _ => ?_
  refine .ask trivial fun _ => ?_
  exact trivial

theorem posDef_identity : (Mat.identity n : Mat ℝ n n).toMatrix.PosDef :=
  toMatrix_identity (n := n) ▸ PosDef.one

end Spared

/-- The identity leads against the gradient. -/
theorem searchDirection_identity (h : st.hessian = Mat.identity n) :
    searchDirection s st = .done (-st.gradient) := by
  obtain ⟨d, hd, hsolves, -⟩ := searchDirection_eq (s := s) (h ▸ posDef_identity)
  have himage : d.get = (-st.gradient).get := by
    rw [← one_mulVec d.get, ← toMatrix_identity, ← get_mulVec, ← h, hsolves]
  rw [hd, vec_ext (congrFun himage)]

theorem spared_iterate (htol : 0 ≤ s.curvatureTol) (h : st.hessian.toMatrix.PosDef) :
    (iterate s st).Spared fun out => out.1.hessian.toMatrix.PosDef := by
  obtain ⟨d, hd, -⟩ := searchDirection_eq (s := s) h
  rw [iterate_eq, hd, Dialogue.done_bind]
  refine .ask trivial fun vg => ?_
  exact keeps_afterFull unridged_of_ne (spared_shrink _ _ _) (fun _ => nofun) (fun _ _ _ => h)
    fun _ _ _ _ _ _ => posDef_secantUpdate h _ _ htol

theorem spared_iterateUpTo (htol : 0 ≤ s.curvatureTol) (budget : ℕ)
    (h : st.hessian.toMatrix.PosDef) : (iterateUpTo s budget st).Spared fun _ => True := by
  induction budget generalizing st with
  | zero => exact trivial
  | succ budget ih =>
    rw [iterateUpTo_succ]
    refine .ask trivial fun stop => ?_
    cases stop with
    | true => exact trivial
    | false =>
      refine (spared_iterate htol h).bind fun out hout => ?_
      obtain ⟨st', e⟩ := out
      cases e with
      | some ending => exact trivial
      | none => exact ih hout

/-- **A run never needs a ridge**, whatever it is answered. -/
theorem spared_minimize (htol : 0 ≤ s.curvatureTol) (x0 : Vec ℝ n) :
    (minimize s x0).Spared fun _ => True := by
  rw [minimize_eq]
  refine .ask trivial fun vg => ?_
  have hstart : (State.start s x0 vg.1 vg.2).hessian.toMatrix.PosDef := posDef_identity
  split
  · exact fun h => nomatch h
  · refine .ask trivial fun _ => ?_
    refine .ask trivial fun _ => ?_
    exact (spared_iterateUpTo htol s.maxiter hstart).bind fun out _ => spared_closing out

/-- The curvature matrix is positive definite at every head of the loop. -/
theorem AtHead.posDef (htol : 0 ≤ s.curvatureTol) {x0 : Vec ℝ n} {c : Course ℝ n}
    {e : Option Ending} (h : AtHead s x0 c st e) : st.hessian.toMatrix.PosDef := by
  induction h with
  | start => exact posDef_identity
  | next _ _ hi ih => exact ((spared_iterate htol ih).comes hi).2

/-- **Directions of descent.** At every head of the loop the curvature matrix is that of the
accepted points, and gives a direction of descent without a ridge. No run asks for a ridge or fails
on a singular system, whatever it is answered and however far it goes, and one that returns gives
back the curvature matrix of its accepted points. -/
theorem direction_at_heads (htol : 0 ≤ s.curvatureTol) (x0 : Vec ℝ n) :
    (∀ c st e, AtHead s x0 c st e →
      st.hessian = curvatureAlong s.curvatureTol (accepted c) ∧
      ∃ d, searchDirection s st = .done d ∧ st.hessian.mulVec d = -st.gradient ∧
        (st.gradient ≠ 0 → dot st.gradient d < 0) ∧ (d = 0 ↔ st.gradient = 0)) ∧
    (∀ c d, (minimize s x0).Comes c d →
      (∀ q ∈ c, ∀ ridge, q.question ≠ .remark (.ridged ridge)) ∧ d ≠ .fail .singular) ∧
    ∀ c r, (minimize s x0).Comes c (.done r) →
      r.hessian = curvatureAlong s.curvatureTol (accepted c) := by
  refine ⟨?_, ?_, ?_⟩
  · intro c st e h
    exact ⟨h.hessian_eq, searchDirection_eq (h.posDef htol)⟩
  · intro c d h
    obtain ⟨hall, hd⟩ := (spared_minimize htol x0).comes h
    refine ⟨?_, ?_⟩
    · intro q hq ridge hridge
      have hun := hall q hq
      rw [hridge] at hun
      exact hun
    · rintro rfl
      exact hd rfl
  · intro c r h
    obtain ⟨c₁, st, e, c₂, ending, hat, hleave, rfl, rfl⟩ := heads_of_minimize h
    rw [hleave.told.2]
    exact hat.hessian_eq

omit [Solver ℝ] [ExactSolver] in
/-- A run from `1` that accepts the full step to `1 / 2`, where the curvature turns out to be half
of what it was taken for. -/
theorem direction_at_heads_corrected :
    let s : Settings ℝ := ⟨3, 1 / 100, 1 / 100, 1 / 2, 1 / 4, 0, 1, 9, true⟩
    letI := solveByInverse
    0 ≤ s.curvatureTol ∧ ∃ c st, AtHead s #v[1] c st none ∧
      accepted c = [(#v[1], #v[1 / 2]), (#v[1 / 2], #v[1 / 4])] ∧
      st.hessian = curvatureAlong s.curvatureTol (accepted c) ∧ st.hessian = #v[#v[1 / 2]] ∧
      ∃ d, searchDirection s st = .done d ∧ st.hessian.mulVec d = -st.gradient ∧
        dot st.gradient d < 0 := by
  intro s
  let := solveByInverse
  have := solveByInverse_exact
  let st₀ : State ℝ 1 := .start s #v[1] (1 / 4) #v[1 / 2]
  have hat : AtHead s #v[1] (starting s #v[1] (1 / 4) #v[1 / 2]) st₀ none :=
    .start (allFinite_real _)
  have hdirection : searchDirection s st₀ = .done (-#v[1 / 2]) := searchDirection_identity rfl
  have hcome : (searchDirection s st₀).Comes [] (.done (-#v[1 / 2])) :=
    hdirection ▸ Dialogue.Comes.stay _
  have hlead : st₀.Leads s (-#v[1 / 2]) := (comes_searchDirection hcome).1
  have hfull : st₀.x + -#v[1 / 2] = #v[1 / 2] := by
    have hx : st₀.x = #v[1] := rfl
    refine vec_ext fun i => ?_
    rw [hx, get_add, get_neg, get_singleton, get_singleton]
    norm_num
  -- the full step is a decrease, and too long for the run to converge there
  have hlt : Scalar.lt (1 / 16) st₀.value = true := by
    change decide ((1 / 16 : ℝ) < 1 / 4) = true
    norm_num
  have hgoes : movedEnding s st₀ (st₀.x + -#v[1 / 2]) (1 / 16) = none := by
    have hchange : Scalar.lt (Scalar.abs (1 / 16 - 1 / 4 : ℝ)) s.tolfun = false := by
      change decide (|(1 / 16 - 1 / 4 : ℝ)| < 1 / 100) = false
      norm_num
    have hlarge : withinTolerance s (1 / 16 - st₀.value) (st₀.x + -#v[1 / 2] - st₀.x) =
        false := by
      rw [withinTolerance, Bool.and_eq_false_iff]
      exact .inl hchange
    rw [movedEnding, hlarge]
    rfl
  have hmove := iterate_comes (.full (g := #v[1 / 4]) hlead hlt rfl rfl hgoes.symm)
  have hnext := hat.next (by decide) hmove
  obtain ⟨hhessian, d, hd, hsolves, hdown, -⟩ :=
    (direction_at_heads (s := s) le_rfl #v[1]).1 _ _ _ hnext
  have haccepted : accepted (starting s #v[1] (1 / 4) #v[1 / 2] ++ ⟨.stop, false⟩ ::
      (opening s st₀ (-#v[1 / 2]) (1 / 16) #v[1 / 4] ++
        moving s (st₀.begun.counted 0 1) (st₀.x + -#v[1 / 2]) (1 / 16) #v[1 / 4] 0 1)) =
      [(#v[1], #v[1 / 2]), (#v[1 / 2], #v[1 / 4])] := by
    rw [opening, List.append_assoc, hfull]
    exact accepted_next_moving records_ridging (decide_eq_true one_pos) _
  refine ⟨le_rfl, _, _, hnext, haccepted, hhessian, ?_, d, hd, hsolves, hdown ?_⟩
  · -- the gradient changes by half of the step, which is long enough for the update to be made
    have hdx : (#v[1 / 2] - #v[1] : Vec ℝ 1).get 0 = -1 / 2 := by
      rw [get_sub, get_singleton, get_singleton]
      norm_num
    have hsquare : (#v[1 / 2] - #v[1] : Vec ℝ 1).get ⬝ᵥ (#v[1 / 2] - #v[1] : Vec ℝ 1).get =
        1 / 4 := by
      rw [dotProduct, Fin.sum_univ_one, hdx]
      norm_num
    have hy : (#v[1 / 4] - #v[1 / 2] : Vec ℝ 1).get =
        (1 / 2 : ℝ) • (#v[1 / 2] - #v[1] : Vec ℝ 1).get := by
      funext i
      rw [Pi.smul_apply, Subsingleton.elim i 0, hdx, get_sub, get_singleton, get_singleton]
      norm_num
    rw [hhessian, haccepted]
    refine eq_of_toMatrix (secantUpdate_first le_rfl hy ?_ ?_)
    · rw [hsquare]
      norm_num [s]
    · rw [hsquare]
      norm_num [s]
  · intro hzero
    have hentry : (#v[1 / 4] : Vec ℝ 1).get 0 = (0 : Vec ℝ 1).get 0 := congrArg (·.get 0) hzero
    rw [get_singleton, get_zero] at hentry
    norm_num at hentry

end VariableMetric
