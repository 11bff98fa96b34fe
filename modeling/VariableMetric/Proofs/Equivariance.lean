import VariableMetric.Proofs.Stopping
import VariableMetric.Proofs.Translation

/-!
# Runs in other coordinates

A run over the reals with exact solutions does not depend on how coordinates are named, which way
they point, and where they and the values are counted from.

* `Motion.oracle`: a deterministic objective in the new coordinates.
* `run_motion`, `head_motion`: **the run on it is the run, translated**, and so are the heads of its
  loop.
* `Motion.Locates`, `Motion.SameState`, `Motion.SameRecord`, `Motion.SameResult`: what is the same
  in both coordinates, and how the rest is related.
* `runs_equivariant`: results, records and heads of both runs.
-/

namespace VariableMetric

open Course Matrix

variable {n : ℕ}

namespace Motion

variable (T : Motion n)

/-- An exchange in the new coordinates. -/
def exchange (e : Exchange (Request ℝ n) Request.Answer) : Exchange (Request ℝ n) Request.Answer :=
  e.translate T.request T.answer

/-- **A deterministic objective in the new coordinates.** -/
def oracle (o : Oracle ℝ n) : Oracle ℝ n where
  value z := T.level (o.value (T.unpoint z))
  jet z := T.jet (o.jet (T.unpoint z))

/-- `z` are the new coordinates of `x`. -/
def Locates (z x : Vec ℝ n) : Prop := x.get = T.turn.matrix *ᵥ z.get + T.centre.get

/-- The same place in both coordinates, `P'` in the new ones. -/
structure SamePlace (P P' : Place ℝ n) : Prop where
  located : T.Locates P'.x P.x
  value_eq : P'.value = P.value + T.offset
  gradient_eq : P'.gradient.get = T.turn.matrixᵀ *ᵥ P.gradient.get
  hessian_eq : P'.hessian.toMatrix = T.turn.matrixᵀ * P.hessian.toMatrix * T.turn.matrix

/-- The same state, as far as it is reported. -/
structure SameState (st st' : State ℝ n) : Prop where
  place : T.SamePlace st.place st'.place
  nit_eq : st'.nit = st.nit
  nfev_eq : st'.nfev = st.nfev
  njev_eq : st'.njev = st.njev

/-- The same record: only point and value differ. -/
structure SameRecord (q q' : Record ℝ n) : Prop where
  iteration_eq : q'.iteration = q.iteration
  value_eq : q'.value = q.value + T.offset
  change_eq : q'.change = q.change
  gradNorm_eq : q'.gradNorm = q.gradNorm
  backtracks_eq : q'.backtracks = q.backtracks
  step_eq : q'.step = q.step
  located : T.Locates q'.x q.x

/-- The same result: the run ends for the same reason, and at the same place. -/
structure SameResult (r r' : Result ℝ n) : Prop where
  place : T.SamePlace ⟨r.x, r.value, r.gradient, r.hessian⟩
    ⟨r'.x, r'.value, r'.gradient, r'.hessian⟩
  ending_eq : r'.ending = r.ending
  nit_eq : r'.nit = r.nit
  nfev_eq : r'.nfev = r.nfev
  njev_eq : r'.njev = r.njev
  gradNorm_eq : r'.gradNorm = r.gradNorm
  history : List.Forall₂ (fun x z => T.Locates z x) r.history r'.history

variable {T}

theorem get_unpoint (z : Vec ℝ n) :
    (T.unpoint z).get = T.turn.matrix *ᵥ z.get + T.centre.get := by
  funext i
  rw [unpoint, get_add, SignedPerm.get_forth]
  rfl

theorem get_point (x : Vec ℝ n) :
    (T.point x).get = T.turn.matrixᵀ *ᵥ (x.get - T.centre.get) := by
  have hsub : (x - T.centre).get = x.get - T.centre.get := funext fun i => get_sub x T.centre i
  rw [point, SignedPerm.get_back, hsub]

theorem locates_point (x : Vec ℝ n) : T.Locates (T.point x) x := by
  rw [Locates, ← get_unpoint, unpoint_point]

theorem samePlace (P : Place ℝ n) : T.SamePlace P
    ⟨T.point P.x, T.level P.value, T.turn.back P.gradient, T.turn.conj P.hessian⟩ :=
  ⟨locates_point P.x, rfl, T.turn.get_back P.gradient, T.turn.toMatrix_conj P.hessian⟩

theorem sameState (st : State ℝ n) : T.SameState st (T.state st) :=
  ⟨samePlace st.place, rfl, rfl, rfl⟩

theorem sameRecord (q : Record ℝ n) : T.SameRecord q (T.record q) :=
  ⟨rfl, rfl, rfl, rfl, rfl, rfl, locates_point q.x⟩

theorem sameResult (r : Result ℝ n) : T.SameResult r (T.result r) where
  place := samePlace ⟨r.x, r.value, r.gradient, r.hessian⟩
  ending_eq := rfl
  nit_eq := rfl
  nfev_eq := rfl
  njev_eq := rfl
  gradNorm_eq := rfl
  history := List.forall₂_map_right_iff.2 (List.forall₂_same.2 fun x _ => locates_point x)

/-- An objective with these values and gradients is the one in the new coordinates. -/
theorem eq_oracle {o o' : Oracle ℝ n}
    (hvalue : ∀ z x, T.Locates z x → o'.value z = o.value x + T.offset)
    (hjet : ∀ z x, T.Locates z x → (o'.jet z).1 = (o.jet x).1 + T.offset ∧
      (o'.jet z).2.get = T.turn.matrixᵀ *ᵥ (o.jet x).2.get) : o' = T.oracle o := by
  obtain ⟨value', jet'⟩ := o'
  rw [oracle, Oracle.mk.injEq]
  refine ⟨funext fun z => hvalue z _ (get_unpoint z), funext fun z => ?_⟩
  obtain ⟨hv, hg⟩ := hjet z _ (get_unpoint z)
  rw [← SignedPerm.get_back] at hg
  exact Prod.ext hv (vec_ext (congrFun hg))

/-! ### Translated courses -/

theorem polls_motion (c : Course ℝ n) : polls (c.map T.exchange) = polls c := by
  rw [polls, List.filterMap_map]
  refine List.filterMap_congr fun e _ => ?_
  obtain ⟨q, a⟩ := e
  cases q <;> rfl

theorem records_motion (c : Course ℝ n) :
    records (c.map T.exchange) = (records c).map T.record := by
  rw [records, records, List.filterMap_map, List.map_filterMap]
  refine List.filterMap_congr fun e _ => ?_
  obtain ⟨q, a⟩ := e
  cases q <;> rfl

theorem answer_motion (o : Oracle ℝ n) (stop : ℕ → Bool) (past : Course ℝ n) (q : Request ℝ n) :
    (T.oracle o).answer stop (past.map T.exchange) (T.request q) =
      T.answer q (o.answer stop past q) := by
  cases q with
  | value x =>
    change T.level (o.value (T.unpoint (T.point x))) = T.level (o.value x)
    rw [unpoint_point]
  | gradient x =>
    change T.jet (o.jet (T.unpoint (T.point x))) = T.jet (o.jet x)
    rw [unpoint_point]
  | stop =>
    change stop (polls (past.map T.exchange)).length = stop (polls past).length
    rw [polls_motion]
  | remark | record | finish => rfl

variable [Solver ℝ] [ExactSolver] {s : Settings ℝ} {x0 : Vec ℝ n}

/-- **The run on an objective in the new coordinates** is the run, translated. -/
theorem run_motion (o : Oracle ℝ n) (stop : ℕ → Bool) :
    (T.oracle o).run stop s (T.point x0) =
      ((o.run stop s x0).1.map T.exchange, (o.run stop s x0).2.map T.result) := by
  rw [Oracle.run, minimize_motion]
  exact Dialogue.hold_translate T.unanswer_answer (answer_motion o stop) (minimize s x0) []

/-- **The heads of the loop** in the new coordinates, by induction over the iterations. -/
theorem head_motion {c : Course ℝ n} {st : State ℝ n} {e : Option Ending}
    (h : AtHead s x0 c st e) : AtHead s (T.point x0) (c.map T.exchange) (T.state st) e := by
  induction h with
  | @start v g hfin =>
    have hfinite : (Scalar.isFinite (T.level v) && allFinite (T.turn.back g)) = true := by
      rw [allFinite_real]
      rfl
    have hstart : AtHead s (T.point x0)
        (starting s (T.point x0) (T.level v) (T.turn.back g)) _ none := .start hfinite
    rw [start_motion, starting_motion] at hstart
    exact hstart
  | @next c c' st st' e _ hn hi ih =>
    have hi' := Dialogue.Comes.translate (h := T.outcome) T.unanswer_answer hi
    change (T.descent T.outcome (iterate s st)).Comes _ (.done (T.state st', e)) at hi'
    rw [← iterate_motion] at hi'
    rw [List.map_append]
    exact ih.next hn hi'

end Motion

variable [Solver ℝ] [ExactSolver] {o o' : Oracle ℝ n} {x0 z0 : Vec ℝ n}

/-- **Runs in other coordinates.** Rename the coordinates, turn some of them round, count them from
another point and the values from another level: the run from the same point is the same run. It
reports the same iterations, ends for the same reason after as many of them, and is at the same
place at every head of its loop; and where one run fails, the other fails alike. -/
theorem runs_equivariant (T : Motion n)
    (hvalue : ∀ z x, T.Locates z x → o'.value z = o.value x + T.offset)
    (hjet : ∀ z x, T.Locates z x → (o'.jet z).1 = (o.jet x).1 + T.offset ∧
      (o'.jet z).2.get = T.turn.matrixᵀ *ᵥ (o.jet x).2.get)
    (h0 : z0.get = T.turn.matrixᵀ *ᵥ (x0.get - T.centre.get)) (stop : ℕ → Bool) (s : Settings ℝ) :
    let run := o.run stop s x0
    let run' := o'.run stop s z0
    List.Forall₂ T.SameRecord (records run.1) (records run'.1) ∧
    (∀ r, run.2 = .ok r → ∃ r', run'.2 = .ok r' ∧ T.SameResult r r') ∧
    (∀ f, run.2 = .error f → run'.2 = .error f) ∧
    ∀ c st e, AtHead s x0 c st e → c <+: run.1 →
      ∃ c' st', AtHead s z0 c' st' e ∧ c' <+: run'.1 ∧ T.SameState st st' := by
  intro run run'
  -- what is assumed leaves only one objective and one starting point
  obtain rfl := Motion.eq_oracle hvalue hjet
  obtain rfl : z0 = T.point x0 := vec_ext (congrFun (h0.trans (Motion.get_point x0).symm))
  have hrun : run' = (run.1.map T.exchange, run.2.map T.result) := Motion.run_motion o stop
  rw [hrun]
  refine ⟨?_, ?_, ?_, ?_⟩
  · rw [Motion.records_motion, List.forall₂_map_right_iff, List.forall₂_same]
    exact fun q _ => Motion.sameRecord q
  · intro r hr
    exact ⟨T.result r, by rw [hr]; rfl, Motion.sameResult r⟩
  · intro f hf
    rw [hf]
    rfl
  · intro c st e hat hpre
    exact ⟨_, T.state st, Motion.head_motion hat, hpre.map _, Motion.sameState st⟩

/-! ### A slope and its mirror image -/

/-- The first coordinate. -/
def slope : Oracle ℝ 2 := ⟨fun x => x.get 0, fun x => (x.get 0, #v[1, 0])⟩

/-- The second coordinate, raised. -/
def raisedSlope : Oracle ℝ 2 := ⟨fun z => z.get 1 + 1, fun z => (z.get 1 + 1, #v[0, 1])⟩

/-- The coordinates change places, and one of them is turned round. -/
noncomputable def swapped : Motion 2 where
  turn := ⟨Equiv.swap 0 1, ![1, -1], by simp [Fin.forall_fin_two]⟩
  centre := #v[0, 1]
  offset := 1

omit [Solver ℝ] [ExactSolver] in
/-- **A run** that takes a full step down the slope. -/
theorem slope_run {s : Settings ℝ} (hs : s.maxiter = 1) :
    letI := solveByInverse
    ∃ c r, slope.run (fun _ => false) s #v[0, 0] = (c, .ok r) ∧ r.nit = 1 ∧
      r.x = #v[0, 0] + -#v[1, 0] := by
  let := solveByInverse
  have := solveByInverse_exact
  let g : Vec ℝ 2 := #v[1, 0]
  let st : State ℝ 2 := .start s #v[0, 0] 0 g
  have hsolved : st.solved s = ⟨false, some g⟩ := solveRidged_identity g s.ridge
  have hstart : AtHead s #v[0, 0] (starting s #v[0, 0] 0 g) st none :=
    .start (by rw [allFinite_real]; rfl)
  have hlt : Scalar.lt ((st.x + -g).get 0) st.value = true := by
    have hdown : (st.x + -g).get 0 = 0 + -1 := by
      rw [get_add, get_neg]
      rfl
    rw [hdown]
    exact decide_eq_true (by norm_num : (0 + -1 : ℝ) < 0)
  have hbefore : st.nit < s.maxiter := hs ▸ Nat.one_pos
  have hpass : Passage s st _ _ _ := .full (g := g) ⟨g, by rw [hsolved], rfl⟩ hlt rfl rfl rfl
  have hnext := hstart.next hbefore (iterate_comes hpass)
  have hlast := hpass.nit_eq.trans hs.symm
  obtain ⟨ending, hrun⟩ := Oracle.exists_run_of_atHead (o := slope) hnext hlast <| by
    rw [List.forall_mem_append, List.forall_mem_cons, List.forall_mem_append]
    exact ⟨Oracle.by_starting rfl, trivial, Oracle.by_opening rfl, Oracle.by_moving⟩
  exact ⟨_, _, hrun, hpass.nit_eq, rfl⟩

omit [Solver ℝ] [ExactSolver] in
theorem swapped_mulVec (a b : ℝ) : swapped.turn.matrixᵀ *ᵥ ![a, b] = ![-b, a] := by
  funext i
  fin_cases i <;> simp [swapped, SignedPerm.matrix, mulVec, dotProduct, Fin.sum_univ_two]

omit [Solver ℝ] [ExactSolver] in
theorem swapped_locates {z x : Vec ℝ 2} (h : swapped.Locates z x) : x.get 0 = z.get 1 := by
  have h0 := congrFun h 0
  simpa [swapped, SignedPerm.matrix, mulVec, dotProduct, Fin.sum_univ_two, get_pair] using h0

omit [Solver ℝ] [ExactSolver] in
/-- The run on the other slope is the same run. -/
theorem runs_equivariant_swapped :
    letI := solveByInverse
    let s : Settings ℝ := ⟨1, 1, 1, 1 / 2, 1 / 4, 0, 1, 9, true⟩
    (∀ z x, swapped.Locates z x → raisedSlope.value z = slope.value x + swapped.offset) ∧
    (∀ z x, swapped.Locates z x →
      (raisedSlope.jet z).1 = (slope.jet x).1 + swapped.offset ∧
      (raisedSlope.jet z).2.get = swapped.turn.matrixᵀ *ᵥ (slope.jet x).2.get) ∧
    (#v[1, 0] : Vec ℝ 2).get =
      swapped.turn.matrixᵀ *ᵥ ((#v[0, 0] : Vec ℝ 2).get - swapped.centre.get) ∧
    ∃ c c' r r', slope.run (fun _ => false) s #v[0, 0] = (c, .ok r) ∧
      raisedSlope.run (fun _ => false) s #v[1, 0] = (c', .ok r') ∧
      r'.nit = 1 ∧ swapped.SameResult r r' := by
  let := solveByInverse
  have := solveByInverse_exact
  intro s
  have hvalue (z x : Vec ℝ 2) (h : swapped.Locates z x) :
      raisedSlope.value z = slope.value x + swapped.offset := by
    change z.get 1 + 1 = x.get 0 + 1
    rw [swapped_locates h]
  have hgrad : (#v[0, 1] : Vec ℝ 2).get =
      swapped.turn.matrixᵀ *ᵥ (#v[1, 0] : Vec ℝ 2).get := by
    rw [get_pair, get_pair, swapped_mulVec, neg_zero]
  have h0 : (#v[1, 0] : Vec ℝ 2).get =
      swapped.turn.matrixᵀ *ᵥ ((#v[0, 0] : Vec ℝ 2).get - swapped.centre.get) := by
    have hcentre : ((#v[0, 0] : Vec ℝ 2).get - swapped.centre.get) = ![0, -1] := by
      rw [swapped, get_pair, get_pair]
      simp
    rw [hcentre, get_pair, swapped_mulVec, neg_neg]
  have hjet (z x : Vec ℝ 2) (h : swapped.Locates z x) :
      (raisedSlope.jet z).1 = (slope.jet x).1 + swapped.offset ∧
      (raisedSlope.jet z).2.get = swapped.turn.matrixᵀ *ᵥ (slope.jet x).2.get :=
    ⟨hvalue z x h, hgrad⟩
  obtain ⟨c, r, hrun, hnit, -⟩ := slope_run (s := s) rfl
  obtain ⟨-, hreturn, -, -⟩ := runs_equivariant swapped hvalue hjet h0 (fun _ => false) s
  obtain ⟨r', hrun', hsame⟩ := hreturn r (by rw [hrun])
  exact ⟨hvalue, hjet, h0, c, _, r, r', hrun, Prod.ext rfl hrun', hsame.nit_eq.trans hnit, hsame⟩

end VariableMetric
