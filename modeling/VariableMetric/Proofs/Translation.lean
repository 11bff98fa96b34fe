import VariableMetric.Proofs.Motion
import VariableMetric.Proofs.Oracle

/-!
# Translations of runs

A change of coordinates translates what a run asks, what it is answered and what it comes to.

* `Dialogue.translate`: a dialogue with its questions, answers and results translated.
* `Motion.request`, `Motion.answer`, `Motion.state`, `Motion.result`: what a change of coordinates
  makes of them.
* `iterate_motion`, `minimize_motion`: **a run in the new coordinates is the run, translated**, from
  one such equation for each of its parts.
-/

namespace VariableMetric

open Course Matrix

section Translation

variable {Q Q' : Type} {A : Q → Type} {A' : Q' → Type} {β β' γ γ' : Type}

/-- An exchange with its question and its answer translated. -/
def Exchange.translate (f : Q → Q') (answer : (q : Q) → A q → A' (f q)) (e : Exchange Q A) :
    Exchange Q' A' := ⟨f e.question, answer e.question e.answer⟩

namespace Dialogue

/-- **A dialogue, translated**: its questions and its results by `f` and `h`; the answers it gets
are translated back. -/
def translate (f : Q → Q') (back : (q : Q) → A' (f q) → A q) (h : β → β') :
    Dialogue Q A β → Dialogue Q' A' β'
  | done b => done (h b)
  | fail e => fail e
  | ask q next => ask (f q) fun a => translate f back h (next (back q a))

variable {f : Q → Q'} {back : (q : Q) → A' (f q) → A q} {answer : (q : Q) → A q → A' (f q)}
  {h : β → β'}

theorem translate_bind {k : γ → γ'} {next : β → Dialogue Q A γ} {next' : β' → Dialogue Q' A' γ'}
    (hnext : ∀ b, next' (h b) = (next b).translate f back k) (d : Dialogue Q A β) :
    (d.translate f back h >>= next') = (d >>= next).translate f back k := by
  induction d with
  | done b => exact hnext b
  | fail e => rfl
  | ask q rest ih => exact congrArg (ask (f q)) (funext fun a => ih (back q a))

/-- The course of a dialogue, translated, is one of its translation. -/
theorem Comes.translate (hback : ∀ q a, back q (answer q a) = a) {d d' : Dialogue Q A β}
    {c : List (Exchange Q A)} (hd : d.Comes c d') :
    (d.translate f back h).Comes (c.map (Exchange.translate f answer)) (d'.translate f back h) := by
  induction hd with
  | stay d => exact .stay _
  | @ask q next a c d _ ih =>
    refine .ask ?_
    rw [hback]
    exact ih

/-- **A translation is held as the dialogue is**, by someone whose answers are translations. -/
theorem hold_translate {reply : List (Exchange Q A) → (q : Q) → A q}
    {reply' : List (Exchange Q' A') → (q : Q') → A' q} (hback : ∀ q a, back q (answer q a) = a)
    (hreply : ∀ past q,
      reply' (past.map (Exchange.translate f answer)) (f q) = answer q (reply past q))
    (d : Dialogue Q A β) (past : List (Exchange Q A)) :
    (d.translate f back h).hold reply' (past.map (Exchange.translate f answer)) =
      ((d.hold reply past).1.map (Exchange.translate f answer), (d.hold reply past).2.map h) := by
  induction d generalizing past with
  | done b => rfl
  | fail e => rfl
  | ask q next ih =>
    have hpast : past.map (Exchange.translate f answer) ++
        ([⟨f q, answer q (reply past q)⟩] : List (Exchange Q' A')) =
          List.map (Exchange.translate f answer) (past ++ [⟨q, reply past q⟩]) := by
      rw [List.map_append]
      rfl
    rw [translate, hold, hreply, hback, hpast, ih]
    rfl

end Dialogue

end Translation

variable {n : ℕ}

namespace Motion

variable (T : Motion n)

/-! ### What a change of coordinates makes of a run -/

/-- A value, counted from the new level. -/
def level (v : ℝ) : ℝ := v + T.offset

/-- A value from that counted from the new level. -/
def unlevel (v : ℝ) : ℝ := v - T.offset

/-- A record in the new coordinates. -/
def record (q : Record ℝ n) : Record ℝ n :=
  { q with value := T.level q.value, x := T.point q.x }

/-- A state in the new coordinates. -/
def state (st : State ℝ n) : State ℝ n :=
  { st with
    x := T.point st.x, value := T.level st.value, gradient := T.turn.back st.gradient
    hessian := T.turn.conj st.hessian, history := st.history.map T.point }

/-- A result in the new coordinates. -/
def result (r : Result ℝ n) : Result ℝ n :=
  { r with
    x := T.point r.x, value := T.level r.value, gradient := T.turn.back r.gradient
    hessian := T.turn.conj r.hessian, history := r.history.map T.point }

/-- A remark in the new coordinates: but one of them names no value and no point. -/
def remark : Remark ℝ → Remark ℝ
  | .starting n v limit => .starting n (T.level v) limit
  | r => r

/-- A request in the new coordinates. -/
def request : Request ℝ n → Request ℝ n
  | .value x => .value (T.point x)
  | .gradient x => .gradient (T.point x)
  | .stop => .stop
  | .remark r => .remark (T.remark r)
  | .record q => .record (T.record q)
  | .finish r => .finish (T.result r)

/-- A value and a gradient in the new coordinates. -/
def jet (a : ℝ × Vec ℝ n) : ℝ × Vec ℝ n := (T.level a.1, T.turn.back a.2)

/-- A value and a gradient from those in the new coordinates. -/
def unjet (a : ℝ × Vec ℝ n) : ℝ × Vec ℝ n := (T.unlevel a.1, T.turn.forth a.2)

/-- The answer to a request, in the new coordinates. -/
def answer : (q : Request ℝ n) → q.Answer → (T.request q).Answer
  | .value _, v => T.level v
  | .gradient _, a => T.jet a
  | .stop, stop => stop
  | .remark _, _ | .record _, _ | .finish _, _ => ()

/-- The answer to a request from that in the new coordinates. -/
def unanswer : (q : Request ℝ n) → (T.request q).Answer → q.Answer
  | .value _, v => T.unlevel v
  | .gradient _, a => T.unjet a
  | .stop, stop => stop
  | .remark _, _ | .record _, _ | .finish _, _ => ()

theorem unlevel_level (v : ℝ) : T.unlevel (T.level v) = v := add_sub_cancel_right v T.offset

theorem level_unlevel (v : ℝ) : T.level (T.unlevel v) = v := sub_add_cancel v T.offset

theorem unjet_jet (a : ℝ × Vec ℝ n) : T.unjet (T.jet a) = a :=
  Prod.ext (T.unlevel_level a.1) (T.turn.forth_back a.2)

theorem jet_unjet (a : ℝ × Vec ℝ n) : T.jet (T.unjet a) = a :=
  Prod.ext (T.level_unlevel a.1) (T.turn.back_forth a.2)

theorem unanswer_answer (q : Request ℝ n) (a : q.Answer) : T.unanswer q (T.answer q a) = a := by
  cases q with
  | value x => exact T.unlevel_level a
  | gradient x => exact T.unjet_jet a
  | stop | remark | record | finish => rfl

/-- A part of a run in the new coordinates. -/
abbrev descent {β β' : Type} (h : β → β') (d : Descent ℝ n β) : Descent ℝ n β' :=
  d.translate T.request T.unanswer h

/-- What an iteration comes to, in the new coordinates. -/
def outcome {β : Type} (out : State ℝ n × β) : State ℝ n × β := (T.state out.1, out.2)

/-- A search in the new coordinates. -/
def ray (r : Ray ℝ n) : Ray ℝ n :=
  { r with
    origin := T.point r.origin, direction := T.turn.back r.direction, value := T.level r.value }

/-- A trial in the new coordinates. -/
def trial (t : Trial ℝ n) : Trial ℝ n :=
  { t with point := T.point t.point, value := T.level t.value }

/-- What a search comes to, in the new coordinates. -/
def searched (f : Searched ℝ n) : Searched ℝ n :=
  { f with x := T.point f.x, value := T.level f.value }

variable {T}

/-- A value is asked for in the new coordinates as in the old ones, if what follows is alike. -/
theorem ask_value {β β' : Type} {h : β → β'} {x : Vec ℝ n} {next : ℝ → Descent ℝ n β}
    {next' : ℝ → Descent ℝ n β'} (hnext : ∀ v, next' (T.level v) = T.descent h (next v)) :
    (Dialogue.ask (.value (T.point x)) next' : Descent ℝ n β') =
      T.descent h (Dialogue.ask (.value x) next) := by
  refine congrArg (Dialogue.ask _) (funext fun v => ?_)
  have hv := hnext (T.unlevel v)
  rw [level_unlevel] at hv
  exact hv

/-- The same for a value and a gradient. -/
theorem ask_gradient {β β' : Type} {h : β → β'} {x : Vec ℝ n}
    {next : ℝ × Vec ℝ n → Descent ℝ n β} {next' : ℝ × Vec ℝ n → Descent ℝ n β'}
    (hnext : ∀ a, next' (T.jet a) = T.descent h (next a)) :
    (Dialogue.ask (.gradient (T.point x)) next' : Descent ℝ n β') =
      T.descent h (Dialogue.ask (.gradient x) next) := by
  refine congrArg (Dialogue.ask _) (funext fun a => ?_)
  have ha := hnext (T.unjet a)
  rw [jet_unjet] at ha
  exact ha

/-! ### The parts of an iteration -/

variable {s : Settings ℝ} {st : State ℝ n} {x d g : Vec ℝ n} {v : ℝ}

theorem lt_level (a b : ℝ) : Scalar.lt (T.level a) (T.level b) = Scalar.lt a b := by
  simp only [level, real_lt, add_lt_add_iff_right]

theorem level_sub_level (a b : ℝ) : T.level a - T.level b = a - b := add_sub_add_right_eq_sub a b _

/-- The full step in the new coordinates. -/
theorem fullStep_motion : (T.state st).x + T.turn.back d = T.point (st.x + d) :=
  (point_add T st.x d).symm

theorem secantUpdate_motion (tol : ℝ) :
    secantUpdate (T.state st).hessian (T.point x - (T.state st).x)
        (T.turn.back g - (T.state st).gradient) tol =
      T.turn.updated (secantUpdate st.hessian (x - st.x) (g - st.gradient) tol) := by
  change secantUpdate (T.turn.conj st.hessian) (T.point x - T.point st.x)
    (T.turn.back g - T.turn.back st.gradient) tol = _
  rw [point_sub, ← SignedPerm.back_sub, SignedPerm.secantUpdate_conj]

theorem moved_motion : (T.state st).moved s (T.point x) (T.level v) (T.turn.back g) =
    T.state (st.moved s x v g) := by
  have hhistory :
      (if s.history then (T.state st).history ++ [T.point x] else (T.state st).history) =
        (if s.history then st.history ++ [x] else st.history).map T.point := by
    split
    · rw [List.map_append]
      rfl
    · rfl
  unfold State.moved
  rw [secantUpdate_motion, hhistory]
  rfl

theorem recordTo_motion (st' : State ℝ n) (k : ℕ) (step : ℝ) :
    (T.state st).recordTo (T.state st') k step = T.record (st.recordTo st' k step) := by
  simp only [State.recordTo, record, state, level_sub_level, SignedPerm.normInf_back]

theorem withinTolerance_motion :
    withinTolerance s (T.level v - T.level st.value) (T.turn.back d) =
      withinTolerance s (v - st.value) d := by
  rw [withinTolerance, withinTolerance, SignedPerm.normInf_back, level_sub_level]

theorem movedEnding_motion :
    movedEnding s (T.state st) (T.point x) (T.level v) = movedEnding s st x v := by
  unfold movedEnding
  change (if withinTolerance s (T.level v - T.level st.value) (T.point x - T.point st.x) then _
    else _) = _
  rw [point_sub, withinTolerance_motion]

theorem accept_motion (st : State ℝ n) (k : ℕ) (step : ℝ) :
    accept s (T.state st) (T.point x) (T.level v) (T.turn.back g) k step =
      T.descent T.outcome (accept s st x v g k step) := by
  rw [accept_eq, accept_eq]
  dsimp only
  -- the update is left out in both coordinates or in none, and the remark names only inner products
  rw [secantUpdate_motion, moved_motion, recordTo_motion, movedEnding_motion]
  cases hu : (secantUpdate st.hessian (x - st.x) (g - st.gradient) s.curvatureTol).applied with
  | true => simp only [SignedPerm.updated, hu, if_true]; rfl
  | false => simp only [SignedPerm.updated, hu, Bool.false_eq_true, if_false]; rfl

theorem halt_motion (st : State ℝ n) (k : ℕ) (ending : Ending) :
    halt (T.state st) k ending = T.descent T.outcome (halt st k ending) := by
  have hhalt (st : State ℝ n) : halt st k ending =
      Dialogue.ask (.record (st.recordTo st k 0)) fun _ => .done (st, some ending) := rfl
  rw [hhalt, hhalt, recordTo_motion]
  rfl

/-! ### Searches -/

theorem pointAt_motion (r : Ray ℝ n) (scale : ℝ) :
    (T.ray r).pointAt scale = T.point (r.pointAt scale) := by
  unfold Ray.pointAt
  rw [point_add, SignedPerm.back_smul]
  rfl

theorem accepts_motion (r : Ray ℝ n) (t : Trial ℝ n) :
    (T.ray r).accepts (T.trial t).value = r.accepts t.value := lt_level t.value r.value

theorem conclude_motion (r : Ray ℝ n) (asked : ℕ) (t : Trial ℝ n) :
    (T.ray r).conclude asked (T.trial t) = T.searched (r.conclude asked t) := by
  unfold Ray.conclude
  rw [accepts_motion]
  rfl

theorem shrink_motion (r : Ray ℝ n) (limit : ℕ) (t : Trial ℝ n) :
    (T.ray r).shrink Descent.value limit (T.trial t) =
      T.descent (Option.map T.trial) (r.shrink Descent.value limit t) := by
  have hsettled (t : Trial ℝ n) : (T.ray r).settled (T.trial t) = r.settled t := by
    unfold Ray.settled
    rw [accepts_motion]
    rfl
  -- by induction on the trials that are left, from any trial on
  induction limit generalizing t with
  | zero =>
    unfold Ray.shrink
    rw [hsettled]
    split <;> rfl
  | succ limit ih =>
    cases hs : r.settled t with
    | true =>
      rw [Ray.shrink_of_settled _ _ hs, Ray.shrink_of_settled _ _ ((hsettled t).trans hs)]
      rfl
    | false =>
      rw [Ray.shrink_of_unsettled _ _ hs, Ray.shrink_of_unsettled _ _ ((hsettled t).trans hs)]
      have hpoint : (T.ray r).pointAt ((T.trial t).scale * (T.ray r).factor) =
          T.point (r.pointAt (t.scale * r.factor)) := pointAt_motion r _
      rw [hpoint]
      exact ask_value fun v => ih ⟨_, v, _, _⟩

theorem search_motion (r : Ray ℝ n) (limit : ℕ) :
    (T.ray r).search Descent.value (some (T.level v)) limit =
      T.descent (Option.map T.searched) (r.search Descent.value (some v) limit) := by
  have htrial : (T.ray r).trialAt 0 (T.level v) = T.trial (r.trialAt 0 v) := by
    have hpoint : (T.ray r).trialPoint 0 = T.point (r.trialPoint 0) :=
      (point_add T r.origin r.direction).symm
    unfold Ray.trialAt
    rw [hpoint]
    rfl
  rw [Ray.search_eq, Ray.search_eq, htrial, shrink_motion]
  refine Dialogue.translate_bind (fun t => ?_) _
  cases t with
  | none => rfl
  | some t => exact congrArg (fun f => Dialogue.done (some f)) (conclude_motion r 0 t)

theorem afterSearch_motion (found : Option (Searched ℝ n)) :
    afterSearch s (T.state st) (found.map T.searched) =
      T.descent T.outcome (afterSearch s st found) := by
  cases found with
  | none => rfl
  | some found =>
    have hsearch (st : State ℝ n) (f : Searched ℝ n) : afterSearch s st (some f) =
        if f.success then
          Dialogue.ask (.gradient f.x) fun a : ℝ × Vec ℝ n =>
            accept s ((st.counted f.nfev 0).counted 0 1) f.x a.1 a.2 f.backtracks f.step
        else Dialogue.ask (.remark (.noDecrease st.nit f.backtracks)) fun _ =>
          halt (st.counted f.nfev 0) f.backtracks .stepUnderflow := rfl
    rw [Option.map_some, hsearch, hsearch]
    by_cases hfound : found.success = true
    · have hfound' : (T.searched found).success = true := hfound
      rw [if_pos hfound, if_pos hfound']
      exact ask_gradient fun a => accept_motion ((st.counted found.nfev 0).counted 0 1) _ _
    · have hfound' : ¬ (T.searched found).success = true := hfound
      rw [if_neg hfound, if_neg hfound']
      exact congrArg (Dialogue.ask _) (funext fun _ => halt_motion (st.counted found.nfev 0) _ _)

theorem afterFull_motion (st : State ℝ n) :
    afterFull s (T.state st) (T.turn.back d) (T.level v) (T.turn.back g) =
      T.descent T.outcome (afterFull s st d v g) := by
  unfold afterFull
  have hlt : Scalar.lt (T.level v) (T.state st).value = Scalar.lt v st.value := lt_level v st.value
  have hsmall : withinTolerance s (T.level v - (T.state st).value) (T.turn.back d) =
      withinTolerance s (v - st.value) d := withinTolerance_motion
  rw [hlt, hsmall, fullStep_motion]
  split
  · exact accept_motion st _ _
  · split
    · exact halt_motion st _ _
    · have hray : (T.state st).ray s (T.turn.back d) = T.ray (st.ray s d) := rfl
      rw [hray, search_motion]
      exact Dialogue.translate_bind (fun found => afterSearch_motion found) _

/-! ### Around the loop -/

theorem start_motion (x0 g : Vec ℝ n) (v : ℝ) :
    State.start s (T.point x0) (T.level v) (T.turn.back g) = T.state (State.start s x0 v g) := by
  have hhistory : (if s.history then [T.point x0] else []) =
      (if s.history then [x0] else []).map T.point := by
    split <;> rfl
  unfold State.start state
  rw [hhistory, SignedPerm.conj_identity]

theorem startRecord_motion (st : State ℝ n) :
    startRecord (T.state st) = T.record (startRecord st) := by
  simp only [startRecord, record, state, SignedPerm.normInf_back]

theorem starting_motion (x0 g : Vec ℝ n) (v : ℝ) :
    starting s (T.point x0) (T.level v) (T.turn.back g) =
      (starting s x0 v g).map (Exchange.translate T.request T.answer) := by
  unfold starting
  rw [start_motion, startRecord_motion]
  rfl

theorem result_motion (st : State ℝ n) (ending : Ending) :
    (T.state st).result ending = T.result (st.result ending) := by
  simp only [State.result, result, state, SignedPerm.normInf_back]

theorem closing_motion (out : State ℝ n × Ending) :
    closing (T.outcome out) = T.descent T.result (closing out) := by
  have hclosing (out : State ℝ n × Ending) : closing out =
      Dialogue.ask (.remark (.finished out.1.nit out.2)) fun _ =>
        Dialogue.ask (.finish (out.1.result out.2)) fun _ => .done (out.1.result out.2) := rfl
  rw [hclosing, hclosing]
  have hresult : (T.outcome out).1.result (T.outcome out).2 = T.result (out.1.result out.2) :=
    result_motion out.1 out.2
  rw [hresult]
  rfl

/-! ### Whole runs -/

variable [Solver ℝ] [ExactSolver]

theorem searchDirection_motion :
    searchDirection s (T.state st) = T.descent T.turn.back (searchDirection s st) := by
  have hsolved : (T.state st).solved s =
      ⟨(st.solved s).ridged, (st.solved s).solution.map T.turn.back⟩ :=
    T.turn.solveRidged_conj st.hessian st.gradient s.ridge
  rw [searchDirection_eq_solved, searchDirection_eq_solved, hsolved]
  dsimp only
  cases hp : (st.solved s).solution with
  | none => split <;> rfl
  | some p =>
    rw [Option.map_some]
    dsimp only
    rw [← SignedPerm.back_neg]
    split <;> rfl

/-- **An iteration in the new coordinates.** -/
theorem iterate_motion : iterate s (T.state st) = T.descent T.outcome (iterate s st) := by
  rw [iterate_eq, iterate_eq, searchDirection_motion]
  refine Dialogue.translate_bind (fun d => ?_) _
  rw [fullStep_motion]
  exact ask_gradient fun a => afterFull_motion (st.begun.counted 0 1)

theorem iterateUpTo_motion (budget : ℕ) :
    iterateUpTo s budget (T.state st) = T.descent T.outcome (iterateUpTo s budget st) := by
  induction budget generalizing st with
  | zero => rfl
  | succ budget ih =>
    rw [iterateUpTo_succ, iterateUpTo_succ]
    refine congrArg (Dialogue.ask _) (funext fun stop => ?_)
    cases stop with
    | true => rfl
    | false =>
      simp only [Bool.false_eq_true, if_false]
      rw [iterate_motion]
      refine Dialogue.translate_bind ?_ _
      rintro ⟨st', e⟩
      cases e with
      | none => exact ih
      | some ending => rfl

/-- **A run in the new coordinates** is the run, translated. -/
theorem minimize_motion (x0 : Vec ℝ n) :
    minimize s (T.point x0) = T.descent T.result (minimize s x0) := by
  rw [minimize_eq, minimize_eq]
  refine ask_gradient fun a => ?_
  have hfin (v : ℝ) (g : Vec ℝ n) : (!(Scalar.isFinite v && allFinite g)) = false := by
    rw [allFinite_real]
    rfl
  rw [hfin, hfin, if_neg Bool.false_ne_true, if_neg Bool.false_ne_true]
  change Dialogue.ask _ (fun _ => Dialogue.ask (.record (startRecord (State.start s (T.point x0)
    (T.level a.1) (T.turn.back a.2)))) fun _ => iterateUpTo s s.maxiter (State.start s (T.point x0)
    (T.level a.1) (T.turn.back a.2)) >>= closing) = _
  rw [start_motion, startRecord_motion, iterateUpTo_motion]
  refine congrArg (Dialogue.ask _) (funext fun _ => congrArg (Dialogue.ask _) (funext fun _ => ?_))
  exact Dialogue.translate_bind closing_motion _

end Motion

end VariableMetric
