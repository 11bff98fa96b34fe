import VariableMetric.Proofs.Iteration

/-!
# The heads of the loop

A run that returns passes the head of its loop again and again, and leaves it in one of three ways.

* `AtHead`: **the run comes to the head of its loop**, by certain exchanges, in a certain state, and
  with the ending if the iteration before was the last.
* `AtHead.comes`: what is left of the run there.
* `Leaving`: the three ways in which a run leaves its loop.
* `heads_of_minimize`: every run that returns comes to a last head, and leaves it in one of them.
* `AtHead.returns`: a run returns wherever it leaves its loop.
-/

namespace VariableMetric

variable {α : Type} [Scalar α] {n : ℕ}

/-- The state of a run when its loop begins. -/
def State.start (s : Settings α) (x0 : Vec α n) (v : α) (g : Vec α n) : State α n :=
  ⟨x0, v, g, Mat.identity n, 0, 1, 1, if s.history then [x0] else []⟩

/-- The exchanges before the loop. -/
def starting (s : Settings α) (x0 : Vec α n) (v : α) (g : Vec α n) : Course α n :=
  [⟨.gradient x0, (v, g)⟩, ⟨.remark (.starting n v s.maxiter), ()⟩,
    ⟨.record (startRecord (.start s x0 v g)), ()⟩]

/-- The exchanges after the loop. -/
def finishing (st : State α n) (ending : Ending) : Course α n :=
  [⟨.remark (.finished st.nit ending), ()⟩, ⟨.finish (st.result ending), ()⟩]

/-- What a run does after its loop. -/
def closing (out : State α n × Ending) : Descent α n (Result α n) := do
  Descent.remark (.finished out.1.nit out.2)
  Descent.finish (out.1.result out.2)
  return out.1.result out.2

variable [Solver α]

/-- **The head of the loop.** The run from `x0` comes there by the exchanges `c`, in state `st`. If
the iteration before was the last, `e` is its ending. -/
inductive AtHead (s : Settings α) (x0 : Vec α n) :
    Course α n → State α n → Option Ending → Prop
  | start {v : α} {g : Vec α n} (hfin : (Scalar.isFinite v && allFinite g) = true) :
      AtHead s x0 (starting s x0 v g) (.start s x0 v g) none
  | next {c c' : Course α n} {st st' : State α n} {e : Option Ending}
      (h : AtHead s x0 c st none) (hn : st.nit < s.maxiter)
      (hi : Dialogue.Comes (iterate s st) c' (.done (st', e))) :
      AtHead s x0 (c ++ ⟨.stop, false⟩ :: c') st' e

/-- **How a run leaves its loop** at the head where it is in state `st`. -/
inductive Leaving (s : Settings α) (st : State α n) : Option Ending → Course α n → Ending → Prop
  /-- The limit is reached. -/
  | limit (hn : st.nit = s.maxiter) : Leaving s st none [] .iterationLimit
  /-- The caller stops the run. -/
  | stopped (hn : st.nit < s.maxiter) : Leaving s st none [⟨.stop, true⟩] .stoppedByCaller
  /-- The iteration before was the last. -/
  | ended {ending : Ending} : Leaving s st (some ending) [] ending

variable {s : Settings α} {x0 : Vec α n} {c : Course α n} {st st' : State α n} {e : Option Ending}

theorem Passage.nit_eq (h : Passage s st c st' e) : st'.nit = st.nit + 1 := by
  cases h with
  | full _ _ hst => rw [hst]; rfl
  | shrunk _ _ _ _ _ _ _ _ hst => rw [hst]; rfl
  | still h =>
    cases h with
    | stationary _ _ _ hst => rw [hst]; rfl
    | underflow _ _ _ _ _ _ hst => rw [hst]; rfl

/-- The loop with some budget left. -/
theorem iterateUpTo_succ (s : Settings α) (budget : ℕ) (st : State α n) :
    iterateUpTo s (budget + 1) st = Dialogue.ask .stop fun stop =>
      if stop then .done (st, .stoppedByCaller)
      else iterate s st >>= fun out =>
        match out with
        | (st, some ending) => .done (st, ending)
        | (st, none) => iterateUpTo s budget st := by
  rw [iterateUpTo]
  rfl

theorem minimize_eq (s : Settings α) (x0 : Vec α n) :
    minimize s x0 = Dialogue.ask (.gradient x0) fun vg : α × Vec α n =>
      if !(Scalar.isFinite vg.1 && allFinite vg.2) then .fail .valuesInfinite
      else Dialogue.ask (.remark (.starting n vg.1 s.maxiter)) fun _ =>
        Dialogue.ask (.record (startRecord (.start s x0 vg.1 vg.2))) fun _ =>
          iterateUpTo s s.maxiter (.start s x0 vg.1 vg.2) >>= closing := rfl

/-- What is left of the loop at its head. -/
def rest (s : Settings α) (st : State α n) : Option Ending → Descent α n (State α n × Ending)
  | some ending => .done (st, ending)
  | none => iterateUpTo s (s.maxiter - st.nit) st

/-- **What is left of a run at the head of its loop.** -/
theorem AtHead.comes (h : AtHead s x0 c st e) :
    (minimize s x0).Comes c (rest s st e >>= closing) := by
  -- an iteration takes one of the budget, and begins one more iteration
  induction h with
  | start hfin =>
    rw [minimize_eq]
    refine .ask ?_
    simp only [hfin, Bool.not_true, Bool.false_eq_true, if_false]
    exact .ask (.ask (.stay _))
  | @next c c' st st' e _ hn hi ih =>
    obtain ⟨b, hb⟩ : ∃ b, s.maxiter - st.nit = b + 1 := ⟨s.maxiter - st.nit - 1, by omega⟩
    have hb' : s.maxiter - st'.nit = b := by
      rw [(passage_of_iterate hi).nit_eq]; omega
    rw [rest, hb, iterateUpTo_succ, Dialogue.ask_bind] at ih
    refine ih.trans (.ask ?_)
    simp only [Bool.false_eq_true, if_false, Dialogue.bind_assoc]
    cases e with
    | some ending => exact hi.bind _
    | none =>
      rw [rest, hb']
      exact hi.bind _

/-- **A run returns wherever it leaves its loop.** -/
theorem AtHead.returns {c₂ : Course α n} {ending : Ending} (h : AtHead s x0 c st e)
    (hl : Leaving s st e c₂ ending) :
    (minimize s x0).Comes (c ++ c₂ ++ finishing st ending) (.done (st.result ending)) := by
  have hloop : (rest s st e).Comes c₂ (.done (st, ending)) := by
    cases hl with
    | limit hn =>
      rw [rest, hn, Nat.sub_self]
      exact .stay _
    | stopped hn =>
      obtain ⟨b, hb⟩ : ∃ b, s.maxiter - st.nit = b + 1 := ⟨s.maxiter - st.nit - 1, by omega⟩
      rw [rest, hb, iterateUpTo_succ]
      exact .ask (.stay _)
    | ended => exact .stay _
  exact (h.comes.trans (hloop.bind closing)).trans (.ask (.ask (.stay _)))

/-- The loop from a head on leads to a last head. -/
theorem heads_of_iterateUpTo {budget : ℕ} {c' : Course α n} {out : State α n × Ending}
    (h : AtHead s x0 c st none) (hb : st.nit + budget = s.maxiter)
    (hl : Dialogue.Comes (iterateUpTo s budget st) c' (.done out)) :
    ∃ c₁ e c₂, AtHead s x0 c₁ out.1 e ∧ Leaving s out.1 e c₂ out.2 ∧ c ++ c' = c₁ ++ c₂ := by
  -- the iterations begun and the budget add up to the limit at every head
  induction budget generalizing c st c' with
  | zero =>
    obtain ⟨rfl, hout⟩ := Dialogue.comes_done hl
    cases hout
    exact ⟨c, none, [], h, .limit hb, rfl⟩
  | succ budget ih =>
    rw [iterateUpTo_succ] at hl
    have hn : st.nit < s.maxiter := by omega
    obtain ⟨stop, c'', rfl, hl'⟩ := Dialogue.comes_ask hl
    cases stop with
    | true =>
      obtain ⟨rfl, hout⟩ := Dialogue.comes_done hl'
      cases hout
      exact ⟨c, none, [⟨.stop, true⟩], h, .stopped hn, rfl⟩
    | false =>
      obtain ⟨⟨st', e⟩, c₁, c₂, rfl, h₁, h₂⟩ := Dialogue.comes_bind_done hl'
      have hnext := h.next hn h₁
      cases e with
      | some ending =>
        obtain ⟨rfl, hout⟩ := Dialogue.comes_done h₂
        cases hout
        exact ⟨_, some ending, [], hnext, .ended, by simp⟩
      | none =>
        have hb' : st'.nit + budget = s.maxiter := by
          rw [(passage_of_iterate h₁).nit_eq]; omega
        obtain ⟨c₃, e, c₄, hat, hleave, hc⟩ := ih hnext hb' h₂
        exact ⟨c₃, e, c₄, hat, hleave, by rw [← hc]; simp⟩

/-- **Every run that returns** comes to a last head of its loop, and leaves it. -/
theorem heads_of_minimize {r : Result α n} (h : (minimize s x0).Comes c (.done r)) :
    ∃ c₁ st e c₂ ending, AtHead s x0 c₁ st e ∧ Leaving s st e c₂ ending ∧
      c = c₁ ++ c₂ ++ finishing st ending ∧ r = st.result ending := by
  rw [minimize_eq] at h
  obtain ⟨⟨v, g⟩, c', rfl, h₀⟩ := Dialogue.comes_ask h
  by_cases hfin : (Scalar.isFinite v && allFinite g) = true
  · simp only [hfin, Bool.not_true, Bool.false_eq_true, if_false] at h₀
    obtain ⟨a, c₁, rfl, h₁⟩ := Dialogue.comes_ask h₀
    obtain ⟨a', c₂, rfl, h₂⟩ := Dialogue.comes_ask h₁
    obtain ⟨⟨st, ending⟩, c₃, c₄, rfl, h₃, h₄⟩ := Dialogue.comes_bind_done h₂
    obtain ⟨b, c₅, rfl, h₅⟩ := Dialogue.comes_ask h₄
    obtain ⟨b', c₆, rfl, h₆⟩ := Dialogue.comes_ask h₅
    obtain ⟨rfl, hr⟩ := Dialogue.comes_done h₆
    cases hr
    obtain ⟨c₇, e, c₈, hat, hleave, hc⟩ := heads_of_iterateUpTo (.start hfin) (Nat.zero_add _) h₃
    refine ⟨c₇, st, e, c₈, ending, hat, hleave, ?_, rfl⟩
    rw [← hc]
    simp [starting, finishing]
  · simp only [hfin, Bool.not_false, if_true] at h₀
    cases (Dialogue.comes_fail h₀).2

end VariableMetric
