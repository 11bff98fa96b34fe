import Mathlib.Data.Real.Basic
import Mathlib.Order.Bounds.Basic
import VariableMetric.Objective.Formula
import VariableMetric.Proofs.Functions
import VariableMetric.Proofs.Monotone
import VariableMetric.Proofs.Trace

/-!
# The evaluations of a run

What a result says of its evaluations can be checked from outside: it is how often the callables of
the objective were called, and it follows from what was reported.

* `make_of_callable`: a callable alone is a joint objective.
* `evaluations_counted`: **the counts of a result** are those of the calls, and those of the
  records.
-/

namespace VariableMetric

open Course

variable {σ ν : Type} {n : ℕ} [Solver Extended]

omit [Solver Extended] in
theorem make_of_callable {α : Type} {fg : Callable α ν} {o : Objective α ν}
    (h : (Subject.callable fg).toObjective = .ok o) : o.make = .joint false := by
  cases h
  rfl

/-- **The counts of a result.** Whatever the callables answer, a run that returns has asked for a
gradient at its start, once in every iteration, and once more where a search came to a shorter step;
its values alone are the trials of its searches, of which none has more than `K`, when the power `K`
of the factor is the first that is not above the limit. And so often were the callables called. -/
theorem evaluations_counted [Reading ν Extended] {p : Partners σ Extended ν}
    {subject : σ → Subject Extended ν} {o : σ → Objective Extended ν} {m : Make}
    {s : Settings Extended} {b μ : ℝ} {K : ℕ} {x0 : Vec Extended n} {r : Result Extended n}
    {w w' : σ} (ho : ∀ v, (subject v).toObjective = .ok (o v)) (hm : ∀ v, (o v).make = m)
    (hb : s.backtrack = .finite b) (hμ : s.minStep = .finite μ) (hK : IsLeast {k | b ^ k ≤ μ} K)
    (h : (p.playBy o s x0).run.run w = (.ok r, w')) :
    ∃ (es : List (Event Extended)) (rs : List (Record Extended n)),
      (p.tracedPlayBy o s x0).run.run (w, []) = (.ok r, (w', es)) ∧
      es.filter Event.isReport = rs.map (.reported n) ∧
      r.njev = 1 + r.nit + rs.countP Record.searched ∧
      r.nfev = r.njev + (rs.map Record.backtracks).sum ∧
      r.nfev ≤ 1 + r.nit * (2 + K) ∧
      let calls := (es.filterMap Event.call?).count
      (m = .apart → calls .value = r.nfev ∧ calls .gradient = r.njev) ∧
      (m = .joint true → calls .joint = r.njev ∧ calls .value = r.nfev - r.njev) ∧
      (m = .joint false ∨ (∃ v fg, subject v = .callable fg) → calls .joint = r.nfev) := by
  obtain ⟨c, hc, -, hplay⟩ := play_writes p hm h
  obtain ⟨st, ending, ht, rfl⟩ := tallied_of_minimize hc
  have hlow : Scalar.lt s.minStep (scaleAfter s.backtrack K) = false := by
    rw [hb, scaleAfter_finite, hμ, Extended.finite_lt]
    exact decide_eq_false (not_lt.2 hK.1)
  have hnfev : (st.result ending).nfev = (asked c).1 + (asked c).2 := ht.nfev_eq
  have hnjev : (st.result ending).njev = (asked c).2 := ht.njev_eq
  refine ⟨_, records c, hplay, reports_events m _ c, ht.gradients_eq, ht.values_eq,
    ht.nfev_le K hlow, ?_⟩
  dsimp only
  simp only [count_calls_events, hnfev, hnjev]
  refine ⟨?_, ?_, ?_⟩
  · rintro rfl
    simp [Make.valueCalls, Make.gradientCalls]
  · rintro rfl
    simp [Make.valueCalls, Make.gradientCalls]
  · intro hjoint
    have hmake : m = .joint false := by
      rcases hjoint with hmake | ⟨v, fg, hfg⟩
      · exact hmake
      · rw [← hm v]
        exact make_of_callable (hfg ▸ ho v)
    subst hmake
    simp [Make.valueCalls, Make.gradientCalls]

omit [Solver Extended] in
/-- The partners with the objective that is dented play its run. -/
theorem dentedOracle_play :
    letI := solveIdentity
    let p := dentedOracle.partners fun _ => false
    ∃ w' r, (p.playBy (fun _ => p.objective) oneSearch #v[.finite 0]).run.run 0 = (.ok r, w') ∧
      r.nit = 1 ∧ r.nfev = 4 ∧ r.njev = 3 := by
  let := solveIdentity
  intro p
  obtain ⟨c, r, hrun, -, hcounts⟩ := dentedOracle_run
  have hplay := Oracle.conduct_partners dentedOracle (fun _ => false)
    (minimize oneSearch #v[.finite 0]) []
  have hout : ((minimize oneSearch #v[.finite 0]).hold
    (dentedOracle.answer fun _ => false) []).2 = .ok r := congrArg Prod.snd hrun
  rw [hout] at hplay
  exact ⟨_, r, hplay, hcounts⟩

omit [Solver Extended] in
/-- Where one trial is accepted, there are three gradients and one value alone. -/
theorem evaluations_counted_dented :
    letI := solveIdentity
    let p := dentedOracle.partners fun _ => false
    ∃ w' r es, oneSearch.backtrack = .finite (1 / 2) ∧ oneSearch.minStep = .finite (1 / 4) ∧
      IsLeast {k | (1 / 2 : ℝ) ^ k ≤ 1 / 4} 2 ∧
      (p.playBy (fun _ => p.objective) oneSearch #v[.finite 0]).run.run 0 = (.ok r, w') ∧
      (p.tracedPlayBy (fun _ => p.objective) oneSearch #v[.finite 0]).run.run (0, []) =
        (.ok r, (w', es)) ∧
      r.nfev ≤ 1 + r.nit * (2 + 2) ∧
      (es.filterMap Event.call?).count .joint = 3 ∧ (es.filterMap Event.call?).count .value = 1 := by
  let := solveIdentity
  intro p
  have hK : IsLeast {k | (1 / 2 : ℝ) ^ k ≤ 1 / 4} 2 := by
    constructor
    · norm_num
    · intro k hk
      by_contra hlt
      have hlt2 : k < 2 := Nat.lt_of_not_le hlt
      interval_cases k <;> norm_num at hk
  obtain ⟨w', r, hplay, -, hnfev, hnjev⟩ := dentedOracle_play
  have hsubject : (Subject.objective p.objective).toObjective = .ok p.objective := rfl
  obtain ⟨es, rs, htraced, -, -, -, hle, -, hjoint, -⟩ :=
    evaluations_counted (p := p) (fun _ => hsubject) (fun _ => rfl) rfl rfl hK hplay
  obtain ⟨h3, h1⟩ := hjoint rfl
  rw [hnjev] at h3
  rw [hnfev, hnjev] at h1
  exact ⟨w', r, es, rfl, rfl, hK, hplay, htraced, hle, h3, h1⟩

end VariableMetric
