import Mathlib.Data.List.Basic
import Mathlib.Logic.Function.Iterate
import VariableMetric.Descent.Run
import VariableMetric.Proofs.Course

/-!
# The course of a search

A search along a ray asks for values at shorter and shorter steps. Its course is fixed by the values
that it is answered.

* `scaleAfter`, `Ray.scaleAt`, `Ray.trialPoint`: the step and the point of each trial.
* `Ray.trials`: the exchanges of a search that is answered a list of values.
* `Ray.Settles`: **when a search stops**. No trial but the last settles it, and the last does.
* `Ray.comes_search`: every search takes such a course, and comes to its last trial.
* `Ray.search_comes`: a search takes every such course, within its limit.
-/

namespace VariableMetric

/-- The course of a run. -/
abbrev Course (α : Type) (n : ℕ) := List (Exchange (Request α n) Request.Answer)

variable {α : Type} [Scalar α] {n : ℕ}

/-- A step of one that was shrunk `k` times by a factor. -/
def scaleAfter (factor : α) (k : ℕ) : α := (· * factor)^[k] 1

theorem scaleAfter_succ (factor : α) (k : ℕ) :
    scaleAfter factor (k + 1) = scaleAfter factor k * factor :=
  Function.iterate_succ_apply' _ _ _

namespace Ray

/-- The step of a trial: the factor, multiplied as often as the step was shrunk. -/
def scaleAt (r : Ray α n) (k : ℕ) : α := scaleAfter r.factor k

/-- The point of a trial; that of the full step is not scaled. -/
def trialPoint (r : Ray α n) (k : ℕ) : Vec α n :=
  if k = 0 then r.origin + r.direction else r.pointAt (r.scaleAt k)

theorem scaleAt_succ (r : Ray α n) (k : ℕ) : r.scaleAt (k + 1) = r.scaleAt k * r.factor :=
  scaleAfter_succ r.factor k

/-- The exchanges of the trials after trial `k`, answered the values listed. -/
def trials (r : Ray α n) (k : ℕ) : List α → Course α n
  | [] => []
  | v :: vs => ⟨.value (r.trialPoint (k + 1)), v⟩ :: r.trials (k + 1) vs

/-- Trial `k`, with a value there. -/
def trialAt (r : Ray α n) (k : ℕ) (v : α) : Trial α n := ⟨r.trialPoint k, v, r.scaleAt k, k⟩

/-- The step that a search comes to at trial `k` with value `v`: none, unless it is accepted. -/
def stepOf (r : Ray α n) (k : ℕ) (v : α) : α := if r.accepts v then r.scaleAt k else 0

/-- **The search stops** at the last of the values `v :: vs`, the first of which is that of trial
`k`, and not before. -/
def Settles (r : Ray α n) (k : ℕ) (v : α) : List α → Prop
  | [] => r.settled (r.trialAt k v) = true
  | v' :: vs => r.settled (r.trialAt k v) = false ∧ r.Settles (k + 1) v' vs

theorem mem_trials_getLast (r : Ray α n) (k : ℕ) {vs : List α} (hvs : vs ≠ []) :
    ⟨.value (r.trialPoint (k + vs.length)), vs.getLast hvs⟩ ∈ r.trials k vs := by
  induction vs generalizing k with
  | nil => exact absurd rfl hvs
  | cons v vs ih =>
    rw [trials, List.mem_cons]
    cases vs with
    | nil => exact .inl rfl
    | cons w ws =>
      right
      have h := ih (k + 1) (List.cons_ne_nil w ws)
      have hplace : k + (v :: w :: ws).length = k + 1 + (w :: ws).length := by
        rw [List.length_cons]
        omega
      rw [hplace]
      exact h

theorem shrink_of_settled (r : Ray α n) (limit : ℕ) {t : Trial α n} (h : r.settled t = true) :
    r.shrink Descent.value limit t = Dialogue.done (some t) := by
  unfold shrink
  exact if_pos h

theorem shrink_of_unsettled (r : Ray α n) (limit : ℕ) {t : Trial α n} (h : r.settled t = false) :
    r.shrink Descent.value (limit + 1) t =
      Dialogue.ask (.value (r.pointAt (t.scale * r.factor))) fun v =>
        r.shrink Descent.value limit
          ⟨r.pointAt (t.scale * r.factor), v, t.scale * r.factor, t.backtracks + 1⟩ := by
  conv_lhs => unfold shrink
  rw [if_neg (Bool.eq_false_iff.1 h)]
  rfl

theorem shrink_succ (r : Ray α n) (limit : ℕ) {k : ℕ} {v : α}
    (h : r.settled (r.trialAt k v) = false) :
    r.shrink Descent.value (limit + 1) (r.trialAt k v) =
      Dialogue.ask (.value (r.trialPoint (k + 1))) fun v' =>
        r.shrink Descent.value limit (r.trialAt (k + 1) v') := by
  rw [shrink_of_unsettled r limit h]
  change (Dialogue.ask (.value (r.pointAt (r.scaleAt k * r.factor))) fun v' =>
    r.shrink Descent.value limit
      ⟨r.pointAt (r.scaleAt k * r.factor), v', r.scaleAt k * r.factor, k + 1⟩) = _
  rw [← scaleAt_succ]
  rfl

/-- The shrinking takes the course of its values, and comes to the last trial. -/
theorem comes_shrink (r : Ray α n) {limit k : ℕ} {v : α} {c : Course α n} {t : Trial α n}
    (h : Dialogue.Comes (r.shrink Descent.value limit (r.trialAt k v)) c (.done (some t))) :
    ∃ vs, vs.length ≤ limit ∧ c = r.trials k vs ∧ r.Settles k v vs ∧
      t = r.trialAt (k + vs.length) ((v :: vs).getLast (by simp)) := by
  -- every trial that does not settle the search uses up one of the limit
  induction limit generalizing k v c with
  | zero =>
    by_cases hs : r.settled (r.trialAt k v) = true
    · rw [shrink_of_settled r 0 hs] at h
      obtain ⟨rfl, ht⟩ := Dialogue.comes_done h
      cases ht
      exact ⟨[], Nat.zero_le _, rfl, hs, rfl⟩
    · unfold shrink at h
      rw [if_neg hs] at h
      obtain ⟨-, ht⟩ := Dialogue.comes_done h
      cases ht
  | succ limit ih =>
    by_cases hs : r.settled (r.trialAt k v) = true
    · rw [shrink_of_settled r _ hs] at h
      obtain ⟨rfl, ht⟩ := Dialogue.comes_done h
      cases ht
      exact ⟨[], Nat.zero_le _, rfl, hs, rfl⟩
    · rw [shrink_succ r limit (Bool.eq_false_iff.2 hs)] at h
      obtain ⟨v', c', rfl, h'⟩ := Dialogue.comes_ask h
      obtain ⟨vs, hlen, rfl, hset, ht⟩ := ih h'
      refine ⟨v' :: vs, Nat.succ_le_succ hlen, rfl, ⟨Bool.eq_false_iff.2 hs, hset⟩, ?_⟩
      rw [ht, List.getLast_cons (List.cons_ne_nil v' vs), List.length_cons]
      congr 1
      omega

/-- The shrinking takes every course on which it settles within its limit. -/
theorem shrink_comes (r : Ray α n) {limit k : ℕ} {v : α} {vs : List α} (h : r.Settles k v vs)
    (hlen : vs.length ≤ limit) :
    Dialogue.Comes (r.shrink Descent.value limit (r.trialAt k v)) (r.trials k vs)
      (.done (some (r.trialAt (k + vs.length) ((v :: vs).getLast (by simp))))) := by
  induction vs generalizing k v limit with
  | nil =>
    rw [shrink_of_settled r limit h]
    exact .stay _
  | cons v' vs ih =>
    obtain ⟨hs, hrest⟩ := h
    obtain ⟨limit, rfl⟩ : ∃ l, limit = l + 1 := ⟨limit - 1, by rw [List.length_cons] at hlen; omega⟩
    rw [shrink_succ r limit hs, List.getLast_cons (List.cons_ne_nil v' vs), List.length_cons,
      show k + (vs.length + 1) = k + 1 + vs.length by omega]
    exact .ask (ih hrest (Nat.le_of_succ_le_succ hlen))

/-- What is left of a search when the value of the full step is known. -/
theorem search_eq (r : Ray α n) (v : α) (limit : ℕ) :
    r.search Descent.value (some v) limit =
      r.shrink Descent.value limit (r.trialAt 0 v) >>= fun t =>
        Dialogue.done (t.map (r.conclude 0)) := rfl

/-- **A search from a known full step** takes the course of its values, and comes to the last trial.
-/
theorem comes_search (r : Ray α n) {limit : ℕ} {v : α} {c : Course α n} {found : Searched α n}
    (h : Dialogue.Comes (r.search Descent.value (some v) limit) c (.done (some found))) :
    ∃ vs, vs.length ≤ limit ∧ c = r.trials 0 vs ∧ r.Settles 0 v vs ∧
      found = r.conclude 0 (r.trialAt vs.length ((v :: vs).getLast (by simp))) := by
  rw [search_eq] at h
  obtain ⟨t, c₁, c₂, rfl, h₁, h₂⟩ := Dialogue.comes_bind_done h
  obtain ⟨rfl, hfound⟩ := Dialogue.comes_done h₂
  cases t with
  | none => cases hfound
  | some t =>
    obtain ⟨vs, hlen, rfl, hset, rfl⟩ := r.comes_shrink h₁
    rw [Nat.zero_add] at hfound
    cases hfound
    exact ⟨vs, hlen, by simp, hset, rfl⟩

/-- A search takes every course on which it settles within its limit. -/
theorem search_comes (r : Ray α n) {limit : ℕ} {v : α} {vs : List α} (h : r.Settles 0 v vs)
    (hlen : vs.length ≤ limit) :
    Dialogue.Comes (r.search Descent.value (some v) limit) (r.trials 0 vs)
      (.done (some (r.conclude 0 (r.trialAt vs.length ((v :: vs).getLast (by simp)))))) := by
  have hs := (r.shrink_comes h hlen).bind fun t => Dialogue.done (t.map (r.conclude 0))
  rw [Nat.zero_add] at hs
  exact hs

end Ray

end VariableMetric
