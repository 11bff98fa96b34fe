import Mathlib.Data.List.Basic
import VariableMetric.Proofs.Fallible

/-!
# The course of a dialogue

Which questions a dialogue asks depends on the answers. A **course** lists both, in order, and what
is proved of every course holds whoever answers.

* `Dialogue.Comes`: a dialogue comes to another one by the exchanges listed.
* `Dialogue.comes_bind`: a course of two dialogues one after the other ends in the first of them, or
  is cut where the first has its result.
* `Dialogue.exists_course`: **every play that returns takes a course**, in which each answer is one
  that the partner gave.
* `Dialogue.Keeps`: nothing is asked, and nothing given up, but what is allowed.
-/

namespace VariableMetric

/-- A question, and the answer that it was given. -/
structure Exchange (Q : Type) (A : Q → Type) where
  question : Q
  answer : A question

namespace Dialogue

variable {Q : Type} {A : Q → Type} {β γ σ : Type}

/-- **The course of a dialogue.** `d` comes to `d'` by the exchanges listed. -/
inductive Comes : Dialogue Q A β → List (Exchange Q A) → Dialogue Q A β → Prop
  | stay (d : Dialogue Q A β) : Comes d [] d
  | ask {q : Q} {next : A q → Dialogue Q A β} {a : A q} {c : List (Exchange Q A)}
      {d : Dialogue Q A β} (h : Comes (next a) c d) : Comes (.ask q next) (⟨q, a⟩ :: c) d

@[simp] theorem done_bind (b : β) (f : β → Dialogue Q A γ) : (done b >>= f) = f b := rfl

@[simp] theorem fail_bind (e : Fault) (f : β → Dialogue Q A γ) : (fail e >>= f) = fail e := rfl

@[simp] theorem ask_bind (q : Q) (next : A q → Dialogue Q A β) (f : β → Dialogue Q A γ) :
    (ask q next >>= f) = ask q fun a => next a >>= f := rfl

theorem bind_assoc (d : Dialogue Q A β) (f : β → Dialogue Q A γ) (g : γ → Dialogue Q A σ) :
    (d >>= f) >>= g = d >>= fun b => f b >>= g := by
  induction d with
  | done b => rfl
  | fail e => rfl
  | ask q next ih => simp only [ask_bind, ih]

section Courses

variable {d d' : Dialogue Q A β} {c : List (Exchange Q A)} {b : β}

theorem comes_done (h : (done b).Comes c d) : c = [] ∧ d = done b := by
  cases h with
  | stay => exact ⟨rfl, rfl⟩

theorem comes_fail {e : Fault} (h : (fail e : Dialogue Q A β).Comes c d) :
    c = [] ∧ d = fail e := by
  cases h with
  | stay => exact ⟨rfl, rfl⟩

/-- A question that has come to a result was answered. -/
theorem comes_ask {q : Q} {next : A q → Dialogue Q A β} (h : (ask q next).Comes c (done b)) :
    ∃ a c', c = ⟨q, a⟩ :: c' ∧ (next a).Comes c' (done b) := by
  cases h with
  | ask h => exact ⟨_, _, rfl, h⟩

theorem Comes.trans {c' : List (Exchange Q A)} {e : Dialogue Q A β} (h : d.Comes c d')
    (h' : d'.Comes c' e) : d.Comes (c ++ c') e := by
  induction h with
  | stay d => exact h'
  | ask _ ih => exact .ask (ih h')

/-- What a dialogue comes to is what it comes to with more to follow. -/
theorem Comes.bind (h : d.Comes c d') (f : β → Dialogue Q A γ) : (d >>= f).Comes c (d' >>= f) := by
  induction h with
  | stay d => exact .stay _
  | ask _ ih => exact .ask ih

/-- **Two dialogues, one after the other.** Their course ends in the first, or is cut where the
first has its result. -/
theorem comes_bind {f : β → Dialogue Q A γ} {e : Dialogue Q A γ} (h : (d >>= f).Comes c e) :
    (∃ d', d.Comes c d' ∧ e = (d' >>= f)) ∨
      ∃ b c₁ c₂, c = c₁ ++ c₂ ∧ d.Comes c₁ (done b) ∧ (f b).Comes c₂ e := by
  induction d generalizing c with
  | done b => exact .inr ⟨b, [], c, rfl, .stay _, h⟩
  | fail e' =>
    obtain ⟨rfl, rfl⟩ := comes_fail h
    exact .inl ⟨fail e', .stay _, rfl⟩
  | ask q next ih =>
    rw [ask_bind] at h
    cases h with
    | stay => exact .inl ⟨ask q next, .stay _, rfl⟩
    | ask h =>
      rcases ih _ h with ⟨d', hd, he⟩ | ⟨b, c₁, c₂, rfl, h₁, h₂⟩
      · exact .inl ⟨d', .ask hd, he⟩
      · exact .inr ⟨b, _ :: c₁, c₂, rfl, .ask h₁, h₂⟩

/-- Two dialogues that have come to a result: the first has come to one on the way. -/
theorem comes_bind_done {f : β → Dialogue Q A γ} {r : γ} (h : (d >>= f).Comes c (done r)) :
    ∃ b c₁ c₂, c = c₁ ++ c₂ ∧ d.Comes c₁ (done b) ∧ (f b).Comes c₂ (done r) := by
  rcases comes_bind h with ⟨d', hd, he⟩ | h
  · cases d' with
    | done b => exact ⟨b, c, [], by simp, hd, he ▸ .stay _⟩
    | fail e => simp at he
    | ask q next => simp at he
  · exact h

/-- **Every play that returns takes a course**, in which each answer is one that the partner gave.
-/
theorem exists_course {answer : (q : Q) → Talk σ (A q)} {w w' : σ}
    (h : (d.conduct answer).run.run w = (.ok b, w')) :
    ∃ c, d.Comes c (done b) ∧
      ∀ e ∈ c, ∃ v v', (answer e.question).run.run v = (.ok e.answer, v') := by
  induction d generalizing w with
  | done b' =>
    have hb : b' = b := by cases h; rfl
    exact ⟨[], hb ▸ .stay _, by simp⟩
  | fail e => cases h
  | ask q next ih =>
    -- the partner answers, and the rest is played from the state that it leaves
    rw [conduct, Talk.run_bind] at h
    rcases hq : (answer q).run.run w with ⟨r, v⟩
    rw [hq] at h
    cases r with
    | error e => cases h
    | ok a =>
      obtain ⟨c, hc, hall⟩ := ih a h
      refine ⟨⟨q, a⟩ :: c, .ask hc, ?_⟩
      intro e he
      rcases List.mem_cons.1 he with rfl | he
      · exact ⟨w, v, hq⟩
      · exact hall e he

end Courses

/-- **Nothing but what is allowed**: every question that may be asked is among `ok`, every fault
among `bad`, and every result among `fine`, whatever the answers. -/
def Keeps (ok : Q → Prop) (bad : Fault → Prop) (fine : β → Prop) : Dialogue Q A β → Prop
  | done b => fine b
  | fail e => bad e
  | ask q next => ok q ∧ ∀ a, Keeps ok bad fine (next a)

section Keeping

variable {ok : Q → Prop} {bad : Fault → Prop} {fine : β → Prop} {d d' : Dialogue Q A β}

theorem Keeps.ask {q : Q} {next : A q → Dialogue Q A β} (hq : ok q)
    (h : ∀ a, (next a).Keeps ok bad fine) : (Dialogue.ask q next).Keeps ok bad fine := ⟨hq, h⟩

theorem Keeps.bind {f : β → Dialogue Q A γ} {fine' : γ → Prop} (h : d.Keeps ok bad fine)
    (hf : ∀ b, fine b → (f b).Keeps ok bad fine') : (d >>= f).Keeps ok bad fine' := by
  induction d with
  | done b => exact hf b h
  | fail e => exact h
  | ask q next ih => exact ⟨h.1, fun a => ih a (h.2 a)⟩

/-- **What is kept is kept on every course**, however far it goes. -/
theorem Keeps.comes {c : List (Exchange Q A)} (hc : d.Comes c d') (h : d.Keeps ok bad fine) :
    (∀ e ∈ c, ok e.question) ∧ d'.Keeps ok bad fine := by
  induction hc with
  | stay d => exact ⟨by simp, h⟩
  | ask _ ih =>
    obtain ⟨hall, hd⟩ := ih (h.2 _)
    refine ⟨?_, hd⟩
    intro e he
    rcases List.mem_cons.1 he with rfl | he
    · exact h.1
    · exact hall e he

end Keeping

end Dialogue

end VariableMetric
