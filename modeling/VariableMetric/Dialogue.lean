import VariableMetric.Fault

/-!
# Dialogues

A method that consults others while it runs is written as a dialogue: a tree of questions, each with
one continuation per answer. What the questions mean is decided by whoever conducts it.

* `Dialogue`: finished with a result, finished with a fault, or waiting for an answer.
* `Dialogue.conduct`: play a dialogue against someone who answers every question, keeping a state
  that survives a fault.
-/

namespace VariableMetric

/-- A computation of a `β` that asks questions `q : Q` and goes on with answers of type `A q`. -/
inductive Dialogue (Q : Type) (A : Q → Type) (β : Type) where
  /-- Finished with a result. -/
  | done (b : β)
  /-- Given up. -/
  | fail (f : Fault)
  /-- Waiting for the answer to `q`. -/
  | ask (q : Q) (next : A q → Dialogue Q A β)

/-- The answers of a partner who keeps a state of type `σ`; the state outlives a fault. -/
abbrev Talk (σ β : Type) := ExceptT Fault (StateM σ) β

/-- An outcome that leaves the state alone. -/
def Talk.ofExcept {σ β : Type} (r : Except Fault β) : Talk σ β := ExceptT.mk (pure r)

namespace Dialogue

variable {Q : Type} {A : Q → Type} {β γ σ : Type}

/-- Go on with `f` once a dialogue has its result. -/
def bind : Dialogue Q A β → (β → Dialogue Q A γ) → Dialogue Q A γ
  | .done b, f => f b
  | .fail e, _ => .fail e
  | .ask q next, f => .ask q fun a => bind (next a) f

instance : Monad (Dialogue Q A) where
  pure := .done
  bind := bind

/-- Play a dialogue against a partner. -/
def conduct (answer : (q : Q) → Talk σ (A q)) : Dialogue Q A β → Talk σ β
  | .done b => pure b
  | .fail e => throw e
  | .ask q next => do conduct answer (next (← answer q))

end Dialogue

end VariableMetric
