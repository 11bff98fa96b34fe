import VariableMetric.Proofs.Course

/-!
# Talks seen through a view

Partners keep a state of which an onlooker may see only a part. Seen through a view of its state, a
talk may be the same as a simpler one.

* `Talk.Projects`: **one talk, seen through a view, is another one**: with the same outcome, and
  leaving what is seen as that one does.
* `Talk.Projects.bind`, `Dialogue.conduct_projects`: talks one after the other, and a whole
  dialogue, when each answer is seen so.
* `Talk.Yields`: seen through a view, a talk does nothing but come to a result.
* `Talk.Leaves`: what is seen stays as it is, whatever a talk comes to.
-/

namespace VariableMetric

variable {σ κ β γ : Type} {view : σ → κ}

/-- **Seen through a view** of its state, `t` is `t'`. -/
def Talk.Projects (view : σ → κ) (t : Talk σ β) (t' : Talk κ β) : Prop :=
  ∀ w, t'.run.run (view w) = ((t.run.run w).1, view (t.run.run w).2)

/-- Seen through a view, a talk comes to `b` and does nothing else. -/
abbrev Talk.Yields (view : σ → κ) (t : Talk σ β) (b : β) : Prop := Talk.Projects view t (pure b)

namespace Talk.Projects

variable {t : Talk σ β} {t' : Talk κ β}

/-- An outcome that leaves the state alone is seen as it is. -/
theorem ofExcept (r : Except Fault β) : Projects view (Talk.ofExcept r) (Talk.ofExcept r) :=
  fun _ => rfl

theorem pure (b : β) : Yields view (pure b) b := fun _ => rfl

/-- **Talks one after the other** are seen as those that they are seen as. -/
theorem bind {f : β → Talk σ γ} {f' : β → Talk κ γ} (h : Projects view t t')
    (hf : ∀ b, Projects view (f b) (f' b)) : Projects view (t >>= f) (t' >>= f') := by
  intro w
  rw [Talk.run_bind, Talk.run_bind, h w]
  rcases t.run.run w with ⟨r, v⟩
  cases r with
  | error e => rfl
  | ok b => exact hf b v

/-- A talk that yields a result is not seen, when more follows. -/
theorem yields_bind {f : β → Talk σ γ} {f' : Talk κ γ} {b : β} (h : Yields view t b)
    (hf : Projects view (f b) f') : Projects view (t >>= f) f' := by
  intro w
  have hw : ((t.run.run w).1, view (t.run.run w).2) = (.ok b, view w) := (h w).symm
  rw [Talk.run_bind]
  rcases hr : t.run.run w with ⟨r, v⟩
  rw [hr, Prod.mk.injEq] at hw
  obtain ⟨hok, hv⟩ := hw
  change r = .ok b at hok
  subst hok
  exact hv ▸ hf v

end Talk.Projects

/-- **What is seen of the state stays as it is**, whatever a talk comes to. -/
def Talk.Leaves (view : σ → κ) (t : Talk σ β) : Prop := ∀ w, view (t.run.run w).2 = view w

namespace Talk.Leaves

theorem ofExcept (r : Except Fault β) : Leaves view (Talk.ofExcept r) := fun _ => rfl

theorem pure (b : β) : Leaves view (pure b) := fun _ => rfl

theorem bind {t : Talk σ β} {f : β → Talk σ γ} (h : Leaves view t)
    (hf : ∀ b, Leaves view (f b)) : Leaves view (t >>= f) := by
  intro w
  have hw := h w
  rw [Talk.run_bind]
  rcases ht : t.run.run w with ⟨r, v⟩
  rw [ht] at hw
  cases r with
  | error e => exact hw
  | ok b => exact (hf b v).trans hw

end Talk.Leaves

variable {Q : Type} {A : Q → Type}

/-- **A whole dialogue** is seen as that with the answers that are seen, by induction over it. -/
theorem Dialogue.conduct_projects {answer : (q : Q) → Talk σ (A q)}
    {answer' : (q : Q) → Talk κ (A q)}
    (h : ∀ q, Talk.Projects view (answer q) (answer' q)) (d : Dialogue Q A β) :
    Talk.Projects view (d.conduct answer) (d.conduct answer') := by
  induction d with
  | done b => exact .pure b
  | fail e => exact .ofExcept (.error e)
  | ask q next ih => exact (h q).bind ih

end VariableMetric
