import VariableMetric.Dialogue

/-!
# Computations that can fail

What a computation of several parts comes to, read off what its parts come to, and back.

* `exists_of_bind_ok`, `exists_of_map_ok`, `eq_error_of_map`: **what a success, or a fault, says of
  the parts**.
* `Talk.run_bind`, `Talk.run_map`: the same computations with a state that outlives a fault.
* `Talk.exists_of_bind_ok`: what a success says there.
-/

namespace VariableMetric

variable {β γ σ : Type}

/-- Where two computations in a row succeed, so does the first. -/
theorem exists_of_bind_ok {x : Except Fault β} {f : β → Except Fault γ} {c : γ}
    (h : x >>= f = .ok c) : ∃ b, x = .ok b ∧ f b = .ok c := by
  cases x with
  | error e => cases h
  | ok b => exact ⟨b, rfl, h⟩

theorem exists_of_map_ok {x : Except Fault β} {f : β → γ} {c : γ} (h : x.map f = .ok c) :
    ∃ b, x = .ok b ∧ f b = c := by
  cases x with
  | error e => cases h
  | ok b => exact ⟨b, rfl, Except.ok.inj h⟩

theorem eq_error_of_map {x : Except Fault β} {f : β → γ} {e : Fault} (h : x.map f = .error e) :
    x = .error e := by
  cases x with
  | error e' => cases h; rfl
  | ok b => cases h

namespace Talk

/-- Two talks, one after the other. -/
theorem run_bind (t : Talk σ β) (f : β → Talk σ γ) (w : σ) :
    (t >>= f).run.run w =
      match t.run.run w with
      | (.ok a, v) => (f a).run.run v
      | (.error e, v) => (.error e, v) := by
  simp only [ExceptT.run_bind, StateT.run_bind]
  rcases t.run.run w with ⟨r, v⟩
  cases r <;> rfl

theorem run_map (f : β → γ) (t : Talk σ β) (w : σ) :
    ((f <$> t).run.run w).1 = (t.run.run w).1.map f := by
  change ((t >>= fun b => pure (f b)).run.run w).1 = _
  rw [run_bind]
  rcases t.run.run w with ⟨r, v⟩
  cases r <;> rfl

/-- Two talks that come to a result: the first has come to one. -/
theorem exists_of_bind_ok {t : Talk σ β} {f : β → Talk σ γ} {b : γ} {w v : σ}
    (h : (t >>= f).run.run w = (.ok b, v)) :
    ∃ a u, t.run.run w = (.ok a, u) ∧ (f a).run.run u = (.ok b, v) := by
  rw [run_bind] at h
  rcases ht : t.run.run w with ⟨r, u⟩
  rw [ht] at h
  cases r with
  | error e => cases h
  | ok a => exact ⟨a, u, rfl, h⟩

theorem of_ofExcept_ok {r : Except Fault β} {b : β} {w v : σ}
    (h : (Talk.ofExcept r : Talk σ β).run.run w = (.ok b, v)) : r = .ok b :=
  congrArg Prod.fst h

end Talk

end VariableMetric
