import VariableMetric.Backtracking.Probe
import VariableMetric.Proofs.Monotone
import VariableMetric.Proofs.PlainSearch
import VariableMetric.Proofs.Projection

/-!
# The split search equals the plain one

* `Ray.search_projects`, `Probe.search_projects`: a search sees nothing of the state of those who
  answer it, if the notes that it takes never fail.
* `Probe.search_full`: a search that a caller asks for finds the same, with one call less, when it
  is handed the value of the full step.
* `split_search_eq_plain`: this, and that an iteration finds what a plain search finds.
-/

namespace VariableMetric

variable {σ κ : Type}

/-- A search is seen as the search with the answers that are seen. -/
theorem Ray.search_projects {α : Type} [Scalar α] {n : ℕ} {view : σ → κ} (r : Ray α n)
    {f : Vec α n → Talk σ α} {f' : Vec α n → Talk κ α} (h : ∀ x, Talk.Projects view (f x) (f' x))
    (full : Option α) (limit : ℕ) :
    Talk.Projects view (r.search f full limit) (r.search f' full limit) := by
  have hshrink (t : Trial α n) :
      Talk.Projects view (r.shrink f limit t) (r.shrink f' limit t) := by
    induction limit generalizing t with
    | zero =>
      unfold shrink
      split <;> exact .pure _
    | succ limit ih =>
      unfold shrink
      split
      · exact .pure _
      · exact (h _).bind fun v => ih _
  cases full with
  | none => exact (h _).bind fun v => (hshrink _).bind fun t => .pure _
  | some v => exact (Talk.Projects.pure v).bind fun v => (hshrink _).bind fun t => .pure _

namespace Probe

/-- The notes of a search never fail. -/
abbrev Noting (note : Shape → List Float → Talk σ Unit) : Prop :=
  ∀ shape xs w, ∃ w', (note shape xs).run.run w = (.ok (), w')

/-- Nothing is noted. -/
def unnoted (_ : Shape) (_ : List Float) : Talk Unit Unit := pure ()

/-- A search sees nothing of its notes. -/
theorem search_projects (p : Probe) {note : Shape → List Float → Talk σ Unit}
    (hnote : Noting note) :
    Talk.Projects (fun _ => ()) (p.search note) (p.search unnoted) := by
  have hnoted (shape : Shape) (xs : List Float) :
      Talk.Projects (fun _ => ()) (note shape xs) (unnoted shape xs) := by
    intro w
    obtain ⟨w', hw⟩ := hnote shape xs w
    rw [hw]
    rfl
  unfold search
  refine .bind (.ofExcept _) fun factor => .bind (.ofExcept _) fun minStep => ?_
  split
  · rename_i shape hshape
    have hanswer (x : Vec Float shape.cells) : Talk.Projects (fun _ => ())
        (do note shape x.toList; Talk.ofExcept ((p.f ⟨shape, x⟩).bind Datum.toFloat))
        (do unnoted shape x.toList; Talk.ofExcept ((p.f ⟨shape, x⟩).bind Datum.toFloat)) :=
      (hnoted shape _).bind fun _ => .ofExcept _
    refine .bind (.ofExcept _) fun full => ?_
    split
    · cases full with
      | none => exact (hanswer _).bind fun first => .ofExcept (.error _)
      | some v => exact (Talk.Projects.pure v).bind fun first => .ofExcept (.error _)
    · refine .bind (Ray.search_projects _ hanswer full trialLimit) fun found => ?_
      split
      · exact .pure _
      · exact .ofExcept (.error _)
  · exact .ofExcept (.error _)

end Probe

/-- What was found, with one more call. -/
def Probed.again (q : Probed) : Probed := ⟨q.shape, q.found.again⟩

namespace Probe

/-- The point of the full step, if the shapes agree. -/
def fullPoint? (p : Probe) : Option (NdArray Float) :=
  (broadcastShape? p.x.shape p.direction.shape).map fun (shape : Shape) =>
    let origin : Vec Float shape.cells := (p.x.stretch shape).entries
    let direction : Vec Float shape.cells := (p.direction.stretch shape).entries
    ⟨shape, origin + direction⟩

theorem readFull_eq {d : Datum} {v : Float} (h : d.toFloat = .ok v) :
    readFull d = .ok (some v) := by
  cases d with
  | nothing => cases h
  | _ =>
    change (do return some (← Datum.toFloat _)) = _
    rw [h]
    rfl

theorem readFull_of_error {d : Datum} {e : Fault} (h : d.toFloat = .error e) :
    d = .nothing ∨ readFull d = .error e := by
  cases d with
  | nothing => exact .inl rfl
  | _ =>
    right
    change (do return some (← Datum.toFloat _)) = _
    rw [h]
    rfl

theorem search_full {p : Probe} {d : Datum} (hp : p.full = .nothing)
    (hd : ∀ y, p.fullPoint? = some y → p.f y = .ok d) :
    p.search unnoted = Probed.again <$> search { p with full := d } unnoted := by
  simp only [search, map_bind]
  refine bind_congr fun factor => bind_congr fun minStep => ?_
  cases hshape : broadcastShape? p.x.shape p.direction.shape with
  | none => rfl
  | some shape =>
    dsimp only
    set origin : Vec Float shape.cells := (p.x.stretch shape).entries
    set direction : Vec Float shape.cells := (p.direction.stretch shape).entries
    set f : Vec Float shape.cells → Talk Unit Float := fun x => do
      unnoted shape x.toList
      Talk.ofExcept ((p.f ⟨shape, x⟩).bind Datum.toFloat)
    have hpoint : p.f ⟨shape, origin + direction⟩ = .ok d := by
      refine hd _ ?_
      rw [fullPoint?, hshape]
      rfl
    have hf : f (origin + direction) = Talk.ofExcept d.toFloat := by
      change (do unnoted shape _; Talk.ofExcept (Except.bind _ _)) = _
      rw [hpoint]
      rfl
    rw [hp]
    cases hv : d.toFloat with
    | error e =>
      -- without the value the search fails where it asks for it, with it where that is read
      rw [hv] at hf
      set rest : Option Float → Talk Unit Probed := fun full => _ with hrest
      change rest none = Probed.again <$> (Talk.ofExcept (readFull d) >>= rest)
      have hfail : rest none = Talk.ofExcept (.error e) := by
        rw [hrest]
        cases p.value.number? with
        | none =>
          change (f (origin + direction) >>= fun first => _) = _
          rw [hf]
          rfl
        | some value =>
          change ((f (origin + direction) >>= fun v => _) >>= fun found => _) = _
          rw [hf]
          rfl
      rcases readFull_of_error hv with rfl | hd
      · change rest none = Probed.again <$> rest none
        rw [hfail]
        rfl
      · rw [hfail, hd]
        rfl
    | ok v =>
      rw [hv] at hf
      rw [readFull_eq hv]
      cases p.value.number? with
      | none =>
        change (f (origin + direction) >>= fun first => _) = _
        rw [hf]
        rfl
      | some value =>
        let ray : Ray Float shape.cells := ⟨origin, direction, value.ceiling, factor, minStep⟩
        have hsearch : ray.search f none trialLimit =
            Option.map Searched.again <$> ray.search f (some v) trialLimit := Ray.search_full hf _
        change (ray.search f none trialLimit >>= fun found => _) =
          Probed.again <$> (ray.search f (some v) trialLimit >>= fun found => _)
        rw [hsearch, bind_map_left, map_bind]
        refine bind_congr fun found => ?_
        cases found <;> rfl

/-- **A search that a caller asks for** finds the same, with one call less, when it is handed the
value of the full step; and it fails alike. -/
theorem search_handed {p : Probe} {d : Datum} {note : Shape → List Float → Talk σ Unit}
    (hp : p.full = .nothing) (hd : ∀ y, p.fullPoint? = some y → p.f y = .ok d) (hnote : Noting note)
    (w w' : σ) :
    ((p.search note).run.run w).1 =
      ((search { p with full := d } note).run.run w').1.map Probed.again := by
  have hplain : ((p.search unnoted).run.run ()).1 = ((p.search note).run.run w).1 :=
    congrArg Prod.fst (search_projects p hnote w)
  have hhanded : ((search { p with full := d } unnoted).run.run ()).1 =
      ((search { p with full := d } note).run.run w').1 :=
    congrArg Prod.fst (search_projects { p with full := d } hnote w')
  rw [← hplain, ← hhanded, search_full hp hd, Talk.run_map]

end Probe

open Course

variable {α : Type} [Scalar α] {n : ℕ}

/-- **A stationary step**: it changes little, and decreases nothing. -/
def State.Rests (s : Settings α) (o : Oracle α n) (st : State α n) (d : Vec α n) : Prop :=
  Scalar.lt (o.value (st.x + d)) st.value = false ∧
    withinTolerance s (o.value (st.x + d) - st.value) d = true

/-- **The split search equals the plain one.** On every deterministic objective whose two modes
agree, an iteration whose full step is not stationary comes to what one plain search along its
direction finds: the same point and value, by the same step and as many backtracks, or the same
failure. And every search that a caller asks for finds the same, or fails alike, when it is handed
the value of the full step, with one call less. -/
theorem split_search_eq_plain [Solver α] [Scalar.Ordered α] :
    (∀ (s : Settings α) (o : Oracle α n) (st : State α n) (d : Vec α n) (stop : ℕ → Bool)
        (past : Course α n), (∀ x, (o.jet x).1 = o.value x) → st.Leads s d → ¬ st.Rests s o d →
      Finds s o st ((st.ray s d).plain o.value s.trialLimit)
        ((iterate s st).hold (o.answer stop) past)) ∧
    ∀ (p : Probe) (full : Datum) (note : Shape → List Float → Talk σ Unit) (w w' : σ),
      p.full = .nothing → (∀ y, p.fullPoint? = some y → p.f y = .ok full) → Probe.Noting note →
      ((p.search note).run.run w).1 =
        ((Probe.search { p with full := full } note).run.run w').1.map Probed.again := by
  refine ⟨?_, fun p full note w w' hp hfull hnote => Probe.search_handed hp hfull hnote w w'⟩
  intro s o st d stop past ho hd hmove
  refine iterate_finds ho hd (fun hlt => ?_) stop past
  by_contra hsmall
  exact hmove ⟨hlt, Bool.not_eq_false _ ▸ hsmall⟩

/-- The plain search from the start of the run that is dented finds the half step. -/
theorem dentedRay_plain :
    dentedRay.plain dented oneSearch.trialLimit =
      some (dentedRay.conclude 1 (dentedRay.trialAt 1 (.finite 0))) := by
  have hfull : dented (dentedRay.trialPoint 0) = .nan := dented_full
  rw [Ray.plain_eq, hfull]
  change Option.map _ (dentedRay.last dented (8 + 1) (dentedRay.trialAt 0 .nan)) = _
  rw [Ray.last_succ _ _ dentedRay_unsettled, dented_half, Ray.last_of_settled _ _ dentedRay_settled]
  rfl

/-- An iteration past a point where nothing is defined, and a search on doubles. -/
theorem split_search_eq_plain_dented :
    letI := solveIdentity
    let f : Callable Float Datum := fun x => .ok (.float (dot x.entries x.entries))
    let p : Probe :=
      ⟨f, .ofVec (n := 1) #v[1], .ofVec (n := 1) #v[-2], .float 1, .float 0.5, .float 0.25,
        .nothing⟩
    let full : Vec Float 1 := #v[1] + #v[-2]
    Finds oneSearch dentedOracle dentedStart
        (some (dentedRay.conclude 1 (dentedRay.trialAt 1 (.finite 0))))
        ((iterate oneSearch dentedStart).hold (dentedOracle.answer fun _ => false) []) ∧
      ((p.search Probe.unnoted).run.run ()).1 =
        ((Probe.search { p with full := .float (dot full full) } Probe.unnoted).run.run ()).1.map
          Probed.again := by
  let := solveIdentity
  intro f p full
  have hrests : ¬ dentedStart.Rests oneSearch dentedOracle dentedRay.direction := by
    rintro ⟨-, hsmall⟩
    change withinTolerance oneSearch (dented (dentedStart.x + dentedRay.direction) - _) _ = true
      at hsmall
    rw [dented_full] at hsmall
    simp [withinTolerance] at hsmall
  obtain ⟨hiteration, hprobe⟩ := split_search_eq_plain (α := Extended) (n := 1) (σ := Unit)
  refine ⟨?_, ?_⟩
  · have hfinds := hiteration oneSearch dentedOracle dentedStart dentedRay.direction
      (fun _ => false) [] (fun _ => rfl) ⟨_, rfl, rfl⟩ hrests
    change Finds _ _ _ (dentedRay.plain dented oneSearch.trialLimit) _ at hfinds
    rw [dentedRay_plain] at hfinds
    exact hfinds
  · refine hprobe p _ Probe.unnoted () () rfl ?_ fun _ _ _ => ⟨(), rfl⟩
    intro y hy
    cases hy
    rfl

end VariableMetric
