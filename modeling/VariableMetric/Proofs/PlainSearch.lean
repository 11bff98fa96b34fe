import VariableMetric.Proofs.Oracle

/-!
# Plain searches and the iterations that split them

A plain search asks for the value of the full step as for any other. An iteration asks for it with
the gradient, searches on only where it is no decrease, and asks for the gradient at the point that
it finds.

* `Ray.search_full`: a search that knows the value of the full step finds the same with one call
  less, whoever answers it.
* `Ray.last`, `Ray.plain`: the last trial of a search on the values of a function, and what the
  plain search there comes to.
* `Finds`: **an iteration comes to what a search found**, or fails as the search does.
* `iterate_finds`: on a deterministic objective every iteration that is not stationary comes to what
  the plain search finds; `iterate_rests`: a stationary one stays.
-/

namespace VariableMetric

open Course

namespace Dialogue

variable {Q : Type} {A : Q → Type} {β : Type}

/-- **A dialogue that has come so far** goes on from there. -/
theorem hold_comes {answer : List (Exchange Q A) → (q : Q) → A q} {d d' : Dialogue Q A β}
    {past c : List (Exchange Q A)} (h : d.Comes c d') (ha : Answered answer past c) :
    d.hold answer past =
      (c ++ (d'.hold answer (past ++ c)).1, (d'.hold answer (past ++ c)).2) := by
  induction h generalizing past with
  | stay d => rw [List.append_nil, List.nil_append]
  | @ask q next a c d' _ ih =>
    obtain ⟨hq, hrest⟩ := ha
    change a = answer past q at hq
    subst hq
    rw [hold, ih hrest, List.append_assoc]
    rfl

end Dialogue

variable {α : Type} [Scalar α] {n : ℕ}

/-- The same found with one more call. -/
def Searched.again (t : Searched α n) : Searched α n := { t with nfev := t.nfev + 1 }

namespace Ray

variable {r : Ray α n}

/-- **A search that knows the value of the full step** finds the same with one call less. -/
theorem search_full {m : Type → Type} [Monad m] [LawfulMonad m] {f : Vec α n → m α} {v : α}
    (h : f (r.origin + r.direction) = pure v) (limit : ℕ) :
    r.search f none limit = Option.map Searched.again <$> r.search f (some v) limit := by
  have hagain (t : Trial α n) : r.conclude 1 t = (r.conclude 0 t).again := by
    simp only [conclude, Searched.again, Searched.mk.injEq, true_and]
    omega
  unfold search
  simp only [h, pure_bind, map_bind, map_pure, Option.isSome, Option.map_map, Bool.false_eq_true,
    if_false, if_true]
  refine bind_congr fun t => ?_
  cases t with
  | none => rfl
  | some t => exact congrArg (fun s => pure (some s)) (hagain t)

/-- **The last trial** of a search on the values of a function, from trial `t` on. -/
def last (r : Ray α n) (f : Vec α n → α) (limit : ℕ) (t : Trial α n) : Option (Trial α n) :=
  Id.run (r.shrink f limit t)

/-- **The plain search** on the values of a function. -/
def plain (r : Ray α n) (f : Vec α n → α) (limit : ℕ) : Option (Searched α n) :=
  Id.run (r.search f none limit)

theorem plain_eq (f : Vec α n → α) (limit : ℕ) :
    r.plain f limit =
      (r.last f limit (r.trialAt 0 (f (r.trialPoint 0)))).map (r.conclude 1) := rfl

/-- A trial whose step is not above the limit settles a search. -/
theorem settled_of_low {t : Trial α n} (h : Scalar.lt r.minStep t.scale = false) :
    r.settled t = true := by
  rw [settled, h, Bool.not_false, Bool.or_true]

/-- A trial whose step is above it does not, unless its value is accepted. -/
theorem unsettled_of_above {t : Trial α n} (hv : r.accepts t.value = false)
    (h : Scalar.lt r.minStep t.scale = true) : r.settled t = false := by
  rw [settled, hv, h, Bool.not_true, Bool.or_false]

/-- A search on the values of a function, from a full step that may be known. -/
theorem run_search (f : Vec α n → α) (full : Option α) (limit : ℕ) :
    Id.run (r.search f full limit) =
      (r.last f limit (r.trialAt 0 (full.getD (f (r.trialPoint 0))))).map
        (r.conclude (if full.isSome then 0 else 1)) := by
  cases full <;> rfl

theorem last_of_settled (f : Vec α n → α) (limit : ℕ) {t : Trial α n} (h : r.settled t = true) :
    r.last f limit t = some t := by
  unfold last shrink
  exact congrArg Id.run (if_pos h)

theorem last_zero (f : Vec α n → α) {t : Trial α n} (h : r.settled t = false) :
    r.last f 0 t = none := by
  unfold last shrink
  exact congrArg Id.run (if_neg (Bool.eq_false_iff.1 h))

/-- A trial that does not settle a search is followed by the next. -/
theorem last_succ (f : Vec α n → α) (limit : ℕ) {k : ℕ} {v : α}
    (h : r.settled (r.trialAt k v) = false) :
    r.last f (limit + 1) (r.trialAt k v) =
      r.last f limit (r.trialAt (k + 1) (f (r.trialPoint (k + 1)))) := by
  have hscale : r.scaleAt k * r.factor = r.scaleAt (k + 1) := (r.scaleAt_succ k).symm
  conv_lhs => unfold last shrink
  rw [if_neg (Bool.eq_false_iff.1 h)]
  change r.last f limit ⟨r.pointAt (r.scaleAt k * r.factor), f (r.pointAt (r.scaleAt k * r.factor)),
    r.scaleAt k * r.factor, k + 1⟩ = _
  rw [hscale]
  rfl

/-- **A search on a deterministic objective** comes to the last trial on its values. -/
theorem shrink_answered (r : Ray α n) (o : Oracle α n) (limit k : ℕ) (v : α) :
    ∃ c : Course α n, Dialogue.Comes (r.shrink Descent.value limit (r.trialAt k v)) c
        (.done (r.last o.value limit (r.trialAt k v))) ∧
      (∀ q ∈ c, q.By o) ∧ ∀ q ∈ c, q.question.Inner := by
  induction limit generalizing k v with
  | zero =>
    cases hs : r.settled (r.trialAt k v) with
    | true =>
      rw [shrink_of_settled r 0 hs, last_of_settled _ 0 hs]
      exact ⟨[], .stay _, List.forall_mem_nil _, List.forall_mem_nil _⟩
    | false =>
      have hnone : r.shrink Descent.value 0 (r.trialAt k v) = Dialogue.done none := by
        unfold shrink
        exact if_neg (Bool.eq_false_iff.1 hs)
      rw [hnone, last_zero _ hs]
      exact ⟨[], .stay _, List.forall_mem_nil _, List.forall_mem_nil _⟩
  | succ limit ih =>
    cases hs : r.settled (r.trialAt k v) with
    | true =>
      rw [shrink_of_settled r _ hs, last_of_settled _ _ hs]
      exact ⟨[], .stay _, List.forall_mem_nil _, List.forall_mem_nil _⟩
    | false =>
      rw [shrink_succ r limit hs, last_succ _ limit hs]
      obtain ⟨c, hc, hby, hinner⟩ := ih (k + 1) (o.value (r.trialPoint (k + 1)))
      exact ⟨_, .ask hc, List.forall_mem_cons.2 ⟨rfl, hby⟩,
        List.forall_mem_cons.2 ⟨trivial, hinner⟩⟩

end Ray

omit [Scalar α] in
/-- The answers of a deterministic objective are those to be given within an iteration. -/
theorem Oracle.answered_of_inner {o : Oracle α n} {stop : ℕ → Bool} {past c : Course α n}
    (hby : ∀ q ∈ c, q.By o) (hinner : ∀ q ∈ c, q.question.Inner) :
    Dialogue.Answered (o.answer stop) past c := by
  refine answered_iff.2 ⟨hby, ?_⟩
  rw [polls_of_inner hinner]
  rfl

/-- **An iteration comes to what a search found**, from state `st`: it fails as the search does,
goes on to the point that was accepted, or stays where none was. -/
inductive Finds (s : Settings α) (o : Oracle α n) (st : State α n) :
    Option (Searched α n) → Course α n × Except Fault (State α n × Option Ending) → Prop
  /-- The search came to no end. -/
  | unfinished {c : Course α n} : Finds s o st none (c, .error .searchUnfinished)
  /-- A step was accepted. -/
  | accepted {t : Searched α n} {c : Course α n} {st' : State α n} {values gradients : ℕ}
      (hstep : t.success = true)
      (hst : st' = (st.begun.counted values gradients).moved s t.x t.value (o.jet t.x).2)
      (hrec : records c = [st.recordTo st' t.backtracks t.step]) :
      Finds s o st (some t) (c, .ok (st', movedEnding s st t.x t.value))
  /-- No step was. -/
  | rejected {t : Searched α n} {c : Course α n} {st' : State α n} {values : ℕ}
      (hstep : t.success = false) (hst : st' = st.begun.counted values 1)
      (hrec : records c = [st.recordTo st' t.backtracks 0]) :
      Finds s o st (some t) (c, .ok (st', some .stepUnderflow))

section Iterations

variable [Solver α] {s : Settings α} {o : Oracle α n} {st : State α n} {d : Vec α n}

/-- **An iteration that comes to an end** by the answers of a deterministic objective is the one on
it. -/
theorem Passage.held {c past : Course α n} {st' : State α n} {e : Option Ending}
    (h : Passage s st c st' e) (hby : ∀ q ∈ c, q.By o) (stop : ℕ → Bool) :
    (iterate s st).hold (o.answer stop) past = (c, .ok (st', e)) :=
  Dialogue.hold_eq_ok_iff.2 ⟨iterate_comes h, Oracle.answered_of_inner hby h.inner⟩

/-- **A stationary iteration** stays where it is. -/
theorem iterate_rests (hd : st.Leads s d) (hlt : Scalar.lt (o.jet (st.x + d)).1 st.value = false)
    (hsmall : withinTolerance s ((o.jet (st.x + d)).1 - st.value) d = true) (stop : ℕ → Bool)
    (past : Course α n) :
    ∃ c, (iterate s st).hold (o.answer stop) past =
      (c, .ok (st.begun.counted 0 1, some .converged)) := by
  have hpass : Passage s st _ (st.begun.counted 0 1) (some .converged) :=
    .still (.stationary (g := (o.jet (st.x + d)).2) hd hlt hsmall rfl rfl)
  refine ⟨_, hpass.held ?_ stop⟩
  rw [List.forall_mem_append, List.forall_mem_singleton]
  exact ⟨Oracle.by_opening rfl, trivial⟩

/-- An iteration whose search comes to no end fails. -/
theorem iterate_fails {v : α} {g : Vec α n} {c : Course α n} (hd : st.Leads s d)
    (hlt : Scalar.lt v st.value = false) (hlarge : withinTolerance s (v - st.value) d = false)
    (h : Dialogue.Comes
      ((st.ray s d).shrink Descent.value s.trialLimit ((st.ray s d).trialAt 0 v)) c (.done none)) :
    Dialogue.Comes (iterate s st) (opening s st d v g ++ c) (.fail .searchUnfinished) := by
  have hafter : afterFull s (st.begun.counted 0 1) d v g =
      (st.ray s d).search Descent.value (some v) s.trialLimit >>=
        afterSearch s (st.begun.counted 0 1) := by
    unfold afterFull
    exact (if_neg (Bool.eq_false_iff.1 hlt)).trans (if_neg (Bool.eq_false_iff.1 hlarge))
  refine (iterate_opens hd v g).trans ?_
  rw [hafter, Ray.search_eq]
  exact (h.bind _).bind _

variable [Scalar.Ordered α] (ho : ∀ x, (o.jet x).1 = o.value x) (hd : st.Leads s d)
include ho hd

/-- A full step that is a decrease is what the plain search finds. -/
theorem finds_full (hlt : Scalar.lt (o.value (st.x + d)) st.value = true) (stop : ℕ → Bool)
    (past : Course α n) :
    Finds s o st ((st.ray s d).plain o.value s.trialLimit)
      ((iterate s st).hold (o.answer stop) past) := by
  set v := o.value (st.x + d)
  set g := (o.jet (st.x + d)).2
  have hjet : (v, g) = o.jet (st.x + d) := Prod.ext (ho (st.x + d)).symm rfl
  have hsettled : (st.ray s d).settled ((st.ray s d).trialAt 0 v) = true :=
    Bool.or_eq_true_iff.2 (.inl hlt)
  have hplain : (st.ray s d).plain o.value s.trialLimit =
      some ((st.ray s d).conclude 1 ((st.ray s d).trialAt 0 v)) := by
    rw [Ray.plain_eq]
    exact congrArg (Option.map _) (Ray.last_of_settled _ _ hsettled)
  have hstep : ((st.ray s d).conclude 1 ((st.ray s d).trialAt 0 v)).step = 1 := if_pos hlt
  have hpass : Passage s st _ _ _ := .full (g := g) hd hlt rfl rfl rfl
  rw [hplain, hpass.held _ stop]
  · refine .accepted ?_ rfl ?_
    · rw [Searched.success, hstep]
      exact Scalar.Ordered.zero_lt_one
    · rw [records_append, records_opening, records_moving, hstep]
      rfl
  · rw [List.forall_mem_append]
    exact ⟨Oracle.by_opening hjet, Oracle.by_moving⟩

omit [Scalar.Ordered α] in
/-- A full step that is no decrease, and no end, is followed by the trials of the plain search. -/
theorem finds_shorter (hlt : Scalar.lt (o.value (st.x + d)) st.value = false)
    (hlarge : withinTolerance s (o.value (st.x + d) - st.value) d = false) (stop : ℕ → Bool)
    (past : Course α n) :
    Finds s o st ((st.ray s d).plain o.value s.trialLimit)
      ((iterate s st).hold (o.answer stop) past) := by
  set v := o.value (st.x + d)
  set g := (o.jet (st.x + d)).2
  have hjet : (v, g) = o.jet (st.x + d) := Prod.ext (ho (st.x + d)).symm rfl
  obtain ⟨c, hcomes, hby, hinner⟩ := (st.ray s d).shrink_answered o s.trialLimit 0 v
  have hsearching : ∀ q ∈ opening s st d v g ++ c, q.By o := by
    rw [List.forall_mem_append]
    exact ⟨Oracle.by_opening hjet, hby⟩
  rw [Ray.plain_eq]
  change Finds s o st (((st.ray s d).last o.value s.trialLimit ((st.ray s d).trialAt 0 v)).map _) _
  cases hlast : (st.ray s d).last o.value s.trialLimit ((st.ray s d).trialAt 0 v) with
  | none =>
    rw [hlast] at hcomes
    rw [Dialogue.hold_comes (iterate_fails hd hlt hlarge hcomes)
      (Oracle.answered_of_inner hsearching (List.forall_mem_append.2 ⟨inner_opening, hinner⟩))]
    exact .unfinished
  | some t =>
    rw [hlast] at hcomes
    obtain ⟨vs, hlen, rfl, hset, rfl⟩ := (st.ray s d).comes_shrink hcomes
    rw [Nat.zero_add]
    set a := (v :: vs).getLast (by simp) with ha
    set x := (st.ray s d).trialPoint vs.length with hx
    have hax : a = o.value x := by
      cases vs with
      | nil => rfl
      | cons w ws =>
        have hmem := (st.ray s d).mem_trials_getLast 0 (List.cons_ne_nil w ws)
        rw [Nat.zero_add] at hmem
        rw [ha, List.getLast_cons (List.cons_ne_nil w ws)]
        exact hby _ hmem
    cases hacc : Scalar.lt 0 ((st.ray s d).stepOf vs.length a) with
    | true =>
      -- the value that is told with the gradient is the one that was found
      have hpass : Passage s st (opening s st d v g ++ (st.ray s d).trials 0 vs ++
          ⟨.gradient x, (a, (o.jet x).2)⟩ :: moving s (st.begun.counted vs.length 2) x a
            (o.jet x).2 vs.length ((st.ray s d).stepOf vs.length a))
          ((st.begun.counted vs.length 2).moved s x a (o.jet x).2) (movedEnding s st x a) :=
        .shrunk hd hlt hlarge hset hlen ha hx hacc rfl rfl rfl
      rw [hpass.held _ stop]
      · refine .accepted hacc rfl ?_
        rw [records_append, records_searching]
        exact records_moving
      · rw [List.forall_mem_append, List.forall_mem_cons]
        exact ⟨hsearching, Prod.ext (hax.trans (ho x).symm) rfl, Oracle.by_moving⟩
    | false =>
      have hpass : Passage s st _ (st.begun.counted vs.length 1) (some .stepUnderflow) :=
        .still (.underflow (g := g) hd hlt hlarge hset hlen hacc rfl rfl)
      rw [hpass.held _ stop]
      · refine .rejected hacc rfl ?_
        rw [records_append, records_searching]
        rfl
      · rw [List.forall_mem_append, List.forall_mem_cons, List.forall_mem_singleton]
        exact ⟨hsearching, trivial, trivial⟩

/-- **An iteration that is not stationary** comes to what the plain search finds, on a deterministic
objective whose two modes agree. -/
theorem iterate_finds
    (hmove : Scalar.lt (o.value (st.x + d)) st.value = false →
      withinTolerance s (o.value (st.x + d) - st.value) d = false)
    (stop : ℕ → Bool) (past : Course α n) :
    Finds s o st ((st.ray s d).plain o.value s.trialLimit)
      ((iterate s st).hold (o.answer stop) past) := by
  cases hlt : Scalar.lt (o.value (st.x + d)) st.value with
  | true => exact finds_full ho hd hlt stop past
  | false => exact finds_shorter ho hd hlt (hmove hlt) stop past

end Iterations

end VariableMetric
