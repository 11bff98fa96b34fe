import VariableMetric.Proofs.Evaluations

/-!
# What stops a run

Tolerances, the iteration limit and the caller decide where a run on a deterministic objective ends,
and nothing else: wherever it goes on, it goes on in the same way.

* `Place`, `Onward`: where a run is, and **the place that comes next**, which nothing that stops a
  run has a say in (`Onward.unique`).
* `AtHead.trail`: the accepted points of a run are a chain of such places.
* `accepted_comparable`: of two runs, one goes on where the other ended.
* `AtHead.limited`: a run comes to its heads whatever its limit is.
* `stopping_controls`: what the means of stopping a run change, and what they do not.
-/

namespace VariableMetric

open Course

/-- Two chains that begin alike and can go on in one way only: one is a prefix of the other. -/
theorem prefix_or_prefix_of_isChain {β : Type} {R R' : β → β → Prop}
    (hR : ∀ a b b', R a b → R' a b' → b = b') {a : β} {bs bs' : List β}
    (h : (a :: bs).IsChain R) (h' : (a :: bs').IsChain R') :
    a :: bs <+: a :: bs' ∨ a :: bs' <+: a :: bs := by
  induction bs generalizing a bs' with
  | nil => exact .inl (List.cons_prefix_cons.2 ⟨rfl, List.nil_prefix⟩)
  | cons b bs ih =>
    cases bs' with
    | nil => exact .inr (List.cons_prefix_cons.2 ⟨rfl, List.nil_prefix⟩)
    | cons b' bs' =>
      obtain ⟨hab, hbs⟩ := List.isChain_cons_cons.1 h
      obtain ⟨hab', hbs'⟩ := List.isChain_cons_cons.1 h'
      obtain rfl := hR _ _ _ hab hab'
      simp only [List.cons_prefix_cons (a := a), true_and]
      exact ih hbs hbs'

section Deterministic

variable {α : Type} {n : ℕ}

/-- Where a run is: what its steps depend on, apart from what it is told. -/
structure Place (α : Type) (n : ℕ) where
  x : Vec α n
  value : α
  gradient : Vec α n
  hessian : Mat α n n

/-- The place of a state. -/
def State.place (st : State α n) : Place α n := ⟨st.x, st.value, st.gradient, st.hessian⟩

/-- The point of a place with the gradient there. -/
def Place.point (P : Place α n) : Vec α n × Vec α n := (P.x, P.gradient)

variable [Scalar α]

/-- Settings that agree in what decides the steps. -/
structure Settings.SameSteps (s s' : Settings α) : Prop where
  backtrack_eq : s.backtrack = s'.backtrack
  minStep_eq : s.minStep = s'.minStep
  curvatureTol_eq : s.curvatureTol = s'.curvatureTol
  ridge_eq : s.ridge = s'.ridge

namespace Place

/-- The place of the starting point. -/
def start (o : Oracle α n) (x0 : Vec α n) : Place α n :=
  ⟨x0, (o.jet x0).1, (o.jet x0).2, Mat.identity n⟩

/-- The place after going on to an accepted point. -/
def moved (s : Settings α) (o : Oracle α n) (P : Place α n) (x : Vec α n) : Place α n where
  x := x
  value := (o.jet x).1
  gradient := (o.jet x).2
  hessian := (secantUpdate P.hessian (x - P.x) ((o.jet x).2 - P.gradient) s.curvatureTol).matrix

/-- The search from a place along a direction. -/
def ray (s : Settings α) (P : Place α n) (d : Vec α n) : Ray α n :=
  ⟨P.x, d, P.value, s.backtrack, s.minStep⟩

end Place

/-- **The place that comes next**, if one does: that of the full step, or else that of the first
trial to be a decrease. -/
inductive Onward [Solver α] (s : Settings α) (o : Oracle α n) (P : Place α n) : Place α n → Prop
  | full {p : Vec α n} (hp : (solveRidged P.hessian P.gradient s.ridge).solution = some p)
      (hlt : Scalar.lt (o.jet (P.x + -p)).1 P.value = true) : Onward s o P (P.moved s o (P.x + -p))
  | shrunk {p : Vec α n} {vs : List α}
      (hp : (solveRidged P.hessian P.gradient s.ridge).solution = some p)
      (hlt : Scalar.lt (o.jet (P.x + -p)).1 P.value = false)
      (hset : (P.ray s (-p)).Settles 0 (o.jet (P.x + -p)).1 vs)
      (ho : ∀ q ∈ (P.ray s (-p)).trials 0 vs, q.By o) :
      Onward s o P (P.moved s o ((P.ray s (-p)).trialPoint vs.length))

/-- A search on a deterministic objective is settled by it. -/
theorem Ray.Settles.unique {r : Ray α n} {o : Oracle α n} {k : ℕ} {v : α} {vs vs' : List α}
    (h : r.Settles k v vs) (h' : r.Settles k v vs') (ho : ∀ q ∈ r.trials k vs, q.By o)
    (ho' : ∀ q ∈ r.trials k vs', q.By o) : vs = vs' := by
  induction vs generalizing k v vs' with
  | nil =>
    cases vs' with
    | nil => rfl
    | cons w vs' =>
      -- one search would go on where the other is settled
      change r.settled (r.trialAt k v) = true at h
      rw [h'.1] at h
      cases h
  | cons w vs ih =>
    cases vs' with
    | nil =>
      change r.settled (r.trialAt k v) = true at h'
      rw [h.1] at h'
      cases h'
    | cons w' vs' =>
      obtain ⟨hw, hrest⟩ := List.forall_mem_cons.1 ho
      obtain ⟨hw', hrest'⟩ := List.forall_mem_cons.1 ho'
      obtain rfl : w = w' := Eq.trans hw (Eq.symm hw')
      rw [ih h.2 h'.2 hrest hrest']

variable [Solver α] {s s' : Settings α} {o : Oracle α n} {x0 : Vec α n} {c c' : Course α n}
  {st st' : State α n} {e : Option Ending}

/-- **There is only one place to go on to**, whatever the tolerances and the limit are. -/
theorem Onward.unique {P Q Q' : Place α n} (hs : s.SameSteps s') (h : Onward s o P Q)
    (h' : Onward s' o P Q') : Q = Q' := by
  have hmoved (x : Vec α n) : P.moved s' o x = P.moved s o x := by
    simp only [Place.moved, hs.curvatureTol_eq]
  have hray (d : Vec α n) : P.ray s' d = P.ray s d := by
    simp only [Place.ray, hs.backtrack_eq, hs.minStep_eq]
  have hridge := hs.ridge_eq
  cases h with
  | @full p hp hlt =>
    cases h' with
    | @full p' hp' hlt' =>
      rw [← hridge, hp] at hp'
      cases hp'
      exact (hmoved _).symm
    | @shrunk p' vs' hp' hlt' hset' ho' =>
      rw [← hridge, hp] at hp'
      cases hp'
      rw [hlt] at hlt'
      cases hlt'
  | @shrunk p vs hp hlt hset ho =>
    cases h' with
    | @full p' hp' hlt' =>
      rw [← hridge, hp] at hp'
      cases hp'
      rw [hlt] at hlt'
      cases hlt'
    | @shrunk p' vs' hp' hlt' hset' ho' =>
      rw [← hridge, hp] at hp'
      cases hp'
      rw [hray] at hset' ho' ⊢
      rw [hmoved, hset.unique hset' ho ho']

variable [Scalar.Ordered α]

/-- **An iteration goes on or stays**, on a deterministic objective. -/
theorem Passage.onward (h : Passage s st c st' e) (ho : ∀ q ∈ c, q.By o) :
    (Onward s o st.place st'.place ∧
      ∀ c₀, accepted (c₀ ++ ⟨.stop, false⟩ :: c) = accepted c₀ ++ [st'.place.point]) ∨
    (st'.place = st.place ∧ ∀ c₀, accepted (c₀ ++ ⟨.stop, false⟩ :: c) = accepted c₀) := by
  cases h with
  | @full d g v c st' e hd hlt hst hc he =>
    obtain ⟨p, hp, rfl⟩ := hd
    have hvg : (v, g) = o.jet (st.x + -p) :=
      ho ⟨.gradient (st.x + -p), (v, g)⟩ (by simp [hc, opening])
    have hv : v = (o.jet (st.x + -p)).1 := congrArg Prod.fst hvg
    have hg : g = (o.jet (st.x + -p)).2 := congrArg Prod.snd hvg
    subst hst hc hv hg
    refine .inl ⟨.full hp hlt, fun c₀ => ?_⟩
    rw [opening, List.append_assoc]
    exact accepted_next_moving (records_ridging ..) Scalar.Ordered.zero_lt_one c₀
  | @shrunk d g x g' v a v' vs c st' e hd hlt hlarge hset hlen ha hx hacc hst hc he =>
    obtain ⟨p, hp, rfl⟩ := hd
    have hv : v = (o.jet (st.x + -p)).1 :=
      congrArg Prod.fst (ho ⟨.gradient (st.x + -p), (v, g)⟩ (by simp [hc, opening]))
    have hvg : (v', g') = o.jet x := ho ⟨.gradient x, (v', g')⟩ (by simp [hc])
    have hv' : v' = (o.jet x).1 := congrArg Prod.fst hvg
    have hg' : g' = (o.jet x).2 := congrArg Prod.snd hvg
    have htrials : ∀ q ∈ (st.place.ray s (-p)).trials 0 vs, q.By o := by
      intro q hq
      refine ho q ?_
      rw [hc]
      exact List.mem_append_left _ (List.mem_append_right _ hq)
    subst hst hc hx hv hv' hg'
    exact .inl ⟨.shrunk hp hlt hset htrials, accepted_next_moving (records_searching _ vs) hacc⟩
  | still h =>
    obtain ⟨values, gradients, k, hst, -, hacc⟩ := h.stays
    refine .inr ⟨?_, hacc⟩
    rw [hst]
    rfl

/-- **The accepted points of a run** are those of a chain of places, each the next one. -/
theorem AtHead.trail (h : AtHead s x0 c st e) (ho : ∀ q ∈ c, q.By o) :
    ∃ Ps, (Place.start o x0 :: Ps).IsChain (Onward s o) ∧
      (Place.start o x0 :: Ps).getLast? = some st.place ∧
      accepted c = (Place.start o x0 :: Ps).map Place.point := by
  induction h with
  | @start v g hfin =>
    have hvg : (v, g) = o.jet x0 := ho ⟨.gradient x0, (v, g)⟩ (by simp [starting])
    have hv : v = (o.jet x0).1 := congrArg Prod.fst hvg
    have hg : g = (o.jet x0).2 := congrArg Prod.snd hvg
    subst hv hg
    exact ⟨[], .singleton _, rfl, rfl⟩
  | @next c c' st st' e _ _ hi ih =>
    rw [List.forall_mem_append, List.forall_mem_cons] at ho
    obtain ⟨Ps, hchain, hlast, hacc⟩ := ih ho.1
    rcases (passage_of_iterate hi).onward ho.2.2 with ⟨hon, hnext⟩ | ⟨hplace, hnext⟩
    · refine ⟨Ps ++ [st'.place], ?_, ?_, ?_⟩
      · rw [← List.cons_append]
        refine hchain.append (.singleton _) ?_
        intro P hP Q hQ
        rw [hlast] at hP
        cases hP
        cases hQ
        exact hon
      · rw [← List.cons_append, List.getLast?_concat]
      · rw [hnext, hacc, ← List.cons_append, List.map_append]
        rfl
    · exact ⟨Ps, hchain, hplace ▸ hlast, (hnext c).trans hacc⟩

/-- **Of two runs on a deterministic objective**, one goes on where the other ended, when they agree
in what decides the steps. -/
theorem accepted_comparable (hs : s.SameSteps s') {e' : Option Ending}
    (h : AtHead s x0 c st e) (ho : ∀ q ∈ c, q.By o) (h' : AtHead s' x0 c' st' e')
    (ho' : ∀ q ∈ c', q.By o) : accepted c <+: accepted c' ∨ accepted c' <+: accepted c := by
  obtain ⟨Ps, hchain, -, hacc⟩ := h.trail ho
  obtain ⟨Ps', hchain', -, hacc'⟩ := h'.trail ho'
  rw [hacc, hacc']
  have hnext (P Q Q' : Place α n) (hQ : Onward s o P Q) (hQ' : Onward s' o P Q') : Q = Q' :=
    hQ.unique hs hQ'
  rcases prefix_or_prefix_of_isChain hnext hchain hchain' with hpre | hpre
  · exact .inl (hpre.map _)
  · exact .inr (hpre.map _)

omit [Scalar.Ordered α] in
/-- **A run comes to its heads whatever its limit is**, as long as that lets it. -/
theorem AtHead.limited (h : AtHead s x0 c st e) {m : ℕ} (hm : st.nit ≤ m) :
    ∃ c', AtHead { s with maxiter := m } x0 c' st e ∧ records c' = records c ∧
      ((∀ q ∈ c, q.By o) → ∀ q ∈ c', q.By o) := by
  induction h with
  | @start v g hfin =>
    refine ⟨_, .start hfin, rfl, fun ho => ?_⟩
    have hvg : (v, g) = o.jet x0 := ho ⟨.gradient x0, (v, g)⟩ (by simp [starting])
    exact Oracle.by_starting hvg
  | @next c c₁ st st' e _ _ hi ih =>
    have hnit := (passage_of_iterate hi).nit_eq
    obtain ⟨c', hat, hrec, hby⟩ := ih (by omega)
    -- an iteration does not look at the limit
    refine ⟨_, hat.next (by change st.nit < m; omega) hi, ?_, fun ho => ?_⟩
    · rw [records_append, records_append, hrec]
    · rw [List.forall_mem_append] at ho ⊢
      exact ⟨hby ho.1, ho.2⟩

/-- **What the means of stopping a run change.** Two runs on a deterministic objective that agree in
what decides the steps accept the same points as long as both go on. A run that the caller stops
when asked for the `k`-th time is the run that has `k - 1` for its limit, but for its message. And
the caller is asked once for each iteration, and once more by a run that it stops. -/
theorem stopping_controls {stop stop' : ℕ → Bool} {r r' : Result α n} (hs : s.SameSteps s')
    (h : o.run stop s x0 = (c, .ok r)) (h' : o.run stop' s' x0 = (c', .ok r')) :
    (accepted c <+: accepted c' ∨ accepted c' <+: accepted c) ∧
    (s.history = true → s'.history = true →
      r.history <+: r'.history ∨ r'.history <+: r.history) ∧
    (∀ k, 1 ≤ k → polls c = List.replicate (k - 1) false ++ [true] →
      r.nit + 1 = k ∧ r.ending.message = "Stopped by caller." ∧
      ∃ c₁ r₁, o.run (fun _ => false) { s with maxiter := k - 1 } x0 = (c₁, .ok r₁) ∧
        records c₁ = records c ∧ r₁ = { r with ending := .iterationLimit } ∧
        r₁.ending.status = r.ending.status) ∧
    (polls c).length = if true ∈ polls c then r.nit + 1 else r.nit := by
  obtain ⟨hc, ho, -⟩ := Oracle.run_eq_ok_iff.1 h
  obtain ⟨hc', ho', -⟩ := Oracle.run_eq_ok_iff.1 h'
  obtain ⟨c₁, st, e, c₂, ending, hat, hleave, rfl, rfl⟩ := heads_of_minimize hc
  obtain ⟨c₁', st', e', c₂', ending', hat', hleave', rfl, rfl⟩ := heads_of_minimize hc'
  have ho₁ : ∀ q ∈ c₁, q.By o := fun q hq =>
    ho q (List.mem_append_left _ (List.mem_append_left _ hq))
  have ho₁' : ∀ q ∈ c₁', q.By o := fun q hq =>
    ho' q (List.mem_append_left _ (List.mem_append_left _ hq))
  have hcomp := accepted_comparable hs hat ho₁ hat' ho₁'
  have hpolls := hat.polls_returns hleave
  refine ⟨?_, ?_, ?_, ?_⟩
  · rw [hleave.told.2, hleave'.told.2]
    exact hcomp
  · intro hkeep hkeep'
    change st.history <+: st'.history ∨ st'.history <+: st.history
    rw [hat.told.history_eq, hat'.told.history_eq, if_pos hkeep, if_pos hkeep']
    exact hcomp.imp (·.map _) (·.map _)
  · intro k hk hstop
    rw [hpolls] at hstop
    by_cases hend : ending = .stoppedByCaller
    · subst hend
      rw [if_pos rfl] at hstop
      have hnit : st.nit = k - 1 := by
        have hlen := congrArg List.length hstop
        simpa using hlen
      have hnone : e = none := by
        cases hleave with
        | stopped => rfl
        | ended => exact absurd rfl hat.ne_stopped
      subst hnone
      obtain ⟨c₃, hat₃, hrec, hby⟩ := hat.limited (o := o) hnit.le
      have hlimit : Leaving { s with maxiter := k - 1 } st none [] .iterationLimit := .limit hnit
      refine ⟨by change st.nit + 1 = k; omega, rfl, _, st.result .iterationLimit,
        Oracle.run_eq_ok_iff.2 ⟨hat₃.returns hlimit, ?_, ?_⟩, ?_, rfl, rfl⟩
      · rw [List.append_nil, List.forall_mem_append]
        exact ⟨hby ho₁, by simp [finishing, Exchange.By]⟩
      · rw [hat₃.polls_returns hlimit, if_neg (by decide), List.append_nil, List.length_replicate,
          List.map_const', List.length_range]
      · rw [hlimit.told.1, hleave.told.1, hrec]
    · rw [if_neg hend, List.append_nil] at hstop
      have htrue : true ∈ List.replicate st.nit false := by
        rw [hstop]
        exact List.mem_append_right _ (List.mem_singleton_self _)
      cases List.eq_of_mem_replicate htrue
  · rw [hpolls]
    by_cases hend : ending = .stoppedByCaller
    · simp [hend, State.result]
    · simp [hend, State.result]

end Deterministic

/-- **Runs of partners are runs on their objective**, if that is deterministic: whatever observers
and the callback do, and however the caller comes to stop the run. -/
theorem exists_run_of_playBy {α σ ν : Type} [Elementary α] [Solver α] [Reading ν α] {n : ℕ}
    {p : Partners σ α ν} {objective : σ → Objective α ν} {o : Oracle α n} {s : Settings α}
    {x0 : Vec α n} {r : Result α n} {w w' : σ}
    (hvalue : ∀ v (x : Vec α n) a v',
      ((objective v).measure p.note x).run.run v = (.ok a, v') → a = o.value x)
    (hjet : ∀ v (x : Vec α n) a v',
      ((objective v).measureBoth p.note x).run.run v = (.ok a, v') → a = o.jet x)
    (h : (p.playBy objective s x0).run.run w = (.ok r, w')) :
    ∃ stop c, o.run stop s x0 = (c, .ok r) := by
  obtain ⟨c, hc, hall⟩ := Dialogue.exists_course h
  refine ⟨fun k => (polls c).getD k false, c, Oracle.run_eq_ok_iff.2 ⟨hc, ?_, ?_⟩⟩
  · rintro ⟨q, a⟩ hq
    obtain ⟨v, v', hv⟩ := hall _ hq
    cases q with
    | value x => exact hvalue v x a v' hv
    | gradient x => exact hjet v x a v' hv
    | stop | remark | record | finish => trivial
  · refine List.ext_getElem (by simp) fun k hk hk' => ?_
    simp [hk]

/-- The caller stops the first run at once, and the second run comes to its limit. -/
theorem stopping_controls_dented :
    letI := solveIdentity
    let s : Settings Extended := { oneSearch with maxiter := 7, tolx := .finite 2 }
    ∃ c c' r r', s.SameSteps oneSearch ∧
      dentedOracle.run (fun _ => true) s #v[.finite 0] = (c, .ok r) ∧
      dentedOracle.run (fun _ => false) oneSearch #v[.finite 0] = (c', .ok r') ∧
      (accepted c <+: accepted c' ∨ accepted c' <+: accepted c) ∧
      ∃ c₁ r₁, dentedOracle.run (fun _ => false) { s with maxiter := 0 } #v[.finite 0] =
          (c₁, .ok r₁) ∧
        r₁ = { r with ending := .iterationLimit } ∧ (polls c).length = r.nit + 1 := by
  let := solveIdentity
  intro s
  let g : Vec Extended 1 := #v[.finite 1]
  let st : State Extended 1 := .start s #v[.finite 0] (.finite 1) g
  let c : Course Extended 1 :=
    starting s #v[.finite 0] (.finite 1) g ++ [⟨.stop, true⟩] ++ finishing st .stoppedByCaller
  have hjet : dentedOracle.jet #v[.finite 0] = (.finite 1, g) := by
    change (dented #v[.finite 0], g) = _
    rw [dented_eq, if_pos le_rfl]
  have hstart : AtHead s #v[.finite 0] (starting s #v[.finite 0] (.finite 1) g) st none :=
    .start (by simp [allFinite, Scalar.isFinite, g])
  have hstop : Leaving s st none [⟨.stop, true⟩] .stoppedByCaller := .stopped (by decide)
  have hpolls : polls c = [true] := hstart.polls_returns hstop
  have hrun : dentedOracle.run (fun _ => true) s #v[.finite 0] =
      (c, .ok (st.result .stoppedByCaller)) := by
    refine Oracle.run_eq_ok_iff.2 ⟨hstart.returns hstop, ?_, ?_⟩
    · simp [c, starting, finishing, Exchange.By, hjet]
    · rw [hpolls]
      rfl
  obtain ⟨c', r', hrun', -⟩ := dentedOracle_run
  have hs : s.SameSteps oneSearch := ⟨rfl, rfl, rfl, rfl⟩
  obtain ⟨hcomp, -, hone, hlen⟩ := stopping_controls hs hrun hrun'
  obtain ⟨-, -, c₁, r₁, hrun₁, -, hr₁, -⟩ := hone 1 le_rfl hpolls
  rw [hpolls, if_pos (List.mem_singleton_self _)] at hlen
  exact ⟨c, c', _, r', hs, hrun, hrun', hcomp, c₁, r₁, hrun₁, hr₁, hpolls ▸ hlen⟩

end VariableMetric
