import Mathlib.Order.Bounds.Basic
import VariableMetric.Proofs.Monotone
import VariableMetric.Proofs.Pace

/-!
# The first decrease along a ray

A search in exact arithmetic, on a function whose values may be infinite or undefined, with every
call of the function on record.

* `noted`: the function, each call put on record.
* `Ray.shrink_noted`, `Ray.search_noted`: **a search calls the function once at each trial**, from
  the first that is not known to the one that settles it, and nowhere else.
* `Ray.exists_shortest`: the powers of the factor come down to any limit.
* `Ray.settled_eq_or`: what settles a search, up to there.
* `search_first_decrease`: **a search comes to the first trial that is a decrease**, or else fails
  at the first whose step is not above the limit.
-/

namespace VariableMetric

namespace Ray

section Noted

variable {α : Type} [Scalar α] {n : ℕ}

/-- A function, each call of it put on record. -/
def noted (f : Vec α n → α) (x : Vec α n) : StateM (List (Vec α n)) α := do
  modify (· ++ [x])
  return f x

variable (r : Ray α n) {f : Vec α n → α} {w : ℕ → α} {k m limit : ℕ}

/-- **The calls of the trials after trial `k`**: by induction on how many it takes to settle the
search. -/
theorem shrink_noted (hw : ∀ i, w (i + 1) = f (r.trialPoint (i + 1))) (log : List (Vec α n))
    (hopen : ∀ i < m, r.settled (r.trialAt (k + i) (w (k + i))) = false)
    (hset : r.settled (r.trialAt (k + m) (w (k + m))) = true) (hm : m ≤ limit) :
    (r.shrink (noted f) limit (r.trialAt k (w k))).run log =
      (some (r.trialAt (k + m) (w (k + m))),
        log ++ (List.range' (k + 1) m).map r.trialPoint) := by
  induction m generalizing k limit log with
  | zero =>
    unfold shrink
    rw [if_pos (show r.settled (r.trialAt k (w k)) = true from hset), List.range'_zero,
      List.map_nil, List.append_nil]
    rfl
  | succ m ih =>
    obtain ⟨limit, rfl⟩ : ∃ l, limit = l + 1 := ⟨limit - 1, by omega⟩
    have hfirst : r.settled (r.trialAt k (w k)) = false := hopen 0 (Nat.succ_pos m)
    have hnext : (r.shrink (noted f) (limit + 1) (r.trialAt k (w k))).run log =
        (r.shrink (noted f) limit (r.trialAt (k + 1) (w (k + 1)))).run
          (log ++ [r.trialPoint (k + 1)]) := by
      have hscale : r.scaleAt k * r.factor = r.scaleAt (k + 1) := (r.scaleAt_succ k).symm
      conv_lhs => unfold shrink
      rw [if_neg (Bool.eq_false_iff.1 hfirst), hw]
      change (r.shrink (noted f) limit
        ⟨r.pointAt (r.scaleAt k * r.factor), f (r.pointAt (r.scaleAt k * r.factor)),
          r.scaleAt k * r.factor, k + 1⟩).run (log ++ [r.pointAt (r.scaleAt k * r.factor)]) = _
      rw [hscale]
      rfl
    -- what is left of the search begins at the next trial
    have hplace (i : ℕ) : k + (i + 1) = k + 1 + i := by omega
    rw [hplace] at hset
    rw [hnext, ih _ (fun i hi => hplace i ▸ hopen (i + 1) (by omega)) hset (by omega), hplace m,
      List.range'_succ, List.map_cons, List.append_assoc, List.singleton_append]

/-- The first trial that a search calls the function at: the full step, unless its value is known.
-/
def firstAsked (full : Option α) : ℕ := if full.isSome then 1 else 0

/-- **A search calls the function at its trials**, one after the other, and counts the calls. -/
theorem search_noted (full : Option α) (hzero : w 0 = full.getD (f (r.trialPoint 0)))
    (hw : ∀ i, w (i + 1) = f (r.trialPoint (i + 1)))
    (hopen : ∀ i < m, r.settled (r.trialAt i (w i)) = false)
    (hset : r.settled (r.trialAt m (w m)) = true) (hm : m ≤ limit) :
    (r.search (noted f) full limit).run [] =
      (some (r.conclude (1 - firstAsked full) (r.trialAt m (w m))),
        (List.range' (firstAsked full) (m + 1 - firstAsked full)).map r.trialPoint) := by
  have hshrink (log : List (Vec α n)) :
      (r.shrink (noted f) limit (r.trialAt 0 (w 0))).run log =
        (some (r.trialAt m (w m)), log ++ (List.range' 1 m).map r.trialPoint) := by
    have h := r.shrink_noted (k := 0) hw log (fun i hi => by rw [Nat.zero_add]; exact hopen i hi)
      (by rw [Nat.zero_add]; exact hset) hm
    rw [Nat.zero_add] at h
    exact h
  cases full with
  | none =>
    have hv : w 0 = f (r.origin + r.direction) := hzero
    have hrun : (r.search (noted f) none limit).run [] =
        ((r.shrink (noted f) limit (r.trialAt 0 (w 0))).run [r.origin + r.direction]).map
          (Option.map (r.conclude 1)) id := by
      rw [hv]
      rfl
    have hall : List.range' 0 (m + 1) = 0 :: List.range' 1 m := List.range'_succ
    change _ = (some (r.conclude 1 (r.trialAt m (w m))), (List.range' 0 (m + 1)).map r.trialPoint)
    rw [hrun, hshrink, hall]
    rfl
  | some v =>
    have hv : w 0 = v := hzero
    have hrun : (r.search (noted f) (some v) limit).run [] =
        ((r.shrink (noted f) limit (r.trialAt 0 (w 0))).run []).map
          (Option.map (r.conclude 0)) id := by
      rw [hv]
      rfl
    rw [hrun, hshrink]
    rfl

end Noted

section Exact

variable {n : ℕ} (r : Ray Extended n) (b : ℝ)

/-- The point at the `k`-th power of the factor. -/
noncomputable def reach (k : ℕ) : Vec Extended n :=
  r.origin + Extended.finite (b ^ k) * r.direction

/-- **The value of each trial**: that of the full step is what is known of it, if it is known. -/
noncomputable def worth (f : Vec Extended n → Extended) (full : Option Extended) : ℕ → Extended
  | 0 => full.getD (f (r.origin + r.direction))
  | k + 1 => f (r.reach b (k + 1))

/-- **The points where the function is called** up to trial `k`. -/
noncomputable def asked (full : Option Extended) (k : ℕ) : List (Vec Extended n) :=
  match full with
  | none => (List.range (k + 1)).map (r.reach b)
  | some _ => (List.range' 1 k).map (r.reach b)

/-- The step of trial `K` is the first that is not above the limit. -/
def Shortest (K : ℕ) : Prop :=
  IsLeast {k | Scalar.le (Extended.finite (b ^ k)) r.minStep = true} K

end Exact

variable {n : ℕ} {r : Ray Extended n} {b : ℝ} {f : Vec Extended n → Extended}
  {full : Option Extended}

theorem trialPoint_eq_reach (hb : r.factor = .finite b) (k : ℕ) :
    r.trialPoint k = r.reach b k := by
  unfold trialPoint reach
  split
  · rename_i hk
    rw [hk, pow_zero]
    exact (congrArg (r.origin + ·) (Extended.one_mul_vec r.direction)).symm
  · rw [pointAt, scaleAt_eq hb]

theorem asked_eq (hb : r.factor = .finite b) (k : ℕ) :
    (List.range' (firstAsked full) (k + 1 - firstAsked full)).map r.trialPoint =
      r.asked b full k := by
  have hpoint : r.trialPoint = r.reach b := funext (trialPoint_eq_reach hb)
  rw [hpoint]
  cases full with
  | none =>
    change (List.range' 0 (k + 1)).map (r.reach b) = (List.range (k + 1)).map (r.reach b)
    rw [List.range_eq_range']
  | some v => rfl

theorem length_asked (k : ℕ) : (r.asked b full k).length = 1 - firstAsked full + k := by
  cases full with
  | none =>
    change ((List.range (k + 1)).map (r.reach b)).length = 1 + k
    rw [List.length_map, List.length_range, Nat.add_comm]
  | some v =>
    change ((List.range' 1 k).map (r.reach b)).length = 0 + k
    rw [List.length_map, List.length_range', Nat.zero_add]

/-- What is comparable with a limit is above it or not. -/
theorem not_lt_minStep (hμ : Scalar.lt 0 r.minStep = true) (a : ℝ) :
    (!Scalar.lt r.minStep (.finite a)) = Scalar.le (.finite a) r.minStep := by
  rcases hmin : r.minStep with μ | (_ | _) | _
  · rw [Extended.finite_lt, Extended.finite_le, ← decide_not]
    simp only [not_lt]
  · rw [Bool.eq_iff_iff, Bool.not_eq_true', ← Bool.not_eq_true, Extended.lt_iff, Extended.le_iff]
    simp [Extended.place]
  all_goals
    rw [hmin, Extended.lt_iff] at hμ
    simp [Extended.place] at hμ

/-- **The powers of the factor come down** to any limit above zero. -/
theorem exists_shortest (hlt : b < 1) (hμ : Scalar.lt 0 r.minStep = true) :
    ∃ K, r.Shortest b K := by
  have hsome : ∃ k, Scalar.le (Extended.finite (b ^ k)) r.minStep = true := by
    rcases hmin : r.minStep with μ | (_ | _) | _
    · rw [hmin, Extended.zero_eq, Extended.finite_lt, decide_eq_true_iff] at hμ
      obtain ⟨k, hk⟩ := exists_pow_lt_of_lt_one hμ hlt
      exact ⟨k, (Extended.finite_le _ _).trans (decide_eq_true hk.le)⟩
    · exact ⟨0, (Extended.le_iff _ _).2 ⟨_, rfl, _, rfl, le_top⟩⟩
    all_goals
      rw [hmin, Extended.lt_iff] at hμ
      simp [Extended.place] at hμ
  classical
  exact ⟨Nat.find hsome, Nat.find_spec hsome, fun k hk => Nat.find_min' hsome hk⟩

/-- A trial settles a search if it is a decrease or its step is not above the limit. -/
theorem settled_eq_or (hb : r.factor = .finite b) (hμ : Scalar.lt 0 r.minStep = true) (k : ℕ)
    (v : Extended) :
    r.settled (r.trialAt k v) =
      (Scalar.lt v r.value || Scalar.le (Extended.finite (b ^ k)) r.minStep) := by
  change (Scalar.lt v r.value || !Scalar.lt r.minStep (r.scaleAt k)) = _
  rw [scaleAt_eq hb, not_lt_minStep hμ]

/-- What a search comes to at trial `k`, with every call on record. -/
theorem search_at (hb : r.factor = .finite b) (hμ : Scalar.lt 0 r.minStep = true) {K k limit : ℕ}
    (hK : r.Shortest b K) (hlimit : K ≤ limit) (hk : k ≤ K)
    (hearlier : ∀ j < k, Scalar.lt (r.worth b f full j) r.value = false)
    (hlast : Scalar.lt (r.worth b f full k) r.value = true ∨ k = K) :
    (r.search (noted f) full limit).run [] =
      (some ⟨r.reach b k, r.worth b f full k, r.stepOf k (r.worth b f full k), k,
        (r.asked b full k).length⟩, r.asked b full k) := by
  have hzero : r.worth b f full 0 = full.getD (f (r.trialPoint 0)) := rfl
  have hnext (i : ℕ) : r.worth b f full (i + 1) = f (r.trialPoint (i + 1)) := by
    rw [trialPoint_eq_reach hb]
    rfl
  have hopen : ∀ i < k, r.settled (r.trialAt i (r.worth b f full i)) = false := by
    intro i hi
    -- a step above the limit, since `K` is the first that is not
    have habove : Scalar.le (Extended.finite (b ^ i)) r.minStep = false :=
      Bool.eq_false_iff.2 fun hle => absurd (hK.2 hle) (by omega)
    rw [settled_eq_or hb hμ, hearlier i hi, habove]
    rfl
  have hset : r.settled (r.trialAt k (r.worth b f full k)) = true := by
    rw [settled_eq_or hb hμ, Bool.or_eq_true_iff]
    refine hlast.imp_right ?_
    rintro rfl
    exact hK.1
  rw [r.search_noted full hzero hnext hopen hset (by omega), asked_eq hb, length_asked,
    ← trialPoint_eq_reach hb]
  rfl

theorem stepOf_of_lt (hb : r.factor = .finite b) {k : ℕ} {v : Extended}
    (h : Scalar.lt v r.value = true) : r.stepOf k v = .finite (b ^ k) := by
  rw [stepOf, accepts, if_pos h, scaleAt_eq hb]

theorem stepOf_of_not_lt {k : ℕ} {v : Extended} (h : Scalar.lt v r.value = false) :
    r.stepOf k v = 0 := if_neg (Bool.eq_false_iff.1 h)

/-- A step that was shrunk is longer than the factor times the limit. -/
theorem lt_power (hb : r.factor = .finite b) (hpos : 0 < b) {K k : ℕ} (hK : r.Shortest b K)
    (hμ : Scalar.lt 0 r.minStep = true) (hk : k ≤ K) (hk₁ : 1 ≤ k) :
    Scalar.lt (r.factor * r.minStep) (.finite (b ^ k)) = true := by
  obtain ⟨i, rfl⟩ : ∃ i, k = i + 1 := ⟨k - 1, by omega⟩
  -- the step before was above the limit
  have habove : Scalar.lt r.minStep (.finite (b ^ i)) = true := by
    by_contra hnot
    have hle : Scalar.le (Extended.finite (b ^ i)) r.minStep = true := by
      rw [← not_lt_minStep hμ, Bool.eq_false_iff.2 hnot]
      rfl
    exact absurd (hK.2 hle) (by omega)
  rcases hmin : r.minStep with μ | (_ | _) | _
  · rw [hmin, Extended.finite_lt, decide_eq_true_iff] at habove
    rw [hb, Extended.finite_mul, Extended.finite_lt, decide_eq_true_iff, pow_succ, mul_comm]
    exact mul_lt_mul_of_pos_right habove hpos
  · rw [hmin, Extended.lt_iff] at habove
    simp [Extended.place] at habove
  all_goals
    rw [hmin, Extended.lt_iff] at hμ
    simp [Extended.place] at hμ

end Ray

variable {n : ℕ} {r : Ray Extended n} {b : ℝ}

/-- **The first decrease.** In exact arithmetic the steps of a search come down to its limit, at a
first trial `K`. Whatever the function is, the search ends: it comes to the first trial up to there
that is a decrease, or else fails at trial `K`. It calls the function at its trials one after the
other, without the full step if the value there is known, and nowhere else. -/
theorem search_first_decrease (hb : r.factor = .finite b) (hpos : 0 < b) (hlt : b < 1)
    (hμ : Scalar.lt 0 r.minStep = true) (f : Vec Extended n → Extended) (full : Option Extended) :
    ∃ K, r.Shortest b K ∧ ∀ limit ≥ K,
      (∀ k, IsLeast {j | j ≤ K ∧ Scalar.lt (r.worth b f full j) r.value = true} k →
        ∃ t : Searched Extended n,
          (r.search (Ray.noted f) full limit).run [] = (some t, r.asked b full k) ∧
          t.step = .finite (b ^ k) ∧ t.x = r.origin + Extended.finite (b ^ k) * r.direction ∧
          t.value = r.worth b f full k ∧ t.backtracks = k ∧ t.success = true ∧
          t.nfev = (r.asked b full k).length ∧
          (1 ≤ k → Scalar.lt (r.factor * r.minStep) t.step = true)) ∧
      ((∀ j ≤ K, Scalar.lt (r.worth b f full j) r.value = false) →
        ∃ t : Searched Extended n,
          (r.search (Ray.noted f) full limit).run [] = (some t, r.asked b full K) ∧
          t.step = 0 ∧ t.x = r.origin + Extended.finite (b ^ K) * r.direction ∧
          t.value = r.worth b f full K ∧ t.backtracks = K ∧ t.success = false ∧
          t.nfev = (r.asked b full K).length) := by
  obtain ⟨K, hK⟩ := Ray.exists_shortest hlt hμ
  refine ⟨K, hK, fun limit hlimit => ⟨fun k hk => ?_, fun hnone => ?_⟩⟩
  · obtain ⟨⟨hkK, hdec⟩, hleast⟩ := hk
    have hearlier : ∀ j < k, Scalar.lt (r.worth b f full j) r.value = false := fun j hj =>
      Bool.eq_false_iff.2 fun hj' => absurd (hleast ⟨by omega, hj'⟩) (by omega)
    have hstep := Ray.stepOf_of_lt hb (k := k) hdec
    refine ⟨_, Ray.search_at hb hμ hK hlimit hkK hearlier (.inl hdec), hstep, rfl, rfl, rfl, ?_,
      rfl, fun hk₁ => ?_⟩
    · rw [Searched.success, hstep, Extended.zero_eq, Extended.finite_lt]
      exact decide_eq_true (pow_pos hpos k)
    · rw [hstep]
      exact Ray.lt_power hb hpos hK hμ hkK hk₁
  · have hstep := Ray.stepOf_of_not_lt (k := K) (hnone K le_rfl)
    refine ⟨_, Ray.search_at hb hμ hK hlimit le_rfl (fun j hj => hnone j hj.le) (.inr rfl), hstep,
      rfl, rfl, rfl, ?_, rfl⟩
    rw [Searched.success, hstep]
    exact Scalar.lt_irrefl _

/-- The search of a run whose full step leads to where nothing is defined finds the shorter step. -/
theorem search_first_decrease_dented :
    ∃ t : Searched Extended 1,
      (dentedRay.search (Ray.noted dented) none 2).run [] =
        (some t, [dentedRay.reach (1 / 2) 0, dentedRay.reach (1 / 2) 1]) ∧
      t.step = .finite (1 / 2) ∧ t.success = true ∧ t.nfev = 2 := by
  obtain ⟨K, hK, hsearch⟩ := search_first_decrease (r := dentedRay) (b := 1 / 2) rfl (by norm_num)
    (by norm_num) ((Extended.finite_lt 0 (1 / 4)).trans (by norm_num)) dented none
  have hlimit : K ≤ 2 := hK.2 ((Extended.finite_le _ (1 / 4)).trans (by norm_num))
  have hlong : 1 ≤ K := by
    by_contra hnot
    obtain rfl : K = 0 := by omega
    have hle : Scalar.le (Extended.finite ((1 / 2) ^ 0)) (.finite (1 / 4)) = true := hK.1
    rw [Extended.finite_le] at hle
    norm_num at hle
  have hfull : dentedRay.worth (1 / 2) dented none 0 = .nan := dented_full
  have hhalf : dentedRay.worth (1 / 2) dented none 1 = .finite 0 := by
    rw [← dented_half, Ray.trialPoint_eq_reach (b := 1 / 2) rfl]
    rfl
  have hleast : IsLeast {j | j ≤ K ∧
      Scalar.lt (dentedRay.worth (1 / 2) dented none j) dentedRay.value = true} 1 := by
    refine ⟨⟨hlong, hhalf ▸ dentedRay_accepts⟩, fun j hj => ?_⟩
    by_contra hnot
    obtain rfl : j = 0 := by omega
    have hdec := hj.2
    rw [hfull, Extended.nan_lt] at hdec
    cases hdec
  obtain ⟨t, hrun, hstep, -, -, -, hsuccess, hnfev, -⟩ := (hsearch 2 hlimit).1 1 hleast
  exact ⟨t, hrun, by rw [hstep, pow_one], hsuccess, hnfev⟩

end VariableMetric
