import VariableMetric.Backtracking.Probe
import VariableMetric.Options.Workshop
import VariableMetric.Proofs.Comparison
import VariableMetric.Proofs.Fallible
import VariableMetric.Proofs.Heads
import VariableMetric.Session

/-!
# Options are valid for ever

Options come from one check, whatever they are made of, and nothing changes them afterwards.

* `Number.IsFinite`, `Number.IsPositive`, `Number.IsNonnegative`: what the check says of a number.
* `Options.Valid`: **what holds of all options**, the default ones among them.
* `Draft.check_valid`, `Options.Valid.check_eq`: options that pass the check are valid, and valid
  options pass it unchanged.
* `Workshop.Grown`: all that a step can do to the options made before.
* `options_stay_valid`: **no step makes options that are not valid, or changes any**, and no search
  of a run refuses what it is told.
-/

namespace VariableMetric

namespace Number

variable {a : Number}

/-- Finite, as a double too: integers can be beyond all doubles. -/
def IsFinite (a : Number) : Prop := ∃ x, a.toFloat = .ok x ∧ x.isFinite = true

/-- Above zero. -/
def IsPositive : Number → Prop
  | .bool b => b = true
  | .int n | .sizedInt n => 0 < n
  | .float x | .sizedFloat x => Float.lt 0 x = true

/-- Zero or above. -/
def IsNonnegative : Number → Prop
  | .bool _ => True
  | .int n | .sizedInt n => 0 ≤ n
  | .float x | .sizedFloat x => Float.le 0 x = true

theorem zero_down : Binary.ofIntToward false 0 = 0 := by decide +kernel

theorem zero_up : Binary.ofIntToward true 0 = 0 := by decide +kernel

theorem zero_nearest : Binary.ofIntNearest 0 = 0 := by decide +kernel

/-- The comparison with zero, for each make of number. -/
theorem zero_lt_iff (a : Number) : (Number.int 0).lt a = true ↔ a.IsPositive := by
  cases a with
  | bool b =>
    cases b with
    | false => exact ⟨fun h => absurd h (by decide), fun h => Bool.noConfusion h⟩
    | true => exact ⟨fun _ => rfl, fun _ => by decide⟩
  | int n | sizedInt n => exact decide_eq_true_iff
  | float x =>
    change (Binary.ofIntToward false 0).lt x = true ↔ Float.lt 0 x = true
    rw [zero_down]
  | sizedFloat x =>
    change (Binary.ofIntNearest 0).lt x = true ↔ Float.lt 0 x = true
    rw [zero_nearest]

theorem isNonnegative_of_not_lt (ha : a.IsFinite) (h : a.lt (.int 0) = false) :
    a.IsNonnegative := by
  obtain ⟨y, hy, hfin⟩ := ha
  have hzero : (0 : Float).isFinite = true := by decide +kernel
  cases a with
  | bool b => trivial
  | int n | sizedInt n => exact not_lt.1 (of_decide_eq_false h)
  | float x =>
    cases hy
    change x.lt (Binary.ofIntToward true 0) = false at h
    rw [zero_up] at h
    exact Double.le_of_not_lt hzero hfin h
  | sizedFloat x =>
    cases hy
    change x.lt (Binary.ofIntNearest 0) = false at h
    rw [zero_nearest] at h
    exact Double.le_of_not_lt hzero hfin h

theorem not_lt_of_isNonnegative (h : a.IsNonnegative) : a.lt (.int 0) = false := by
  have hnot {x : Float} (hx : Float.le 0 x = true) : x.lt 0 = false := by
    by_contra hlt
    have hle : Scalar.le 0 x = false := (Scalar.Ordered.lt_iff.1 (Bool.not_eq_false _ ▸ hlt)).2
    exact Bool.false_ne_true (hle.symm.trans hx)
  cases a with
  | bool b => cases b <;> decide
  | int n | sizedInt n => exact decide_eq_false (not_lt.2 h)
  | float x =>
    change x.lt (Binary.ofIntToward true 0) = false
    rw [zero_up]
    exact hnot h
  | sizedFloat x =>
    change x.lt (Binary.ofIntNearest 0) = false
    rw [zero_nearest]
    exact hnot h

theorem number?_toDatum (a : Number) : a.toDatum.number? = some a := by cases a <;> rfl

end Number

/-- **What holds of all options.** -/
structure Options.Valid (o : Options) : Prop where
  maxiter : ∃ n : ℕ, (Draft.ofOptions o).maxiter = .int n
  display : o.display = .silent ∨ o.display = .final ∨ o.display = .iter
  tolx : o.tolx.IsFinite ∧ o.tolx.IsPositive
  tolfun : o.tolfun.IsFinite ∧ o.tolfun.IsPositive
  minStep : o.minStep.IsFinite ∧ o.minStep.IsPositive
  backtrack : Float.lt 0 o.backtrack = true ∧ Float.lt o.backtrack 1 = true
  curvatureTol : o.curvatureTol.IsFinite ∧ o.curvatureTol.IsNonnegative

/-- That the limit on iterations is a natural number, and the display a level, is in their types. -/
theorem Options.valid_of {o : Options} (htolx : o.tolx.IsFinite ∧ o.tolx.IsPositive)
    (htolfun : o.tolfun.IsFinite ∧ o.tolfun.IsPositive)
    (hminStep : o.minStep.IsFinite ∧ o.minStep.IsPositive)
    (hbacktrack : Float.lt 0 o.backtrack = true ∧ Float.lt o.backtrack 1 = true)
    (hcurvatureTol : o.curvatureTol.IsFinite ∧ o.curvatureTol.IsNonnegative) : o.Valid where
  maxiter := ⟨o.maxiter, rfl⟩
  display := by cases o.display <;> simp
  tolx := htolx
  tolfun := htolfun
  minStep := hminStep
  backtrack := hbacktrack
  curvatureTol := hcurvatureTol

namespace Draft

variable {d : Datum} {a : Number} {e : Fault}

/-- A count is an integer, and no truth value. -/
theorem checkCount_eq_ok_iff {n : ℕ} :
    checkCount d = .ok n ↔ d = .int n ∨ d = .sizedInt n := by
  constructor
  · intro h
    unfold checkCount at h
    split at h
    · split at h
      · cases h
      · cases h
        left
        congr
        omega
    · split at h
      · cases h
      · cases h
        right
        congr
        omega
    · cases h
  · rintro (rfl | rfl) <;> simp [checkCount]

theorem checkFinite_eq_ok_iff :
    checkFinite d e = .ok a ↔ d.number? = some a ∧ a.IsFinite := by
  unfold checkFinite Datum.real
  cases hd : d.number? with
  | none => exact ⟨fun h => (by cases h), fun h => (by cases h.1)⟩
  | some b =>
    constructor
    · intro h
      obtain ⟨x, hx, h⟩ := exists_of_bind_ok (x := b.toFloat) h
      split at h
      · rename_i hfin
        cases h
        exact ⟨rfl, x, hx, hfin⟩
      · cases h
    · rintro ⟨hb, x, hx, hfin⟩
      cases hb
      change (a.toFloat >>= fun x => if x.isFinite then pure a else throw e) = .ok a
      rw [hx]
      exact if_pos hfin

theorem checkPositive_eq_ok_iff {name : String} :
    checkPositive name d = .ok a ↔ d.number? = some a ∧ a.IsFinite ∧ a.IsPositive := by
  unfold checkPositive
  constructor
  · intro h
    obtain ⟨b, hb, h⟩ := exists_of_bind_ok h
    obtain ⟨hd, hfin⟩ := checkFinite_eq_ok_iff.1 hb
    split at h
    · rename_i hpos
      cases h
      exact ⟨hd, hfin, (Number.zero_lt_iff a).1 hpos⟩
    · cases h
  · rintro ⟨hd, hfin, hpos⟩
    rw [checkFinite_eq_ok_iff.2 ⟨hd, hfin⟩]
    exact if_pos ((Number.zero_lt_iff a).2 hpos)

theorem checkNonNegative_eq_ok_iff :
    checkNonNegative d = .ok a ↔ d.number? = some a ∧ a.IsFinite ∧ a.IsNonnegative := by
  unfold checkNonNegative
  constructor
  · intro h
    obtain ⟨b, hb, h⟩ := exists_of_bind_ok h
    obtain ⟨hd, hfin⟩ := checkFinite_eq_ok_iff.1 hb
    split at h
    · cases h
    · rename_i hnot
      cases h
      exact ⟨hd, hfin, Number.isNonnegative_of_not_lt hfin (Bool.eq_false_iff.2 hnot)⟩
  · rintro ⟨hd, hfin, hnonneg⟩
    rw [checkFinite_eq_ok_iff.2 ⟨hd, hfin⟩]
    exact if_neg (Bool.eq_false_iff.1 (Number.not_lt_of_isNonnegative hnonneg))

theorem fraction_of_checkFraction {y : Float} (h : checkFraction d = .ok y) :
    Float.lt 0 y = true ∧ Float.lt y 1 = true := by
  unfold checkFraction at h
  split at h
  · dsimp only at h
    split at h
    · rename_i hbounds
      cases h
      exact Bool.and_eq_true_iff.1 hbounds
    · cases h
  · cases h

theorem checkFraction_float {x : Float} (hpos : Float.lt 0 x = true) (hlt : Float.lt x 1 = true) :
    checkFraction (.float x) = .ok x := if_pos (Bool.and_eq_true_iff.2 ⟨hpos, hlt⟩)

/-- **What passes the check is valid.** -/
theorem check_valid {o : Draft} {options : Options} (h : o.check = .ok options) :
    options.Valid := by
  unfold check at h
  obtain ⟨maxiter, -, h⟩ := exists_of_bind_ok h
  obtain ⟨tolx, htolx, h⟩ := exists_of_bind_ok h
  obtain ⟨tolfun, htolfun, h⟩ := exists_of_bind_ok h
  obtain ⟨minStep, hminStep, h⟩ := exists_of_bind_ok h
  obtain ⟨backtrack, hbacktrack, h⟩ := exists_of_bind_ok h
  obtain ⟨curvatureTol, hcurvatureTol, h⟩ := exists_of_bind_ok h
  -- a level is a level already, any other value is read as one
  obtain ⟨display, rfl⟩ : ∃ display, options =
      { maxiter, tolx, tolfun, backtrack, display, minStep, curvatureTol } := by
    split at h
    · cases h
      exact ⟨_, rfl⟩
    · obtain ⟨display, -, h⟩ := exists_of_bind_ok h
      cases h
      exact ⟨display, rfl⟩
  exact Options.valid_of (checkPositive_eq_ok_iff.1 htolx).2 (checkPositive_eq_ok_iff.1 htolfun).2
    (checkPositive_eq_ok_iff.1 hminStep).2 (fraction_of_checkFraction hbacktrack)
    (checkNonNegative_eq_ok_iff.1 hcurvatureTol).2

end Draft

/-- **Valid options pass the check**, and come out of it as they are. -/
theorem Options.Valid.check_eq {o : Options} (h : o.Valid) :
    (Draft.ofOptions o).check = .ok o := by
  have hpositive (name : String) {a : Number} (ha : a.IsFinite ∧ a.IsPositive) :
      Draft.checkPositive name a.toDatum = .ok a :=
    Draft.checkPositive_eq_ok_iff.2 ⟨a.number?_toDatum, ha⟩
  unfold Draft.check
  simp only [Draft.ofOptions, Draft.checkCount_eq_ok_iff.2 (.inl rfl), hpositive _ h.tolx,
    hpositive _ h.tolfun, hpositive _ h.minStep,
    Draft.checkFraction_float h.backtrack.1 h.backtrack.2,
    Draft.checkNonNegative_eq_ok_iff.2 ⟨o.curvatureTol.number?_toDatum, h.curvatureTol⟩]
  rfl

namespace Options

/-- The default options are valid. -/
theorem default_valid : default.Valid :=
  valid_of ⟨⟨1e-6, rfl, by decide +kernel⟩, show Float.lt 0 1e-6 = true by decide +kernel⟩
    ⟨⟨1e-6, rfl, by decide +kernel⟩, show Float.lt 0 1e-6 = true by decide +kernel⟩
    ⟨⟨1e-12, rfl, by decide +kernel⟩, show Float.lt 0 1e-12 = true by decide +kernel⟩
    ⟨by decide +kernel, by decide +kernel⟩
    ⟨⟨1e-12, rfl, by decide +kernel⟩, show Float.le 0 1e-12 = true by decide +kernel⟩

theorem make_valid {values : List (String × Datum)} {o : Options} (h : make values = .ok o) :
    o.Valid := by
  unfold make at h
  obtain ⟨-, -, h⟩ := exists_of_bind_ok h
  exact Draft.check_valid h

end Options

/-- The base is no options that are not valid. -/
def Base.Valid : Base → Prop
  | .options o => o.Valid
  | _ => True

namespace Options

/-- What is left of `assemble` when it is known what to start from and what to set. -/
def complete (start : Options) (isBase : Bool) (entries : Entries) : Except Fault Assembled := do
  refuseUnknown entries
  if entries.isEmpty then return ⟨start, isBase⟩
  return ⟨← ((Draft.ofOptions start).setAll entries).check, false⟩

theorem complete_valid {start : Options} {isBase : Bool} {entries : Entries} {a : Assembled}
    (hstart : start.Valid) (h : complete start isBase entries = .ok a) :
    a.options.Valid ∧ (a.isBase = true → isBase = true ∧ a.options = start) := by
  unfold complete at h
  obtain ⟨-, -, h⟩ := exists_of_bind_ok h
  split at h
  · cases h
    exact ⟨hstart, fun hbase => ⟨hbase, rfl⟩⟩
  · obtain ⟨options, hcheck, h⟩ := exists_of_bind_ok h
    cases h
    exact ⟨Draft.check_valid hcheck, fun hbase => Bool.noConfusion hbase⟩

/-- **Options from a valid base are valid**, and they are those of the base if nothing is set. -/
theorem assemble_valid {base : Base} {overrides : List (String × Datum)} {a : Assembled}
    (hbase : base.Valid) (h : assemble base overrides = .ok a) :
    a.options.Valid ∧ (a.isBase = true → base = .options a.options) := by
  cases hname : overrides.any (·.1 == "base") with
  | true =>
    simp only [assemble, hname, if_true] at h
    cases h
  | false =>
    simp only [assemble, hname, Bool.false_eq_true, if_false] at h
    cases base with
    | nothing =>
      obtain ⟨hvalid, hstart⟩ := @complete_valid _ false _ _ default_valid h
      exact ⟨hvalid, fun hb => Bool.noConfusion (hstart hb).1⟩
    | options o =>
      obtain ⟨hvalid, hstart⟩ := @complete_valid _ true _ _ hbase h
      exact ⟨hvalid, fun hb => congrArg Base.options (hstart hb).2.symm⟩
    | value d =>
      obtain ⟨given, -, h⟩ := exists_of_bind_ok h
      obtain ⟨hvalid, hstart⟩ := @complete_valid _ false _ _ default_valid h
      exact ⟨hvalid, fun hb => Bool.noConfusion (hstart hb).1⟩

end Options

namespace Workshop

variable {w w' : Workshop}

/-- **All that a step can do** to what was made before: nothing. It adds valid options, or none. -/
structure Grown (w w' : Workshop) : Prop where
  objects : w.objects <+: w'.objects
  results : w.results <+: w'.results
  valid : (∀ o ∈ w.objects, o.Valid) → ∀ o ∈ w'.objects, o.Valid

theorem Grown.note (w : Workshop) (place : Option ℕ) : w.Grown (w.note place) :=
  ⟨List.prefix_refl _, List.prefix_append _ _, id⟩

theorem Grown.add (w : Workshop) {o : Options} (h : (∀ o ∈ w.objects, o.Valid) → o.Valid) :
    w.Grown (w.add o) := by
  refine ⟨List.prefix_append _ _, List.prefix_append _ _, fun hw => ?_⟩
  rw [Workshop.add, List.forall_mem_append, List.forall_mem_singleton]
  exact ⟨hw, h hw⟩

theorem Grown.trans {w'' : Workshop} (h : w.Grown w') (h' : w'.Grown w'') : w.Grown w'' :=
  ⟨h.objects.trans h'.objects, h.results.trans h'.results, h'.valid ∘ h.valid⟩

/-- What a step came to is among what was made. -/
theorem exists_place {step : ℕ} {o : Options} (h : w.object? step = some o) :
    ∃ place, w.results[step]? = some (some place) ∧ w.objects[place]? = some o := by
  obtain ⟨place, hstep, hplace⟩ := Option.bind_eq_some_iff.1 h
  exact ⟨place, Option.join_eq_some_iff.1 hstep, hplace⟩

/-- **What a step came to** stays as it is. -/
theorem Grown.object?_eq (h : w.Grown w') {step : ℕ} {o : Options}
    (ho : w.object? step = some o) : w'.object? step = some o := by
  have hkept {β : Type} {l l' : List β} (hl : l <+: l') {i : ℕ} {b : β} (hb : l[i]? = some b) :
      l'[i]? = some b := by
    obtain ⟨hi, rfl⟩ := List.getElem?_eq_some_iff.1 hb
    exact List.prefix_iff_getElem?.1 hl i hi
  obtain ⟨place, hstep, hplace⟩ := exists_place ho
  refine Option.bind_eq_some_iff.2 ⟨place, ?_, hkept h.objects hplace⟩
  exact Option.join_eq_some_iff.2 (hkept h.results hstep)

/-- What is handed over as a base is no options that are not valid. -/
theorem base_valid (h : ∀ o ∈ w.objects, o.Valid) (g : Given) : (w.base g).Valid := by
  cases g with
  | made step =>
    cases ho : w.object? step with
    | none =>
      simp only [base, ho, Option.elim_none]
      trivial
    | some o =>
      simp only [base, ho, Option.elim_some]
      obtain ⟨place, -, hplace⟩ := exists_place ho
      exact h o (List.mem_of_getElem? hplace)
  | datum d => cases d <;> trivial
  | list items => trivial
  | dictionary entries => trivial

/-- **One step.** -/
theorem perform_grown (w : Workshop) (step : OptionStep) : w.Grown (w.perform step).1 := by
  cases step with
  | make given =>
    cases h : Options.make (w.valueEntries given) with
    | ok o =>
      simp only [perform, h]
      exact .add w fun _ => Options.make_valid h
    | error e =>
      simp only [perform, h]
      exact .note w none
  | assemble g overrides =>
    cases h : Options.assemble (w.base g) (w.valueEntries overrides) with
    | ok a =>
      simp only [perform, h]
      split
      · exact .note w _
      · exact .add w fun hw => (Options.assemble_valid (base_valid hw g) h).1
    | error e =>
      simp only [perform, h]
      exact .note w none
  | assign step name given =>
    -- options refuse to be changed, and where there are none there is nothing to change
    have hnote : (w.perform (.assign step name given)).1 = w.note none := by
      simp only [perform]
      cases w.place? step with
      | none => rfl
      | some place => cases w.object? step <;> rfl
    rw [hnote]
    exact .note w none

/-- **Any steps**: by induction over them. -/
theorem run_grown (w : Workshop) (steps : List OptionStep) : w.Grown (w.run steps) := by
  induction steps generalizing w with
  | nil => exact ⟨List.prefix_refl _, List.prefix_refl _, id⟩
  | cons step steps ih => exact (w.perform_grown step).trans (ih _)

theorem run_append (w : Workshop) (before after : List OptionStep) :
    w.run (before ++ after) = (w.run before).run after := List.foldl_append

end Workshop

/-- **What the search of a run is told passes its checks**, and is what the options say. -/
theorem Options.Valid.search_checks {o : Options} (h : o.Valid) :
    Probe.checkFactor (.float o.backtrack) = .ok o.backtrack ∧
      Probe.checkMinStep o.minStep.toDatum = .ok o.minStep.floor := by
  constructor
  · exact if_pos (Bool.and_eq_true_iff.2 h.backtrack)
  · rw [Probe.checkMinStep, Number.number?_toDatum]
    exact if_pos (Bool.or_eq_true_iff.2 (.inr ((Number.zero_lt_iff _).2 h.minStep.2)))

/-- A run that is prepared has read its objective, its options and its starting point. -/
theorem Setup.of_prepare {s : Setup} {objective : Objective Float Datum} {o : Options}
    {start : Point} (h : s.prepare = .ok (objective, o, start)) :
    s.objective.toObjective = .ok objective ∧
      (∃ assembled, Options.assemble s.base s.settle.overrides = .ok assembled ∧
        assembled.options = o) ∧
      Point.ofStart s.start = .ok start := by
  have hrest : (do
      let objective ← s.objective.toObjective
      let assembled ← Options.assemble s.base s.settle.overrides
      let start ← Point.ofStart s.start
      return (objective, assembled.options, start) : Except Fault _) = .ok (objective, o, start) := by
    cases htwice : (s.override? handedByName).isSome with
    | true =>
      simp only [prepare, htwice, if_true] at h
      cases h
    | false =>
      cases hfound : s.overrides.find? fun e => handedOver.contains e.1 with
      | some e =>
        simp only [prepare, htwice, hfound] at h
        cases h
      | none =>
        simp only [prepare, htwice, hfound] at h
        exact h
  obtain ⟨_, hobjective, hrest⟩ := exists_of_bind_ok hrest
  obtain ⟨assembled, hassembled, hrest⟩ := exists_of_bind_ok hrest
  obtain ⟨_, hstart, hrest⟩ := exists_of_bind_ok hrest
  cases hrest
  exact ⟨hobjective, ⟨assembled, hassembled, rfl⟩, hstart⟩

/-- The options that a run is prepared with are valid if those that it is handed are. -/
theorem Setup.options_valid {s : Setup} {objective : Objective Float Datum} {o : Options}
    {start : Point} (hbase : s.base.Valid) (h : s.prepare = .ok (objective, o, start)) :
    o.Valid := by
  obtain ⟨-, ⟨assembled, hassembled, rfl⟩, -⟩ := Setup.of_prepare h
  exact (Options.assemble_valid hbase hassembled).1

/-- **Options are valid for ever.** After any steps on options, of any values and failed or not, all
options made so far are valid, and pass the check again as they are. Any more steps leave them as
they are. A run whose base is any value or any of these options tells its searches nothing that they
would refuse. -/
theorem options_stay_valid (before after : List OptionStep) :
    (∀ o ∈ (Workshop.run {} before).objects, o.Valid ∧ (Draft.ofOptions o).check = .ok o) ∧
    (Workshop.run {} before).objects <+: (Workshop.run {} (before ++ after)).objects ∧
    (∀ step o, (Workshop.run {} before).object? step = some o →
      o ∈ (Workshop.run {} before).objects ∧
        (Workshop.run {} (before ++ after)).object? step = some o) ∧
    (∀ (s : Setup) (objective : Objective Float Datum) (o : Options) (start : Point),
      (∀ o, s.base = .options o → o ∈ (Workshop.run {} before).objects) →
      s.prepare = .ok (objective, o, start) →
      ∀ (history : Bool) (st : State Float start.dim) (d : Vec Float start.dim),
        Probe.checkFactor (.float o.backtrack) = .ok (st.ray (o.settings history) d).factor ∧
        Probe.checkMinStep o.minStep.toDatum = .ok (st.ray (o.settings history) d).minStep) := by
  have hvalid : ∀ o ∈ (Workshop.run {} before).objects, o.Valid :=
    (Workshop.run_grown {} before).valid fun o ho => absurd ho List.not_mem_nil
  have hgrown := (Workshop.run {} before).run_grown after
  rw [Workshop.run_append]
  refine ⟨fun o ho => ⟨hvalid o ho, (hvalid o ho).check_eq⟩, hgrown.objects, fun step o ho => ?_,
    fun s objective o start hbase hprepare history st d => ?_⟩
  · obtain ⟨place, -, hplace⟩ := Workshop.exists_place ho
    exact ⟨List.mem_of_getElem? hplace, hgrown.object?_eq ho⟩
  · have hbase' : s.base.Valid := by
      cases hs : s.base with
      | options o' => exact hvalid o' (hbase o' hs)
      | nothing | value d => trivial
    exact (Setup.options_valid hbase' hprepare).search_checks

/-- Options made on options, after two steps that are refused. -/
theorem options_stay_valid_reused :
    let before : List OptionStep :=
      [.make [("maxiter", .datum (.int 5))], .assemble (.made 0) [("tolx", .list [.made 0])],
        .assign 0 "tolx" (.datum (.float (-1))), .assemble (.made 0) [],
        .assemble (.made 3) [("curvature_tol", .datum (.int 0))]]
    let after : List OptionStep := [.assign 4 "maxiter" (.datum (.bool true))]
    ∃ o, (Workshop.run {} before).object? 4 = some o ∧ o.maxiter = 5 ∧ o.Valid ∧
      (Workshop.run {} (before ++ after)).object? 4 = some o ∧
      Probe.checkFactor (.float o.backtrack) = .ok o.backtrack := by
  intro before after
  obtain ⟨hvalid, -, hobject, hsearch⟩ := options_stay_valid before after
  have hmaxiter : ((Workshop.run {} before).object? 4).map Options.maxiter = some 5 := by
    decide +kernel
  obtain ⟨o, ho, hfive⟩ := Option.map_eq_some_iff.1 hmaxiter
  obtain ⟨hmem, hkept⟩ := hobject 4 o ho
  let s : Setup := ⟨.callable fun _ => .ok .nothing, .list [.float 3, .float 4], .options o, [],
    .value .nothing, none, none⟩
  have hfinite : allFinite (#v[3, 4] : Vec Float 2) = true := by decide +kernel
  have hstart : Point.ofStart s.start = .ok ⟨2, #v[3, 4]⟩ := if_pos hfinite
  have hprepare : s.prepare = .ok (.joint (fun _ => .ok .nothing) none, o, ⟨2, #v[3, 4]⟩) := by
    have hstarted : s.prepare = (Point.ofStart s.start).map fun start =>
        (.joint (fun _ => .ok .nothing) none, o, start) := by
      change (Point.ofStart s.start >>= fun start => .ok (_, _, start)) = _
      cases Point.ofStart s.start <;> rfl
    rw [hstarted, hstart]
    rfl
  refine ⟨o, ho, hfive, (hvalid o hmem).1, hkept, ?_⟩
  refine (hsearch s _ o _ (fun o' ho' => ?_) hprepare false
    (.start (o.settings false) #v[3, 4] 0 #v[0, 0]) #v[0, 0]).1
  cases ho'
  exact hmem

end VariableMetric
