import VariableMetric.Proofs.Named
import VariableMetric.Proofs.Oversized

/-!
# Options that are numbers

All options but the display are numbers. What becomes of any numbers given by name is decided by the
first one, in the order of the check, that its option does not accept.

* `Quantity`: the options that are numbers; `Quantity.Fits`: what each of them accepts.
* `Quantity.fault`: what is said of a number that is not accepted.
* `Draft.ofNumbers`: a draft of numbers, which `Draft.check_ofNumbers_of_fits` and
  `Draft.check_ofNumbers_of_not_fits` follow through the check.
* `Options.make_named`, `Options.assemble_named`: the two ways to give options by name are one.
* `numeric_options`: **what becomes of numbers given by name**.
-/

namespace VariableMetric

/-- The options that are numbers, in the order of the check. -/
inductive Quantity where
  | maxiter | tolx | tolfun | minStep | backtrack | curvatureTol
  deriving DecidableEq

namespace Quantity

/-- The option. -/
def name : Quantity → OptionName
  | maxiter => .maxiter
  | tolx => .tolx
  | tolfun => .tolfun
  | minStep => .minStep
  | backtrack => .backtrack
  | curvatureTol => .curvatureTol

/-- The name that the option is given by. -/
def text (q : Quantity) : String := q.name.text

/-- The place in the order of the check. -/
def place : Quantity → ℕ
  | maxiter => 0
  | tolx => 1
  | tolfun => 2
  | minStep => 3
  | backtrack => 4
  | curvatureTol => 5

/-- The number is converted to a double by the check. -/
def isTolerance : Quantity → Bool
  | maxiter | backtrack => false
  | tolx | tolfun | minStep | curvatureTol => true

/-- **What the option accepts.** -/
def Fits (q : Quantity) (a : Number) : Prop :=
  match q with
  | maxiter => ∃ n : ℕ, a = .int n ∨ a = .sizedInt n
  | tolx | tolfun | minStep => a.IsFinite ∧ a.IsPositive
  | backtrack => ∃ x, (a = .float x ∨ a = .sizedFloat x) ∧ Float.lt 0 x = true ∧ Float.lt x 1 = true
  | curvatureTol => a.IsFinite ∧ a.IsNonnegative

/-- The number as options keep it: a count is a plain integer, and a factor a plain double. -/
def kept (q : Quantity) (a : Number) : Number :=
  match q, a with
  | maxiter, .sizedInt n => .int n
  | backtrack, .sizedFloat x => .float x
  | _, a => a

/-- **What is said of a number** that the option does not accept. -/
def fault (q : Quantity) (a : Number) : Fault :=
  if q.isTolerance && a.oversized then .integerTooLarge
  else match q, a with
    | maxiter, .int _ | maxiter, .sizedInt _ => .maxiterNegative
    | maxiter, a => .maxiterNotInteger a.toDatum
    | backtrack, _ => .backtrackOutside
    | curvatureTol, _ => .curvatureTolNegative
    | tolx, a | tolfun, a | minStep, a => .notPositive q.text a.toDatum

theorem ofText?_text (q : Quantity) : OptionName.ofText? q.text = some q.name :=
  OptionName.ofText?_eq_some_iff.2 rfl

theorem name_injective : Function.Injective name := by
  intro p q h
  cases p <;> cases q <;> first | rfl | exact absurd h (by decide)

theorem text_injective : Function.Injective text := OptionName.text_injective.comp name_injective

theorem kept_of_not_isSized {q : Quantity} {a : Number} (h : a.isSized = false) : q.kept a = a := by
  cases a with
  | sizedInt n | sizedFloat x => cases h
  | bool b | int n | float x => cases q <;> rfl

/-- **The class of the fault**: a value error, unless the number cannot be converted. -/
theorem kind_fault (q : Quantity) (a : Number) :
    (q.fault a).kind = if q.isTolerance && a.oversized then .overflow else .value := by
  unfold fault
  split
  · rfl
  · cases q <;> cases a <;> rfl

end Quantity

theorem Number.oversized_of_isFinite {a : Number} (h : a.IsFinite) : a.oversized = false := by
  by_contra hlarge
  obtain ⟨x, hx, -⟩ := h
  rw [Bool.not_eq_false] at hlarge
  cases hx.symm.trans (toFloat_of_oversized hlarge)

/-- **An integer is finite** unless it cannot be converted. -/
theorem Number.isFinite_iff {a : Number} {n : ℤ} (ha : a.int? = some n) :
    a.IsFinite ↔ a.oversized = false := by
  refine ⟨oversized_of_isFinite, fun h => ?_⟩
  obtain ⟨x, hx⟩ := exists_toFloat h
  refine ⟨x, hx, ?_⟩
  rw [toFloat, ha] at hx
  dsimp only at hx
  split at hx
  · rename_i hsome
    cases hx
    exact Binary.isFinite_of_ofInt? hsome
  · cases hx

/-! ### The checks, one number at a time -/

namespace Draft

variable {a : Number}

theorem checkFinite_of_not {refused : Fault} (h : ¬ a.IsFinite) :
    checkFinite a.toDatum refused =
      .error (if a.oversized then .integerTooLarge else refused) := by
  have hreal : a.toDatum.real = .ok a := by rw [Datum.real, a.number?_toDatum]
  rw [checkFinite, hreal]
  change (a.toFloat >>= fun x => if x.isFinite then pure a else throw refused) = _
  cases hlarge : a.oversized with
  | true =>
    rw [Number.toFloat_of_oversized hlarge]
    rfl
  | false =>
    obtain ⟨x, hx⟩ := Number.exists_toFloat hlarge
    rw [hx]
    exact if_neg fun hfin => h ⟨x, hx, hfin⟩

theorem checkPositive_of_not {name : String} (h : ¬ (a.IsFinite ∧ a.IsPositive)) :
    checkPositive name a.toDatum =
      .error (if a.oversized then .integerTooLarge else .notPositive name a.toDatum) := by
  unfold checkPositive
  by_cases hfin : a.IsFinite
  · have hpos : ¬ (Number.int 0).lt a = true := fun hlt => h ⟨hfin, (Number.zero_lt_iff a).1 hlt⟩
    rw [checkFinite_eq_ok_iff.2 ⟨a.number?_toDatum, hfin⟩, Number.oversized_of_isFinite hfin]
    exact if_neg hpos
  · rw [checkFinite_of_not hfin]
    rfl

theorem checkNonNegative_of_not (h : ¬ (a.IsFinite ∧ a.IsNonnegative)) :
    checkNonNegative a.toDatum =
      .error (if a.oversized then .integerTooLarge else .curvatureTolNegative) := by
  unfold checkNonNegative
  by_cases hfin : a.IsFinite
  · have hneg : a.lt (.int 0) = true := by
      by_contra hlt
      exact h ⟨hfin, Number.isNonnegative_of_not_lt hfin (Bool.eq_false_iff.2 hlt)⟩
    rw [checkFinite_eq_ok_iff.2 ⟨a.number?_toDatum, hfin⟩, Number.oversized_of_isFinite hfin]
    exact if_pos hneg
  · rw [checkFinite_of_not hfin]
    rfl

theorem checkFraction_of_not (h : ¬ Quantity.backtrack.Fits a) :
    checkFraction a.toDatum = .error .backtrackOutside := by
  rw [checkFraction, a.number?_toDatum]
  refine if_neg fun hbetween => h ?_
  obtain ⟨hpos, hlt⟩ := Bool.and_eq_true_iff.1 hbetween
  cases a with
  | float x => exact ⟨x, .inl rfl, hpos, hlt⟩
  | sizedFloat x => exact ⟨x, .inr rfl, hpos, hlt⟩
  | bool b => exact absurd ⟨hpos, hlt⟩ (Binary.ofIntNearest_outside (Number.ofBool b))
  | int n | sizedInt n => exact absurd ⟨hpos, hlt⟩ (Binary.ofIntNearest_outside n)

end Draft

/-- The check of one number, as options keep it. -/
def Quantity.check (q : Quantity) (a : Number) : Except Fault Number :=
  match q with
  | maxiter => (Draft.checkCount a.toDatum).map fun n : ℕ => .int n
  | backtrack => (Draft.checkFraction a.toDatum).map .float
  | curvatureTol => Draft.checkNonNegative a.toDatum
  | tolx | tolfun | minStep => Draft.checkPositive q.text a.toDatum

namespace Quantity

variable {q : Quantity} {a : Number}

theorem check_of_fits (h : q.Fits a) : q.check a = .ok (q.kept a) := by
  cases q with
  | maxiter =>
    obtain ⟨n, rfl | rfl⟩ := h
    · rw [check, Number.toDatum, Draft.checkCount_eq_ok_iff.2 (.inl rfl)]
      rfl
    · rw [check, Number.toDatum, Draft.checkCount_eq_ok_iff.2 (.inr rfl)]
      rfl
  | backtrack =>
    obtain ⟨x, rfl | rfl, hpos, hlt⟩ := h
    · exact congrArg (Except.map _) (Draft.checkFraction_float hpos hlt)
    · exact congrArg (Except.map _) (if_pos (Bool.and_eq_true_iff.2 ⟨hpos, hlt⟩))
  | curvatureTol => exact Draft.checkNonNegative_eq_ok_iff.2 ⟨a.number?_toDatum, h⟩
  | tolx | tolfun | minStep => exact Draft.checkPositive_eq_ok_iff.2 ⟨a.number?_toDatum, h⟩

theorem check_of_not_fits (h : ¬ q.Fits a) : q.check a = .error (q.fault a) := by
  cases q with
  | maxiter =>
    have hnegative {n : ℤ} (hn : a = .int n ∨ a = .sizedInt n) : n < 0 := by
      by_contra hle
      obtain ⟨k, rfl⟩ := Int.eq_ofNat_of_zero_le (not_lt.1 hle)
      exact h ⟨k, hn⟩
    cases a with
    | int n =>
      rw [check, Number.toDatum, Draft.checkCount, if_pos (hnegative (.inl rfl))]
      rfl
    | sizedInt n =>
      rw [check, Number.toDatum, Draft.checkCount, if_pos (hnegative (.inr rfl))]
      rfl
    | bool b | float x | sizedFloat x => rfl
  | backtrack => exact congrArg (Except.map _) (Draft.checkFraction_of_not h)
  | curvatureTol =>
    refine (Draft.checkNonNegative_of_not h).trans ?_
    rw [fault, isTolerance, Bool.true_and]
  | tolx | tolfun | minStep =>
    refine (Draft.checkPositive_of_not h).trans ?_
    rw [fault, isTolerance, Bool.true_and]

end Quantity

/-! ### The check of a draft -/

/-- The numbers of options. -/
def Options.number (o : Options) : Quantity → Number
  | .maxiter => .int o.maxiter
  | .tolx => o.tolx
  | .tolfun => o.tolfun
  | .minStep => o.minStep
  | .backtrack => .float o.backtrack
  | .curvatureTol => o.curvatureTol

namespace Draft

/-- A draft of numbers. -/
def ofNumbers (num : Quantity → Number) (level : Display) : Draft where
  maxiter := (num .maxiter).toDatum
  tolx := (num .tolx).toDatum
  tolfun := (num .tolfun).toDatum
  backtrack := (num .backtrack).toDatum
  display := .inl level
  minStep := (num .minStep).toDatum
  curvatureTol := (num .curvatureTol).toDatum

variable {num : Quantity → Number} {level : Display} {q : Quantity}

theorem ofOptions_eq (o : Options) : ofOptions o = ofNumbers o.number o.display := rfl

theorem set_ofNumbers (a : Number) :
    (ofNumbers num level).set q.name a.toDatum = ofNumbers (Function.update num q a) level := by
  cases q <;> rfl

/-- **Numbers that fit** pass the check, and are what the options hold. -/
theorem check_ofNumbers_of_fits (h : ∀ q : Quantity, q.Fits (num q)) :
    ∃ o, (ofNumbers num level).check = .ok o ∧ o.display = level ∧
      ∀ q, o.number q = q.kept (num q) := by
  have hcheck (q : Quantity) := Quantity.check_of_fits (h q)
  obtain ⟨n, hn, hcount⟩ := exists_of_map_ok (hcheck .maxiter)
  obtain ⟨x, hx, hfactor⟩ := exists_of_map_ok (hcheck .backtrack)
  have htolx : checkPositive "tolx" (num .tolx).toDatum = _ := hcheck .tolx
  have htolfun : checkPositive "tolfun" (num .tolfun).toDatum = _ := hcheck .tolfun
  have hminStep : checkPositive "min_step" (num .minStep).toDatum = _ := hcheck .minStep
  have hcurvatureTol : checkNonNegative (num .curvatureTol).toDatum = _ := hcheck .curvatureTol
  let kept (q : Quantity) : Number := q.kept (num q)
  refine ⟨⟨n, kept .tolx, kept .tolfun, x, level, kept .minStep, kept .curvatureTol⟩, ?_, rfl, ?_⟩
  · unfold check ofNumbers
    rw [hn, htolx, htolfun, hminStep, hx, hcurvatureTol]
    rfl
  · intro q
    cases q with
    | maxiter => exact hcount
    | backtrack => exact hfactor
    | tolx | tolfun | minStep | curvatureTol => rfl

/-- **The first number that does not fit** decides the fault. -/
theorem check_ofNumbers_of_not_fits (h : ¬ q.Fits (num q))
    (hbefore : ∀ p : Quantity, p.place < q.place → p.Fits (num p)) :
    (ofNumbers num level).check = .error (q.fault (num q)) := by
  have hcheck (p : Quantity) (hp : p.place < q.place) := Quantity.check_of_fits (hbefore p hp)
  have hfault := Quantity.check_of_not_fits h
  -- what the checks before it come to
  have hcount (hp : 0 < q.place) : ∃ n, checkCount (num .maxiter).toDatum = .ok n :=
    (exists_of_map_ok (hcheck .maxiter hp)).imp fun _ hn => hn.1
  have htolx (hp : 1 < q.place) : checkPositive "tolx" (num .tolx).toDatum = _ := hcheck .tolx hp
  have htolfun (hp : 2 < q.place) : checkPositive "tolfun" (num .tolfun).toDatum = _ :=
    hcheck .tolfun hp
  have hminStep (hp : 3 < q.place) : checkPositive "min_step" (num .minStep).toDatum = _ :=
    hcheck .minStep hp
  have hfactor (hp : 4 < q.place) : ∃ x, checkFraction (num .backtrack).toDatum = .ok x :=
    (exists_of_map_ok (hcheck .backtrack hp)).imp fun _ hx => hx.1
  unfold check ofNumbers
  cases q with
  | maxiter =>
    rw [eq_error_of_map hfault]
    rfl
  | tolx =>
    obtain ⟨n, hn⟩ := hcount (by decide)
    have hlast : checkPositive "tolx" (num .tolx).toDatum = _ := hfault
    rw [hn, hlast]
    rfl
  | tolfun =>
    obtain ⟨n, hn⟩ := hcount (by decide)
    have hlast : checkPositive "tolfun" (num .tolfun).toDatum = _ := hfault
    rw [hn, htolx (by decide), hlast]
    rfl
  | minStep =>
    obtain ⟨n, hn⟩ := hcount (by decide)
    have hlast : checkPositive "min_step" (num .minStep).toDatum = _ := hfault
    rw [hn, htolx (by decide), htolfun (by decide), hlast]
    rfl
  | backtrack =>
    obtain ⟨n, hn⟩ := hcount (by decide)
    rw [hn, htolx (by decide), htolfun (by decide), hminStep (by decide), eq_error_of_map hfault]
    rfl
  | curvatureTol =>
    obtain ⟨n, hn⟩ := hcount (by decide)
    obtain ⟨x, hx⟩ := hfactor (by decide)
    have hlast : checkNonNegative (num .curvatureTol).toDatum = _ := hfault
    rw [hn, htolx (by decide), htolfun (by decide), hminStep (by decide), hx, hlast]
    rfl

end Draft

/-! ### Options by name -/

/-- Numbers for options, the last one of a name counting. -/
def Quantity.chosen (values : List (Quantity × Number)) (num : Quantity → Number) :
    Quantity → Number :=
  values.foldl (fun num e => Function.update num e.1 e.2) num

namespace Quantity

variable {values : List (Quantity × Number)} {num : Quantity → Number} {q : Quantity} {a : Number}

theorem chosen_of_not_mem (h : q ∉ values.map (·.1)) : chosen values num q = num q := by
  induction values generalizing num with
  | nil => rfl
  | cons e values ih =>
    rw [List.map_cons, List.mem_cons, not_or] at h
    exact (ih h.2).trans (Function.update_of_ne h.1 _ _)

theorem chosen_of_mem (hnames : (values.map (·.1)).Nodup) (h : (q, a) ∈ values) :
    chosen values num q = a := by
  induction values generalizing num with
  | nil => exact absurd h List.not_mem_nil
  | cons e values ih =>
    rw [List.map_cons, List.nodup_cons] at hnames
    rcases List.mem_cons.1 h with rfl | h
    · exact (chosen_of_not_mem hnames.1).trans (Function.update_self _ _ _)
    · exact ih hnames.2 h

/-- Numbers as they are given by name. -/
def named (values : List (Quantity × Number)) : List (String × Datum) :=
  values.map fun e => (e.1.text, e.2.toDatum)

/-- The same, as entries of a dictionary. -/
theorem setAll_named (values : List (Quantity × Number)) (num : Quantity → Number)
    (level : Display) :
    (Draft.ofNumbers num level).setAll ((named values).map fun e => (.text e.1, e.2)) =
      Draft.ofNumbers (chosen values num) level := by
  induction values generalizing num with
  | nil => rfl
  | cons e values ih =>
    have hname : Datum.optionName? (.text e.1.text) = some e.1.name := ofText?_text e.1
    rw [named, List.map_cons, List.map_cons, Draft.setAll, List.foldl_cons]
    simp only [hname, Draft.set_ofNumbers]
    exact ih _

theorem exists_of_mem_named {e : String × Datum} (h : e ∈ named values) :
    ∃ q : Quantity, e.1 = q.text := by
  obtain ⟨e, -, rfl⟩ := List.mem_map.1 h
  exact ⟨e.1, rfl⟩

end Quantity

section Named

variable {values : List (Quantity × Number)}

open Quantity

/-- Names of options are not refused. -/
theorem Options.make_eq {given : List (String × Datum)}
    (h : ∀ e ∈ given, ∃ q : Quantity, e.1 = q.text) :
    make given =
      ((Draft.ofOptions default).setAll (given.map fun e => (.text e.1, e.2))).check := by
  have hloop (rest : Except Fault Options) : (do
      for e in given do
        if e.1 = "self" then throw (.argumentTwice optionsCall e.1)
        if (OptionName.ofText? e.1).isNone then throw (.unexpectedOption optionsCall e.1)
      rest) = rest := by
    induction given with
    | nil => rfl
    | cons e given ih =>
      obtain ⟨q, hq⟩ := h e List.mem_cons_self
      have hself : ¬ e.1 = "self" := by rw [hq]; cases q <;> decide
      have hknown : ¬ (OptionName.ofText? e.1).isNone = true := by rw [hq]; cases q <;> decide
      rw [List.forIn_cons]
      simp only [if_neg hself, if_neg hknown]
      exact ih fun e he => h e (List.mem_cons_of_mem _ he)
  exact hloop _

/-- **Options from the defaults and numbers by name.** -/
theorem Options.make_named (values : List (Quantity × Number)) :
    make (named values) = (Draft.ofNumbers (chosen values default.number) .silent).check := by
  rw [make_eq fun e he => exists_of_mem_named he, Draft.ofOptions_eq]
  exact congrArg Draft.check (setAll_named values _ _)

/-- Keys that are not among the entries are put at the end. -/
theorem Entries.foldl_put {given : List (String × Datum)} (hnames : (given.map (·.1)).Nodup)
    (entries : Entries) (hnew : ∀ e ∈ entries, ∀ v ∈ given, sameKey e.1 (.text v.1) = false) :
    given.foldl (fun es e => Entries.put es (.text e.1) e.2) entries =
      entries ++ given.map fun e => (.text e.1, e.2) := by
  have hput {key value : Datum} {es : Entries} (h : ∀ e ∈ es, sameKey e.1 key = false) :
      es.put key value = es ++ [(key, value)] := by
    induction es with
    | nil => rfl
    | cons e es ih =>
      rw [Entries.put, h e List.mem_cons_self]
      exact congrArg (e :: ·) (ih fun e' he' => h e' (List.mem_cons_of_mem _ he'))
  induction given generalizing entries with
  | nil => exact (List.append_nil _).symm
  | cons v given ih =>
    rw [List.map_cons, List.nodup_cons] at hnames
    rw [List.foldl_cons, hput fun e he => hnew e he v List.mem_cons_self, ih hnames.2,
      List.map_cons, List.append_assoc, List.singleton_append]
    intro e he v' hv'
    rcases List.mem_append.1 he with he | he
    · exact hnew e he v' (List.mem_cons_of_mem _ hv')
    · -- the key just put is none of the later ones
      obtain rfl := List.mem_singleton.1 he
      refine beq_eq_false_iff_ne.2 fun heq => hnames.1 ?_
      rw [heq]
      exact List.mem_map_of_mem hv'

theorem nodup_named (hnames : (values.map (·.1)).Nodup) : ((named values).map (·.1)).Nodup := by
  rw [named, List.map_map]
  have htexts := hnames.map text_injective
  rwa [List.map_map] at htexts

/-- **Options from no base and numbers by name** are the same. -/
theorem Options.assemble_named (hnames : (values.map (·.1)).Nodup) :
    assemble .nothing (named values) = (make (named values)).map (⟨·, false⟩) := by
  have hbase : (named values).any (·.1 == "base") = false := by
    refine List.any_eq_false.2 fun e he => ?_
    obtain ⟨q, hq⟩ := exists_of_mem_named he
    rw [hq]
    cases q <;> decide
  have hentries := Entries.foldl_put (nodup_named hnames) [] nofun
  have hknown : refuseUnknown ((named values).map fun e => (.text e.1, e.2)) = .ok () := by
    have hnone : (((named values).map fun e => (Datum.text e.1, e.2)).map (·.1)).filter
        (fun k => k.optionName?.isNone) = [] := by
      rw [List.map_map, List.filter_eq_nil_iff]
      rintro k hk
      obtain ⟨e, he, rfl⟩ := List.mem_map.1 hk
      obtain ⟨q, hq⟩ := exists_of_mem_named he
      change ¬ (OptionName.ofText? e.1).isNone = true
      rw [hq, ofText?_text]
      exact Bool.false_ne_true
    rw [refuseUnknown, hnone]
    rfl
  have hcomplete : assemble .nothing (named values) =
      complete default false ((named values).map fun e => (.text e.1, e.2)) := by
    rw [← List.nil_append (List.map _ _), ← hentries]
    simp only [assemble, hbase, Bool.false_eq_true, if_false]
    rfl
  rw [hcomplete, complete, hknown, make_eq fun e he => exists_of_mem_named he]
  cases values with
  | nil =>
    -- with nothing given the defaults come back unchecked, and would pass the check
    change _ = (Draft.ofOptions default).check.map _
    rw [default_valid.check_eq]
    rfl
  | cons e values =>
    generalize (Draft.ofOptions default).setAll _ = draft
    cases draft.check <;> rfl

/-- **Valid options** hold numbers that fit. -/
theorem Options.Valid.fits {o : Options} (h : o.Valid) (q : Quantity) : q.Fits (o.number q) := by
  cases q with
  | maxiter => exact ⟨o.maxiter, .inl rfl⟩
  | tolx => exact h.tolx
  | tolfun => exact h.tolfun
  | minStep => exact h.minStep
  | backtrack => exact ⟨o.backtrack, .inl rfl, h.backtrack⟩
  | curvatureTol => exact h.curvatureTol

theorem kept_number (o : Options) (q : Quantity) : q.kept (o.number q) = o.number q := by
  cases q <;> rfl

/-- The first number, in the order of the check, that does not fit. -/
structure FirstMisfit (values : List (Quantity × Number)) (e : Quantity × Number) : Prop where
  mem : e ∈ values
  not_fits : ¬ e.1.Fits e.2
  first : ∀ e' ∈ values, ¬ e'.1.Fits e'.2 → e.1.place ≤ e'.1.place

theorem exists_firstMisfit (h : ¬ ∀ e ∈ values, e.1.Fits e.2) : ∃ e, FirstMisfit values e := by
  classical
  push Not at h
  obtain ⟨e, he, hmisfit⟩ := h
  have hsome : ∃ k, ∃ e ∈ values, ¬ e.1.Fits e.2 ∧ e.1.place = k := ⟨_, e, he, hmisfit, rfl⟩
  obtain ⟨e', he', hmisfit', hplace⟩ := Nat.find_spec hsome
  refine ⟨e', he', hmisfit', fun p hp hpmisfit => ?_⟩
  rw [hplace]
  exact Nat.find_min' hsome ⟨p, hp, hpmisfit, rfl⟩

/-- A name that is not given keeps its default, any other its number. -/
theorem chosen_cases (hnames : (values.map (·.1)).Nodup) (num : Quantity → Number) (q : Quantity) :
    (∃ a, (q, a) ∈ values ∧ chosen values num q = a) ∨
      q ∉ values.map (·.1) ∧ chosen values num q = num q := by
  by_cases hq : q ∈ values.map (·.1)
  · obtain ⟨e, he, rfl⟩ := List.mem_map.1 hq
    exact .inl ⟨e.2, he, chosen_of_mem hnames he⟩
  · exact .inr ⟨hq, chosen_of_not_mem hq⟩

/-- Options by name, where every number fits. -/
theorem Options.make_of_fits (hnames : (values.map (·.1)).Nodup)
    (h : ∀ e ∈ values, e.1.Fits e.2) :
    ∃ o, make (named values) = .ok o ∧ o.display = .silent ∧
      (∀ e ∈ values, o.number e.1 = e.1.kept e.2) ∧
      ∀ q ∉ values.map (·.1), o.number q = default.number q := by
  have hfits (q : Quantity) : q.Fits (chosen values default.number q) := by
    obtain ⟨a, ha, hchosen⟩ | ⟨-, hchosen⟩ := chosen_cases hnames default.number q
    · exact hchosen ▸ h _ ha
    · exact hchosen ▸ default_valid.fits q
  obtain ⟨o, hcheck, hdisplay, hnumber⟩ := @Draft.check_ofNumbers_of_fits _ .silent hfits
  refine ⟨o, (make_named values).trans hcheck, hdisplay, fun e he => ?_, fun q hq => ?_⟩
  · rw [hnumber, chosen_of_mem hnames he]
  · rw [hnumber, chosen_of_not_mem hq, kept_number]

/-- Options by name, where one number does not fit. -/
theorem Options.make_of_misfit (hnames : (values.map (·.1)).Nodup) {e : Quantity × Number}
    (h : FirstMisfit values e) : make (named values) = .error (e.1.fault e.2) := by
  have hchosen : chosen values default.number e.1 = e.2 := chosen_of_mem hnames h.mem
  rw [make_named, ← hchosen]
  refine Draft.check_ofNumbers_of_not_fits (hchosen ▸ h.not_fits) fun p hp => ?_
  obtain ⟨a, ha, hp'⟩ | ⟨-, hp'⟩ := chosen_cases hnames default.number p
  · rw [hp']
    by_contra hmisfit
    exact absurd hp (not_lt.2 (h.first _ ha hmisfit))
  · exact hp' ▸ default_valid.fits p

/-- An integer beyond all doubles, given as a tolerance alone. -/
theorem Options.named_of_oversized {q : Quantity} {a : Number} (hq : q.isTolerance = true)
    (ha : a.oversized = true) :
    make (named [(q, a)]) = .error .integerTooLarge ∧
      assemble .nothing (named [(q, a)]) = .error .integerTooLarge := by
  have hmisfit : ¬ q.Fits a := by
    have hinf : ¬ a.IsFinite := fun hfin =>
      Bool.false_ne_true ((Number.oversized_of_isFinite hfin).symm.trans ha)
    cases q with
    | maxiter | backtrack => cases hq
    | tolx | tolfun | minStep | curvatureTol => exact fun h => hinf h.1
  have hnames : ([(q, a)].map (·.1)).Nodup := List.nodup_singleton q
  have hfirst : FirstMisfit [(q, a)] (q, a) :=
    ⟨List.mem_singleton_self _, hmisfit, List.forall_mem_singleton.2 fun _ => le_rfl⟩
  have hfault : q.fault a = .integerTooLarge := if_pos (Bool.and_eq_true_iff.2 ⟨hq, ha⟩)
  have hmake : make (named [(q, a)]) = .error .integerTooLarge :=
    hfault ▸ make_of_misfit hnames hfirst
  refine ⟨hmake, ?_⟩
  rw [assemble_named hnames, hmake]
  rfl

/-- **What becomes of numbers given by name.** The two ways to give them are one. Where every number
fits its option, there are options that hold the numbers given, as they are unless they come from a
numerical library, and the defaults for the rest. Where one does not, the first one decides the
fault, which tells its option and the number. The faults are value errors unless this is an integer
beyond all doubles that is given as a tolerance: it cannot be converted, whatever its sign. -/
theorem numeric_options (hnames : (values.map (·.1)).Nodup) :
    Options.assemble .nothing (named values) = (Options.make (named values)).map (⟨·, false⟩) ∧
    ((∀ e ∈ values, e.1.Fits e.2) →
      ∃ o, Options.make (named values) = .ok o ∧ o.display = .silent ∧
        (∀ e ∈ values, o.number e.1 = e.1.kept e.2 ∧
          (e.2.isSized = false → o.number e.1 = e.2)) ∧
        ∀ q ∉ values.map (·.1), o.number q = Options.default.number q) ∧
    (∀ e, FirstMisfit values e → Options.make (named values) = .error (e.1.fault e.2)) ∧
    ((∀ fault, Options.make (named values) = .error fault → fault.kind = .value) ↔
      ∀ e, FirstMisfit values e → (e.1.isTolerance && e.2.oversized) = false) := by
  refine ⟨Options.assemble_named hnames, fun h => ?_,
    fun e he => Options.make_of_misfit hnames he, fun h e he => ?_, fun h fault hfault => ?_⟩
  · obtain ⟨o, hmake, hdisplay, hgiven, hrest⟩ := Options.make_of_fits hnames h
    refine ⟨o, hmake, hdisplay, fun e he => ⟨hgiven e he, fun hplain => ?_⟩, hrest⟩
    exact (hgiven e he).trans (kept_of_not_isSized hplain)
  · have hkind := h _ (Options.make_of_misfit hnames he)
    rw [kind_fault] at hkind
    by_contra hlarge
    rw [Bool.not_eq_false] at hlarge
    rw [if_pos hlarge] at hkind
    cases hkind
  · by_cases hall : ∀ e ∈ values, e.1.Fits e.2
    · obtain ⟨o, ho, -⟩ := Options.make_of_fits hnames hall
      cases ho.symm.trans hfault
    · obtain ⟨e, he⟩ := exists_firstMisfit hall
      obtain rfl := Except.error.inj ((Options.make_of_misfit hnames he).symm.trans hfault)
      rw [kind_fault, h e he]
      rfl

omit values in
/-- The largest integers that are accepted, and a value error that comes before an integer that
cannot be converted. -/
theorem numeric_options_largest :
    let largest : ℤ := Binary.tooLarge - 1
    let fitting : List (Quantity × Number) :=
      [(.tolfun, .int largest), (.maxiter, .int Binary.tooLarge)]
    let failing : List (Quantity × Number) :=
      [(.tolfun, .int Binary.tooLarge), (.tolx, .int (-1))]
    (fitting.map (·.1)).Nodup ∧ (∀ e ∈ fitting, e.1.Fits e.2) ∧
      (∃ o, Options.make (named fitting) = .ok o ∧ o.number .tolfun = .int largest ∧
        o.number .maxiter = .int Binary.tooLarge) ∧
      (failing.map (·.1)).Nodup ∧
      Options.make (named failing) = .error (.notPositive "tolx" (.int (-1))) := by
  intro largest fitting failing
  have hnames : (fitting.map (·.1)).Nodup := by decide
  have hnames' : (failing.map (·.1)).Nodup := by decide
  have hfits : ∀ e ∈ fitting, e.1.Fits e.2 := by
    have hpos : 0 < largest := by decide +kernel
    have hsmall : (Number.int largest).oversized = false := by decide +kernel
    refine List.forall_mem_cons.2 ⟨⟨(Number.isFinite_iff rfl).2 hsmall, hpos⟩, ?_⟩
    exact List.forall_mem_singleton.2 ⟨Binary.tooLarge, .inl rfl⟩
  have hfirst : FirstMisfit failing (.tolx, .int (-1)) := by
    have hneg : ¬ Quantity.tolx.Fits (.int (-1)) := fun h =>
      absurd (show (0 : ℤ) < -1 from h.2) (by decide)
    refine ⟨List.mem_cons_of_mem _ List.mem_cons_self, hneg, ?_⟩
    refine List.forall_mem_cons.2 ⟨fun _ => by decide, ?_⟩
    exact List.forall_mem_singleton.2 fun _ => le_rfl
  obtain ⟨o, hmake, -, hgiven, -⟩ := (numeric_options hnames).2.1 hfits
  refine ⟨hnames, hfits, ⟨o, hmake, ?_, ?_⟩, hnames', ?_⟩
  · exact (hgiven _ List.mem_cons_self).2 rfl
  · exact (hgiven _ (List.mem_cons_of_mem _ List.mem_cons_self)).2 rfl
  · have hfault : Quantity.tolx.fault (.int (-1)) = .notPositive "tolx" (.int (-1)) :=
      if_neg (by decide +kernel)
    exact ((numeric_options hnames').2.2.1 _ hfirst).trans (congrArg _ hfault)

omit values in
/-- **A tolerance that is out of range, and not told to be so**: the error is of another class. -/
theorem oversized_tolerance :
    let given : List (String × Datum) := [("tolx", .int (-10 ^ 309))]
    ¬ (∃ o, Options.make given = .ok o) ∧ ¬ (∃ a, Options.assemble .nothing given = .ok a) ∧
      (∃ fault, Options.make given = .error fault ∧ fault.kind ≠ .value) ∧
      ∃ fault, Options.assemble .nothing given = .error fault ∧ fault.kind ≠ .value := by
  have hlarge : (Number.int (-10 ^ 309)).oversized = true := by decide +kernel
  intro given
  obtain ⟨hmake, hassemble⟩ := Options.named_of_oversized (q := .tolx) rfl hlarge
  have hgiven : given = named [(.tolx, .int (-10 ^ 309))] := rfl
  rw [hgiven, hmake, hassemble]
  have hkind : Fault.integerTooLarge.kind ≠ .value := by decide
  refine ⟨?_, ?_, ⟨_, rfl, hkind⟩, ⟨_, rfl, hkind⟩⟩
  · rintro ⟨o, ho⟩
    cases ho
  · rintro ⟨a, ha⟩
    cases ha

end Named

end VariableMetric
