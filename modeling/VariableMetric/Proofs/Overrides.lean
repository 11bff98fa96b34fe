import Mathlib
import VariableMetric.Proofs.Named

/-!
# Overrides compose

Options come of a basis and of overrides. Which of the two a value comes from does not matter, nor
in how many calls it is given: what counts is the last value of each name.

* `NamedValues.unknown`: **the names that are no options**, and `refuseUnknown_ofNamed`: they are
  refused.
* `Draft.field_setAll`, `Draft.setAll_merge`: what is set, in one go or one after the other.
* `Draft.Alike`: drafts that the check cannot tell apart; `Draft.check_setAll`: **options instead of
  the draft that they come from**.
* `Basis.outcome`: what overrides on a basis come to, and `Basis.map_assemble`.
* `overrides_compose`: **one call for several**, failures included.
-/

namespace VariableMetric

/-! ### What is refused -/

namespace NamedValues

variable {a b : NamedValues} {name : String}

/-- **The names that are no options**, in order. -/
def unknown (a : NamedValues) : List String :=
  (a.names.filter fun name => (OptionName.ofText? name).isNone).mergeSort fun s t => s ≤ t

theorem mem_unknown : name ∈ a.unknown ↔ name ∈ a.names ∧ ∀ n : OptionName, name ≠ n.text := by
  rw [unknown, List.mem_mergeSort, List.mem_filter, OptionName.isNone_ofText?_iff]

theorem unknown_eq_nil_iff :
    a.unknown = [] ↔ ∀ name ∈ a.names, ∃ n : OptionName, name = n.text := by
  rw [List.eq_nil_iff_forall_not_mem]
  simp only [mem_unknown, not_and, not_forall, not_not]

/-- The names are listed from the first to the last, each once. -/
theorem pairwise_unknown (a : NamedValues) : a.unknown.Pairwise (· < ·) := by
  have hle : a.unknown.Pairwise fun s t => decide (s ≤ t) = true := by
    refine List.pairwise_mergeSort (fun s t u hst htu => ?_) (fun s t => ?_) _
    · exact decide_eq_true ((of_decide_eq_true hst).trans (of_decide_eq_true htu))
    · rw [Bool.or_eq_true, decide_eq_true_eq, decide_eq_true_eq]
      exact le_total s t
  have hne : a.unknown.Pairwise (· ≠ ·) :=
    (List.mergeSort_perm _ _).nodup_iff.2 (a.nodup.filter _)
  exact (hle.and hne).imp fun ⟨h, h'⟩ => lt_of_le_of_ne (of_decide_eq_true h) h'

/-- What is laid over names that are all known adds its own unknown ones. -/
theorem unknown_merge (h : a.unknown = []) : (a.merge b).unknown = b.unknown := by
  have hknown : ∀ name ∈ a.names, (OptionName.ofText? name).isNone = false := by
    intro name hname
    obtain ⟨n, rfl⟩ := unknown_eq_nil_iff.1 h name hname
    rw [OptionName.ofText?_eq_some_iff.2 rfl]
    rfl
  have hold : a.names.filter (fun name => (OptionName.ofText? name).isNone) = [] :=
    List.filter_eq_nil_iff.2 fun name hname => Bool.eq_false_iff.1 (hknown name hname)
  rw [unknown, unknown, names_merge, List.filter_append, hold, List.nil_append, List.filter_filter]
  congr 1
  refine List.filter_congr fun name _ => ?_
  by_cases hname : name ∈ a.names
  · rw [hknown name hname, Bool.false_and]
  · rw [decide_eq_true hname, Bool.and_true]

end NamedValues

theorem checkOrderable_texts (names : List String) :
    checkOrderable (names.map .text) = .ok () := by
  induction names with
  | nil => rfl
  | cons s names ih =>
    cases names with
    | nil => rfl
    | cons t names => exact ih

theorem keyTexts_texts (names : List String) (position : ℕ) :
    keyTexts position (names.map .text) = .ok names := by
  induction names generalizing position with
  | nil => rfl
  | cons s names ih =>
    rw [List.map_cons, keyTexts, ih]
    rfl

/-- **Names that are no options are refused**, all of them at once and in order. -/
theorem refuseUnknown_ofNamed (a : NamedValues) :
    refuseUnknown (Entries.ofNamed a.entries) =
      if a.unknown = [] then .ok () else .error (.unknownOptions a.unknown) := by
  set unknown := a.names.filter fun name => (OptionName.ofText? name).isNone with hunknown
  have hkeys : ((Entries.ofNamed a.entries).map (·.1)).filter (fun k => k.optionName?.isNone) =
      unknown.map .text := by
    rw [Entries.ofNamed, List.map_map, hunknown, NamedValues.names, List.filter_map,
      List.filter_map, List.map_map]
    rfl
  have hsort : (unknown.map Datum.text).mergeSort keyAtMost =
      (unknown.mergeSort fun s t => s ≤ t).map .text :=
    (List.map_mergeSort (f := Datum.text) fun _ _ _ _ => rfl).symm
  have hempty : (unknown.map Datum.text).isEmpty = true ↔ a.unknown = [] := by
    rw [List.isEmpty_iff, List.map_eq_nil_iff, NamedValues.unknown, ← List.length_eq_zero_iff,
      ← List.length_eq_zero_iff, List.length_mergeSort]
  unfold refuseUnknown
  rw [hkeys]
  by_cases h : a.unknown = []
  · rw [if_pos h]
    simp only [hempty.2 h, if_true]
    rfl
  · rw [if_neg h]
    simp only [mt hempty.1 h, Bool.false_eq_true, if_false, checkOrderable_texts, hsort,
      keyTexts_texts]
    rfl

/-! ### What is set -/

namespace Draft

/-- The value of an option. -/
def field (o : Draft) : OptionName → Display ⊕ Datum
  | .maxiter => .inr o.maxiter
  | .tolx => .inr o.tolx
  | .tolfun => .inr o.tolfun
  | .backtrack => .inr o.backtrack
  | .display => o.display
  | .minStep => .inr o.minStep
  | .curvatureTol => .inr o.curvatureTol

theorem ext_field {a b : Draft} (h : ∀ n, a.field n = b.field n) : a = b := by
  obtain ⟨m, tx, tf, bt, d, ms, ct⟩ := a
  obtain ⟨m', tx', tf', bt', d', ms', ct'⟩ := b
  cases h .maxiter
  cases h .tolx
  cases h .tolfun
  cases h .backtrack
  cases h .display
  cases h .minStep
  cases h .curvatureTol
  rfl

theorem field_set (o : Draft) (m n : OptionName) (d : Datum) :
    (o.set m d).field n = if m = n then .inr d else o.field n := by
  cases m <;> cases n <;> rfl

/-- The draft with the option of a name, if it is one, set. -/
def enter (o : Draft) (n : Option OptionName) (d : Datum) : Draft := n.elim o (o.set · d)

theorem setAll_cons (o : Draft) (e : Datum × Datum) (entries : Entries) :
    o.setAll (e :: entries) = (o.enter e.1.optionName? e.2).setAll entries := by
  unfold setAll
  rw [List.foldl_cons]
  cases e.1.optionName? <;> rfl

theorem field_enter (o : Draft) (name : String) (d : Datum) (n : OptionName) :
    (o.enter (OptionName.ofText? name) d).field n =
      if n.text = name then .inr d else o.field n := by
  cases hm : OptionName.ofText? name with
  | none =>
    have hne : n.text ≠ name := by
      intro h
      rw [OptionName.ofText?_eq_some_iff.2 h.symm] at hm
      cases hm
    rw [if_neg hne]
    rfl
  | some m =>
    have hname : name = m.text := OptionName.ofText?_eq_some_iff.1 hm
    refine (field_set o m n d).trans ?_
    by_cases hmn : m = n
    · rw [if_pos hmn, if_pos (by rw [hname, hmn])]
    · have hne : n.text ≠ name := by
        intro h
        exact hmn (OptionName.text_injective (hname.symm.trans h.symm))
      rw [if_neg hmn, if_neg hne]

/-- **To set values by name** gives every option the value of its name, if there is one. -/
theorem field_setAll (o : Draft) (a : NamedValues) (n : OptionName) :
    (o.setAll (.ofNamed a.entries)).field n = ((a.value? n.text).map .inr).getD (o.field n) := by
  obtain ⟨l, hl⟩ := a
  induction l generalizing o with
  | nil => rfl
  | cons e l ih =>
    have hcons : (e.1 :: l.map (·.1)).Nodup := hl
    obtain ⟨hnew, hl'⟩ := List.nodup_cons.1 hcons
    have hvalue : (⟨e :: l, hl⟩ : NamedValues).value? n.text =
        if n.text = e.1 then some e.2 else (⟨l, hl'⟩ : NamedValues).value? n.text := by
      rw [NamedValues.value?, List.lookup_cons]
      by_cases h : n.text = e.1
      · simp [h]
      · rw [beq_eq_false_iff_ne.2 h, if_neg h]
        rfl
    have hfirst : o.setAll (.ofNamed (e :: l)) =
        (o.enter (OptionName.ofText? e.1) e.2).setAll (.ofNamed l) := setAll_cons o _ _
    rw [hfirst, ih _ hl', hvalue, field_enter]
    by_cases h : n.text = e.1
    · -- the option is set here, and not again
      have hnone : (⟨l, hl'⟩ : NamedValues).value? n.text = none :=
        NamedValues.value?_eq_none_iff.2 fun hmem => hnew (h ▸ hmem)
      rw [hnone, if_pos h, if_pos h]
      rfl
    · rw [if_neg h, if_neg h]

/-- **To set a merge** is to set one after the other. -/
theorem setAll_merge (o : Draft) (a b : NamedValues) :
    o.setAll (.ofNamed (a.merge b).entries) =
      (o.setAll (.ofNamed a.entries)).setAll (.ofNamed b.entries) := by
  refine ext_field fun n => ?_
  rw [field_setAll, field_setAll, field_setAll, NamedValues.value?_merge]
  cases b.value? n.text <;> rfl

/-! ### Drafts that read alike -/

/-- A level as it is, any other value by what it names. -/
def readDisplay : Display ⊕ Datum → Except Fault Display
  | .inl level => .ok level
  | .inr d => Display.parse d

/-- **Two drafts read alike**: the check finds the same in both, option by option. -/
structure Alike (a b : Draft) : Prop where
  maxiter : checkCount a.maxiter = checkCount b.maxiter
  tolx : checkPositive "tolx" a.tolx = checkPositive "tolx" b.tolx
  tolfun : checkPositive "tolfun" a.tolfun = checkPositive "tolfun" b.tolfun
  minStep : checkPositive "min_step" a.minStep = checkPositive "min_step" b.minStep
  backtrack : checkFraction a.backtrack = checkFraction b.backtrack
  curvatureTol : checkNonNegative a.curvatureTol = checkNonNegative b.curvatureTol
  display : readDisplay a.display = readDisplay b.display

theorem check_eq (o : Draft) : o.check = (do
    let maxiter ← checkCount o.maxiter
    let tolx ← checkPositive "tolx" o.tolx
    let tolfun ← checkPositive "tolfun" o.tolfun
    let minStep ← checkPositive "min_step" o.minStep
    let backtrack ← checkFraction o.backtrack
    let curvatureTol ← checkNonNegative o.curvatureTol
    let display ← readDisplay o.display
    return { maxiter, tolx, tolfun, backtrack, display, minStep, curvatureTol }) := by
  unfold check
  cases o.display <;> rfl

/-- Drafts that read alike pass the check alike, and fail it alike. -/
theorem Alike.check_eq {a b : Draft} (h : a.Alike b) : a.check = b.check := by
  rw [Draft.check_eq, Draft.check_eq, h.maxiter, h.tolx, h.tolfun, h.minStep, h.backtrack,
    h.curvatureTol, h.display]

theorem Alike.set {a b : Draft} (h : a.Alike b) (n : OptionName) (d : Datum) :
    (a.set n d).Alike (b.set n d) := by
  cases n with
  | maxiter => exact { h with maxiter := rfl }
  | tolx => exact { h with tolx := rfl }
  | tolfun => exact { h with tolfun := rfl }
  | backtrack => exact { h with backtrack := rfl }
  | display => exact { h with display := rfl }
  | minStep => exact { h with minStep := rfl }
  | curvatureTol => exact { h with curvatureTol := rfl }

theorem Alike.enter {a b : Draft} (h : a.Alike b) (n : Option OptionName) (d : Datum) :
    (a.enter n d).Alike (b.enter n d) := by
  cases n with
  | none => exact h
  | some n => exact h.set n d

/-- **Drafts that read alike** do so whatever is set in both. -/
theorem Alike.setAll {a b : Draft} (h : a.Alike b) (entries : Entries) :
    (a.setAll entries).Alike (b.setAll entries) := by
  induction entries generalizing a b with
  | nil => exact h
  | cons e entries ih =>
    rw [setAll_cons, setAll_cons]
    exact ih (h.enter e.1.optionName? e.2)

/-- **What passes the check** reads like the options that it comes to. -/
theorem alike_of_check {d : Draft} {o : Options} (h : d.check = .ok o) :
    d.Alike (.ofOptions o) := by
  have hpositive {name : String} {d : Datum} {a : Number} (ha : checkPositive name d = .ok a) :
      checkPositive name d = checkPositive name a.toDatum := by
    obtain ⟨-, hfits⟩ := checkPositive_eq_ok_iff.1 ha
    exact ha.trans (checkPositive_eq_ok_iff.2 ⟨a.number?_toDatum, hfits⟩).symm
  rw [check_eq] at h
  obtain ⟨maxiter, hmaxiter, h⟩ := exists_of_bind_ok h
  obtain ⟨tolx, htolx, h⟩ := exists_of_bind_ok h
  obtain ⟨tolfun, htolfun, h⟩ := exists_of_bind_ok h
  obtain ⟨minStep, hminStep, h⟩ := exists_of_bind_ok h
  obtain ⟨backtrack, hbacktrack, h⟩ := exists_of_bind_ok h
  obtain ⟨curvatureTol, hcurvatureTol, h⟩ := exists_of_bind_ok h
  obtain ⟨display, hdisplay, h⟩ := exists_of_bind_ok h
  cases h
  have hbounds := fraction_of_checkFraction hbacktrack
  obtain ⟨-, hnonneg⟩ := checkNonNegative_eq_ok_iff.1 hcurvatureTol
  exact {
    maxiter := hmaxiter.trans (checkCount_eq_ok_iff.2 (.inl rfl)).symm
    tolx := hpositive htolx
    tolfun := hpositive htolfun
    minStep := hpositive hminStep
    backtrack := hbacktrack.trans (checkFraction_float hbounds.1 hbounds.2).symm
    curvatureTol := hcurvatureTol.trans
      (checkNonNegative_eq_ok_iff.2 ⟨curvatureTol.number?_toDatum, hnonneg⟩).symm
    display := hdisplay }

/-- **Options instead of the draft** that they come from make no difference to what is set next. -/
theorem check_setAll {d : Draft} {o : Options} (h : d.check = .ok o) (entries : Entries) :
    ((ofOptions o).setAll entries).check = (d.setAll entries).check :=
  ((alike_of_check h).setAll entries).check_eq.symm

end Draft

/-! ### Equal options -/

section Same

theorem Number.lt_self (a : Number) : a.lt a = false := by
  cases a with
  | bool b => exact decide_eq_false (lt_irrefl _)
  | int n | sizedInt n => exact decide_eq_false (lt_irrefl _)
  | float x | sizedFloat x => exact Scalar.lt_irrefl x

/-- **A finite number is equal to itself.** -/
theorem Number.same_self {a : Number} (h : a.IsFinite) : a.same a = true := by
  have hnumber : a.isNaN = false := by
    obtain ⟨y, hy, hfin⟩ := h
    cases a with
    | bool b | int n | sizedInt n => rfl
    | float x | sizedFloat x =>
      cases hy
      exact (Double.le_self_iff x).1 (Scalar.Ordered.le_self_of_isFinite hfin)
  rw [same, hnumber, lt_self]
  rfl

end Same

namespace Options

/-- **Valid options are equal to themselves**: there is no NaN in them. -/
theorem Valid.same_self {o : Options} (h : o.Valid) : o.same o = true := by
  have hfactor : (o.backtrack == o.backtrack) = true := by
    have hnumber := (Double.le_self_iff o.backtrack).1 (Scalar.le_self_of_lt h.backtrack.2)
    exact Double.beq_self (a := o.backtrack.toModel.unpack) hnumber
  simp only [same, beq_self_eq_true, hfactor, Number.same_self h.tolx.1,
    Number.same_self h.tolfun.1, Number.same_self h.minStep.1, Number.same_self h.curvatureTol.1,
    Bool.and_self]

/-- The options by name, as they would be given. -/
def fields (o : Options) : NamedValues where
  entries := [("maxiter", .int o.maxiter), ("tolx", o.tolx.toDatum), ("tolfun", o.tolfun.toDatum),
    ("backtrack", .float o.backtrack), ("display", .text o.display.name),
    ("min_step", o.minStep.toDatum), ("curvature_tol", o.curvatureTol.toDatum)]
  nodup := by
    change ["maxiter", "tolx", "tolfun", "backtrack", "display", "min_step", "curvature_tol"].Nodup
    decide

theorem unknown_fields (o : Options) : o.fields.unknown = [] := by
  refine NamedValues.unknown_eq_nil_iff.2 fun name hname => ?_
  have hnames : o.fields.names = [.maxiter, .tolx, .tolfun, .backtrack, .display, .minStep,
      .curvatureTol].map OptionName.text := rfl
  rw [hnames, List.mem_map] at hname
  obtain ⟨n, -, rfl⟩ := hname
  exact ⟨n, rfl⟩

/-- **Options set to what they are** pass the check unchanged. -/
theorem Valid.check_fields {o : Options} (h : o.Valid) :
    ((Draft.ofOptions o).setAll (.ofNamed o.fields.entries)).check = .ok o := by
  have hdisplay : Display.parse (.text o.display.name) = .ok o.display := by
    cases o.display <;> rfl
  have halike : ((Draft.ofOptions o).setAll (.ofNamed o.fields.entries)).Alike (.ofOptions o) :=
    { maxiter := rfl, tolx := rfl, tolfun := rfl, minStep := rfl, backtrack := rfl,
      curvatureTol := rfl, display := hdisplay }
  exact halike.check_eq.trans h.check_eq

end Options

/-! ### Bases -/

/-- **What options are built on**: nothing, options, or values by name. -/
inductive Basis where
  | nothing
  | options (o : Options) (valid : o.Valid)
  | values (m : NamedValues)

namespace Basis

/-- The basis as a base. -/
def toBase : Basis → Base
  | nothing => .nothing
  | options o _ => .options o
  | values m => .value (.dictionary m.entries)

/-- The options to start from. -/
def start : Basis → Options
  | options o _ => o
  | _ => .default

/-- The values that come with the basis. -/
def given : Basis → NamedValues
  | values m => m
  | _ => .empty

/-- The basis is options. -/
def isOptions : Basis → Bool
  | options _ _ => true
  | _ => false

theorem start_valid (b : Basis) : b.start.Valid := by
  cases b with
  | options o valid => exact valid
  | nothing | values m => exact Options.default_valid

variable {b : Basis} {o : NamedValues}

/-- **What overrides on a basis come to**: what the check makes of the options to start from, with
the values of the basis set and the overrides laid over them, unless there are unknown names. -/
def outcome (b : Basis) (o : NamedValues) : Except Fault Options :=
  let all := b.given.merge o
  if all.unknown = [] then ((Draft.ofOptions b.start).setAll (.ofNamed all.entries)).check
  else .error (.unknownOptions all.unknown)

theorem outcome_eq_ok_iff {options : Options} :
    b.outcome o = .ok options ↔ (b.given.merge o).unknown = [] ∧
      ((Draft.ofOptions b.start).setAll (.ofNamed (b.given.merge o).entries)).check =
        .ok options := by
  unfold outcome
  by_cases h : (b.given.merge o).unknown = [] <;> simp [h]

theorem assemble_eq (h : "base" ∉ o.names) :
    Options.assemble b.toBase o.entries =
      Options.complete b.start b.isOptions (.ofNamed (b.given.merge o).entries) := by
  have hbase : o.entries.any (·.1 == "base") = false := by
    refine List.any_eq_false.2 fun e he heq => h ?_
    exact beq_iff_eq.1 heq ▸ List.mem_map_of_mem he
  rw [← Entries.foldl_put_ofNamed]
  simp only [Options.assemble, hbase, Bool.false_eq_true, if_false]
  cases b <;> rfl

/-- **The call comes to that.** -/
theorem map_assemble (h : "base" ∉ o.names) :
    (Options.assemble b.toBase o.entries).map (·.options) = b.outcome o := by
  rw [assemble_eq h, Options.complete, refuseUnknown_ofNamed, outcome]
  generalize b.given.merge o = all
  by_cases hknown : all.unknown = []
  · simp only [hknown, if_true]
    obtain ⟨l, hl⟩ := all
    cases l with
    | nil =>
      -- with nothing to set, the options come back unchecked, and would pass
      exact b.start_valid.check_eq.symm
    | cons e l =>
      change ((Draft.setAll _ _).check >>= fun o => Except.ok (⟨o, false⟩ : Assembled)).map _ = _
      cases ((Draft.ofOptions b.start).setAll (.ofNamed (e :: l))).check <;> rfl
  · simp only [hknown, if_false]
    rfl

theorem assembled_valid {a : Assembled} (h : Options.assemble b.toBase o.entries = .ok a) :
    a.options.Valid := by
  refine (Options.assemble_valid ?_ h).1
  cases b with
  | options o valid => exact valid
  | nothing | values m => trivial

end Basis

/-- **The same outcome**: both return, with equal options, or both fail with the same fault. -/
def SameOutcome (x y : Except Fault Assembled) : Prop :=
  match x, y with
  | .ok a, .ok b => a.options = b.options ∧ a.options.same b.options = true
  | .error e, .error e' => e = e'
  | _, _ => False

theorem sameOutcome_of_map {x y : Except Fault Assembled}
    (h : x.map (·.options) = y.map (·.options)) (hvalid : ∀ a, x = .ok a → a.options.Valid) :
    SameOutcome x y := by
  cases x with
  | error e =>
    obtain hy := eq_error_of_map h.symm
    rw [hy]
    exact rfl
  | ok a =>
    obtain ⟨b, rfl, hb⟩ := exists_of_map_ok h.symm
    refine ⟨hb.symm, ?_⟩
    rw [hb]
    exact (hvalid a rfl).same_self

section Compose

variable {b b' : Basis} {o o₁ o₂ : NamedValues}

theorem sameOutcome_of_outcome (h₁ : "base" ∉ o₁.names) (h₂ : "base" ∉ o₂.names)
    (h : b.outcome o₁ = b'.outcome o₂) :
    SameOutcome (Options.assemble b.toBase o₁.entries)
      (Options.assemble b'.toBase o₂.entries) := by
  have hmap := (Basis.map_assemble h₁).trans (h.trans (Basis.map_assemble h₂).symm)
  exact sameOutcome_of_map hmap fun a ha => Basis.assembled_valid ha

/-- **Two sets of overrides**, one after the other or in one go. -/
theorem outcome_merge {r : Options} (hr : r.Valid) (h : b.outcome o₁ = .ok r) (o₂ : NamedValues) :
    (Basis.options r hr).outcome o₂ = b.outcome (o₁.merge o₂) := by
  obtain ⟨hknown, hcheck⟩ := Basis.outcome_eq_ok_iff.1 h
  have hafter : (Basis.options r hr).given.merge o₂ = o₂ := NamedValues.empty_merge o₂
  have hatOnce : b.given.merge (o₁.merge o₂) = (b.given.merge o₁).merge o₂ :=
    (NamedValues.merge_assoc _ _ _).symm
  have hdraft : ((Draft.ofOptions r).setAll (.ofNamed o₂.entries)).check =
      ((Draft.ofOptions b.start).setAll (.ofNamed ((b.given.merge o₁).merge o₂).entries)).check := by
    rw [Draft.setAll_merge]
    exact Draft.check_setAll hcheck _
  simp only [Basis.outcome, hafter, hatOnce, NamedValues.unknown_merge hknown]
  rw [← hdraft]
  rfl

/-- **A mapping**, as the base or among the overrides. -/
theorem outcome_values (m o : NamedValues) :
    (Basis.values m).outcome o = Basis.nothing.outcome (m.merge o) := by
  have hnone : Basis.nothing.given.merge (m.merge o) = m.merge o := NamedValues.empty_merge _
  simp only [Basis.outcome, hnone]
  rfl

/-- **All options set to what they are**: they come back equal, as new ones. -/
theorem assemble_fields {r : Options} (hr : r.Valid) :
    Options.assemble (.options r) r.fields.entries = .ok ⟨r, false⟩ := by
  have hbase : "base" ∉ r.fields.names := by
    change "base" ∉ ["maxiter", "tolx", "tolfun", "backtrack", "display", "min_step",
      "curvature_tol"]
    decide
  have hmerge : (Basis.options r hr).given.merge r.fields = r.fields := NamedValues.empty_merge _
  refine (Basis.assemble_eq (b := .options r hr) hbase).trans ?_
  rw [hmerge, Options.complete, refuseUnknown_ofNamed, if_pos r.unknown_fields]
  change ((Draft.setAll (.ofOptions r) (.ofNamed r.fields.entries)).check >>= fun o =>
    Except.ok (⟨o, false⟩ : Assembled)) = _
  rw [hr.check_fields]
  rfl

/-- **Names that are no options** are refused before any value is looked at. -/
theorem assemble_of_unknown (h : "base" ∉ o.names) (hne : (b.given.merge o).unknown ≠ []) :
    Options.assemble b.toBase o.entries = .error (.unknownOptions (b.given.merge o).unknown) := by
  refine eq_error_of_map (f := (·.options)) ?_
  rw [Basis.map_assemble h]
  exact if_neg hne

end Compose

/-- **Overrides compose.** Let no override be named like the base.

* Where options come of some overrides, to lay others over these options comes to the same as to lay
  them over the first overrides and to start from the basis again, failures included.
* A mapping as the base comes to the same as its entries among the overrides.
* Names that are no options are refused with a value error that lists them in order, each once,
  whatever the values are.
* Options are read by the check as they are, and remain themselves if all of them are set again. -/
theorem overrides_compose (b : Basis) (o₁ o₂ : NamedValues) (h₁ : "base" ∉ o₁.names)
    (h₂ : "base" ∉ o₂.names) :
    (∀ a, Options.assemble b.toBase o₁.entries = .ok a →
      SameOutcome (Options.assemble (.options a.options) o₂.entries)
        (Options.assemble b.toBase (o₁.merge o₂).entries)) ∧
    (∀ m : NamedValues, "base" ∉ m.names →
      SameOutcome (Options.assemble (.value (.dictionary m.entries)) o₁.entries)
        (Options.assemble .nothing (m.merge o₁).entries)) ∧
    ((∃ name, (name ∈ b.given.names ∨ name ∈ o₁.names) ∧ ∀ n : OptionName, name ≠ n.text) →
      ∃ names, Options.assemble b.toBase o₁.entries = .error (.unknownOptions names) ∧
        (Fault.unknownOptions names).kind = .value ∧
        (Fault.unknownOptions names).message = "Unknown option(s): " ++ ", ".intercalate names ∧
        names.Pairwise (· < ·) ∧
        ∀ name, name ∈ names ↔
          (name ∈ b.given.names ∨ name ∈ o₁.names) ∧ ∀ n : OptionName, name ≠ n.text) ∧
    (∀ a, Options.assemble b.toBase o₁.entries = .ok a →
      (Draft.ofOptions a.options).check = .ok a.options ∧
      Options.assemble (.options a.options) a.options.fields.entries = .ok ⟨a.options, false⟩ ∧
      a.options.same a.options = true) := by
  have hmerge {a b : NamedValues} (ha : "base" ∉ a.names) (hb : "base" ∉ b.names) :
      "base" ∉ (a.merge b).names := by
    rw [NamedValues.mem_names_merge, not_or]
    exact ⟨ha, hb⟩
  have houtcome {a : Assembled} (ha : Options.assemble b.toBase o₁.entries = .ok a) :
      b.outcome o₁ = .ok a.options := by
    rw [← Basis.map_assemble h₁, ha]
    rfl
  refine ⟨fun a ha => ?_, fun m hm => ?_, fun ⟨name, hmem, hname⟩ => ?_, fun a ha => ?_⟩
  · have hvalid := Basis.assembled_valid ha
    exact sameOutcome_of_outcome (b := .options a.options hvalid) h₂ (hmerge h₁ h₂)
      (outcome_merge hvalid (houtcome ha) o₂)
  · have hvalues : (Basis.values m).outcome o₁ = Basis.nothing.outcome (m.merge o₁) :=
      outcome_values m o₁
    exact sameOutcome_of_outcome h₁ (hmerge hm h₁) hvalues
  · have hunknown (name : String) : name ∈ (b.given.merge o₁).unknown ↔
        (name ∈ b.given.names ∨ name ∈ o₁.names) ∧ ∀ n : OptionName, name ≠ n.text := by
      rw [NamedValues.mem_unknown, NamedValues.mem_names_merge]
    have hne : (b.given.merge o₁).unknown ≠ [] :=
      List.ne_nil_of_mem ((hunknown name).2 ⟨hmem, hname⟩)
    exact ⟨_, assemble_of_unknown h₁ hne, rfl, rfl, NamedValues.pairwise_unknown _, hunknown⟩
  · have hvalid := Basis.assembled_valid ha
    exact ⟨hvalid.check_eq, assemble_fields hvalid, hvalid.same_self⟩

/-- A mapping with a tolerance that overrides replace, and more overrides that are refused. -/
theorem overrides_compose_refused :
    let b : Basis := .values ⟨[("maxiter", .sizedInt 7), ("tolx", .text "small")], by decide⟩
    let o₁ : NamedValues := ⟨[("tolx", .float 0.25), ("display", .text " ITER ")], by decide⟩
    let o₂ : NamedValues := ⟨[("tolx", .int 0), ("step", .int 1), ("Tolx", .nothing)], by decide⟩
    ∃ a, Options.assemble b.toBase o₁.entries = .ok a ∧ a.options.maxiter = 7 ∧
      SameOutcome (Options.assemble (.options a.options) o₂.entries)
        (Options.assemble b.toBase (o₁.merge o₂).entries) ∧
      Options.assemble b.toBase (o₁.merge o₂).entries =
        .error (.unknownOptions ["Tolx", "step"]) := by
  intro b o₁ o₂
  have h₁ : "base" ∉ o₁.names := by decide
  have h₂ : "base" ∉ o₂.names := by decide
  have h₁₂ : "base" ∉ (o₁.merge o₂).names := by decide
  have hmaxiter : (Options.assemble b.toBase o₁.entries).toOption.map (·.options.maxiter) =
      some 7 := by decide +kernel
  obtain ⟨a, hsome, hseven⟩ := Option.map_eq_some_iff.1 hmaxiter
  have ha : Options.assemble b.toBase o₁.entries = .ok a := by
    cases hx : Options.assemble b.toBase o₁.entries with
    | error e =>
      rw [hx] at hsome
      cases hsome
    | ok a' =>
      rw [hx] at hsome
      cases hsome
      rfl
  obtain ⟨hcompose, -, -, -⟩ := overrides_compose b o₁ o₂ h₁ h₂
  have hunsorted : (b.given.merge (o₁.merge o₂)).names.filter
      (fun name => (OptionName.ofText? name).isNone) = ["step", "Tolx"] := by decide
  have hunknown : (b.given.merge (o₁.merge o₂)).unknown = ["Tolx", "step"] := by
    rw [NamedValues.unknown, hunsorted]
    cbv
  refine ⟨a, ha, hseven, hcompose a ha, ?_⟩
  rw [assemble_of_unknown h₁₂ (by rw [hunknown]; exact List.cons_ne_nil _ _), hunknown]

end VariableMetric
