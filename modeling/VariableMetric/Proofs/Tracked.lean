import Mathlib.Data.Real.Basic
import VariableMetric.Objective.Formula
import VariableMetric.Proofs.Derivative
import VariableMetric.Proofs.Oracle

/-!
# Tracked objectives

A tracked objective computes at a point once for its value alone, and once for value and gradient.
Both times the same computation is recorded.

* `Recorded.view_entry`: a coordinate of a point, as it is recorded.
* `Objective.recorded`: the recorded computation at a point.
* `Objective.value_tracked`, `Objective.both_tracked`: what each of the two modes makes of it.
* `arrayFormats`, `arrayForm_iff`: the formats whose gradients can be handed out.
* `modes_of_accepted`: **what the modes of an accepted objective have in common**, and where they
  part.
* `gradient_is_derivative`: **the gradient is the derivative**, in exact arithmetic.
-/

namespace VariableMetric

/-! ### Coordinates -/

section Coordinates

variable {α : Type} {n : ℕ}

theorem cells_map_ofVec (f : α → α) (x : Vec α n) : ((NdArray.ofVec x).map f).shape.cells = n :=
  Nat.mul_one n

/-- **A coordinate** of a vector as it is recorded. -/
theorem Recorded.view_entry [Elementary α] (f : α → α) (x : Vec α n) (i : Fin n) :
    (Recorded.view ((NdArray.ofVec x).map f)).entry i =
      .ok ⟨[], .coordinate (i.cast (cells_map_ofVec f x).symm) (f (x.get i))⟩ := by
  have hplace : i.val * Shape.cells [] = i.val := Nat.mul_one i.val
  have hi : i.val < ((NdArray.ofVec x).map f).shape.cells :=
    lt_of_lt_of_eq i.isLt (cells_map_ofVec f x).symm
  have hget : ((NdArray.ofVec x).map f).entries.get ⟨i, hi⟩ = f (x.get i) :=
    Vector.getElem_map f hi
  calc (Recorded.view ((NdArray.ofVec x).map f)).entry i
    _ = if i.val < n then
          .ok ⟨[], Recorded.cell ((NdArray.ofVec x).map f).entries (i.val * Shape.cells [])⟩
        else .error (.tensorCoordinateMissing i n) := rfl
    _ = .ok ⟨[], .coordinate (i.cast (cells_map_ofVec f x).symm) (f (x.get i))⟩ := by
      rw [if_pos i.isLt, hplace, Recorded.cell, dif_pos hi, hget]
      rfl

end Coordinates

/-! ### The two modes -/

namespace Objective

variable {α ν σ : Type} {note : Call → Talk σ Unit} {w w' : σ} {c : Call}

/-- The recorded computation at a point, which is rounded first. -/
def recorded (record : Recording α) (p : Precision α) (x : NdArray α) :
    Except Fault (Graph α x.shape.cells) := do
  let r ← record (x.map p.round)
  r.toScalar

theorem recordAt_run (hnote : (note c).run.run w = (.ok (), w')) (record : Recording α)
    (p : Precision α) (x : NdArray α) :
    (recordAt note c record p x).run.run w = (recorded record p x, w') := by
  unfold recordAt recorded invoke
  rw [Talk.run_bind, Talk.run_bind, hnote]
  cases record (x.map p.round) <;> rfl

/-- A coordinate is recorded as it is rounded. -/
theorem recorded_coordinate [Elementary α] {n : ℕ} (p : Precision α) (x : Vec α n) (i : Fin n) :
    recorded ((Expr.coordinate i).recording p) p (.ofVec x) =
      .ok (.coordinate (i.cast (cells_map_ofVec p.round x).symm) (p.round (x.get i))) :=
  congrArg (fun r => r >>= Recorded.toScalar) (Recorded.view_entry p.round x i)

variable [Reading ν α]

/-- **The value** of a tracked objective is that of the recorded computation. -/
theorem value_tracked (hnote : (note .untracked).run.run w = (.ok (), w')) (record : Recording α)
    (p : Precision α) (x : NdArray α) :
    ((tracked record p : Objective α ν).value note x).run.run w =
      ((recorded record p x).map fun g => .read g.value, w') := by
  rw [value, Talk.run_bind, recordAt_run hnote]
  cases recorded record p x <;> rfl

/-- **Value and gradient** of a tracked objective are those of the recorded computation. -/
theorem both_tracked [Elementary α] (hnote : (note .tracked).run.run w = (.ok (), w'))
    (record : Recording α) (p : Precision α) (x : NdArray α) :
    ((tracked record p : Objective α ν).both note x).run.run w =
      ((recorded record p x).bind fun g =>
        if p.arrayForm then .ok (.read (g.value, ⟨x.shape, g.gradient p⟩))
        else .error (.noArrayForm p.name), w') := by
  rw [both, Talk.run_bind, recordAt_run hnote]
  cases recorded record p x with
  | error e => rfl
  | ok g => cases p.arrayForm <;> rfl

/-- **What is accepted** is a callable, with the name of a format of real numbers. -/
theorem tracked_of_accepted {f : Argument (Precision Float → Recording Float)} {name : String}
    {o : Objective Float ν} (h : ofTracked f name = .ok o) :
    ∃ format p record, Precision.formatName? name = some format ∧ f = .callable record ∧
      Precision.ofFormat format = .ok p ∧ o = .tracked (record p) p := by
  unfold ofTracked at h
  cases hformat : Precision.formatName? name with
  | none =>
    rw [hformat] at h
    cases h
  | some format =>
    cases f with
    | value d =>
      rw [hformat] at h
      cases h
    | callable record =>
      cases hp : Precision.ofFormat format with
      | error e =>
        simp only [hformat, hp] at h
        cases h
      | ok p =>
        simp only [hformat, hp] at h
        cases h
        exact ⟨format, p, record, rfl, rfl, hp, rfl⟩

end Objective

/-- The formats whose numbers fit into arrays. -/
def arrayFormats : List String := ["float64", "float32", "float16"]

/-- **Gradients are handed out** in the formats of arrays only. -/
theorem arrayForm_iff {format : String} {p : Precision Float}
    (h : Precision.ofFormat format = .ok p) : p.arrayForm = true ↔ format ∈ arrayFormats := by
  unfold Precision.ofFormat at h
  split at h <;> cases h <;> decide

section Modes

variable {ν σ : Type} [Reading ν Float] {note : Call → Talk σ Unit} {w w₁ w₂ : σ}

/-- **The modes of an accepted objective**, for every format, callable and point. Where the value
cannot be had, both modes fail alike. Where it can, a format of arrays gives the same value with a
gradient in the shape of the point; any other format refuses the gradient, after the callable was
called. -/
theorem modes_of_accepted {f : Argument (Precision Float → Recording Float)} {name : String}
    {o : Objective Float ν} (h : Objective.ofTracked f name = .ok o)
    (hvalue : (note .untracked).run.run w = (.ok (), w₁))
    (hboth : (note .tracked).run.run w = (.ok (), w₂)) (x : NdArray Float) :
    ∃ format p, Precision.formatName? name = some format ∧ Precision.ofFormat format = .ok p ∧
      ((∃ e, (o.value note x).run.run w = (.error e, w₁) ∧
          (o.both note x).run.run w = (.error e, w₂)) ∨
        ∃ v, (o.value note x).run.run w = (.ok (.read v), w₁) ∧
          (format ∈ arrayFormats → ∃ g : NdArray Float, g.shape = x.shape ∧
            (o.both note x).run.run w = (.ok (.read (v, g)), w₂)) ∧
          (format ∉ arrayFormats →
            (o.both note x).run.run w = (.error (.noArrayForm p.name), w₂))) := by
  obtain ⟨format, p, record, hformat, -, hp, rfl⟩ := Objective.tracked_of_accepted h
  refine ⟨format, p, hformat, hp, ?_⟩
  rw [Objective.value_tracked hvalue, Objective.both_tracked hboth, ← arrayForm_iff hp]
  cases Objective.recorded (record p) p x with
  | error e => exact .inl ⟨e, rfl, rfl⟩
  | ok g =>
    refine .inr ⟨g.value, rfl, fun harray => ⟨⟨x.shape, g.gradient p⟩, rfl, ?_⟩, fun harray => ?_⟩
    · simp only [Except.bind, harray, if_true]
    · simp only [Except.bind, harray]
      rfl

/-- The coordinate of a point on a line, in single precision. -/
theorem modes_of_accepted_coordinate :
    let f : Argument (Precision Float → Recording Float) := .callable (Expr.coordinate 0).recording
    let note : Call → Talk (List Call) Unit := fun c => modify (c :: ·)
    let x : NdArray Float := .ofVec #v[2]
    ∃ o : Objective Float Datum, Objective.ofTracked f "float" = .ok o ∧
      (note .untracked).run.run [] = (.ok (), [.untracked]) ∧
      (note .tracked).run.run [] = (.ok (), [.tracked]) ∧
      (o.value note x).run.run [] = (.ok (.read 2), [.untracked]) ∧
      (o.both note x).run.run [] = (.ok (.read (2, .ofVec #v[1])), [.tracked]) := by
  intro f note x
  have haccepted : Objective.ofTracked (ν := Datum) f "float" =
      .ok (.tracked ((Expr.coordinate 0).recording .single) .single) := rfl
  have hvalue : (note .untracked).run.run [] = (.ok (), [.untracked]) := rfl
  have hboth : (note .tracked).run.run [] = (.ok (), [.tracked]) := rfl
  have hrecorded : Objective.recorded ((Expr.coordinate 0).recording .single) .single x =
      .ok (.coordinate ⟨0, Nat.one_pos⟩ (Precision.single.round 2)) :=
    Objective.recorded_coordinate Precision.single #v[2] 0
  have htwo : Precision.single.round 2 = 2 := by decide +kernel
  rw [htwo] at hrecorded
  refine ⟨_, haccepted, hvalue, hboth, ?_⟩
  obtain ⟨format, p, hformat, -, ⟨e, hfails, -⟩ | ⟨v, hv, harray, -⟩⟩ :=
    modes_of_accepted haccepted hvalue hboth x
  · rw [Objective.value_tracked hvalue, hrecorded] at hfails
    cases hfails
  · obtain rfl : "float32" = format := Option.some.inj hformat
    obtain ⟨g, -, hg⟩ := harray (by decide)
    -- the value and the gradient that exist are those of the recorded coordinate
    have hcomputed := hv
    rw [Objective.value_tracked hvalue, hrecorded] at hcomputed
    obtain rfl : 2 = v := Handed.read.inj (Except.ok.inj (congrArg Prod.fst hcomputed))
    have hswept := hg
    rw [Objective.both_tracked hboth, hrecorded] at hswept
    have hgradient : NdArray.ofVec #v[1] = g :=
      congrArg Prod.snd (Handed.read.inj (Except.ok.inj (congrArg Prod.fst hswept)))
    rw [hgradient]
    exact ⟨hv, hg⟩

/-- **The modes part**: in the eight leading bits of a single, the coordinate of a point has a value
that is refused once its gradient is asked for. -/
theorem modes_part_in_brain :
    let f : Argument (Precision Float → Recording Float) := .callable (Expr.coordinate 0).recording
    let note : Call → Talk (List Call) Unit := fun c => modify (c :: ·)
    let x : NdArray Float := .ofVec #v[1]
    ∃ o : Objective Float Datum, Objective.ofTracked f "bfloat16" = .ok o ∧
      (o.value note x).run.run [] = (.ok (.read 1), [.untracked]) ∧
      (o.both note x).run.run [] = (.error (.noArrayForm "BFloat16"), [.tracked]) := by
  intro f note x
  have haccepted : Objective.ofTracked (ν := Datum) f "bfloat16" =
      .ok (.tracked ((Expr.coordinate 0).recording .brain) .brain) := rfl
  have hvalue : (note .untracked).run.run [] = (.ok (), [.untracked]) := rfl
  have hboth : (note .tracked).run.run [] = (.ok (), [.tracked]) := rfl
  have hrecorded : Objective.recorded ((Expr.coordinate 0).recording .brain) .brain x =
      .ok (.coordinate ⟨0, Nat.one_pos⟩ (Precision.brain.round 1)) :=
    Objective.recorded_coordinate Precision.brain #v[1] 0
  have hone : Precision.brain.round 1 = 1 := by decide +kernel
  rw [hone] at hrecorded
  refine ⟨_, haccepted, ?_, ?_⟩
  · rw [Objective.value_tracked hvalue, hrecorded]
    rfl
  · rw [Objective.both_tracked hboth, hrecorded]
    rfl

end Modes

/-! ### The derivative -/

section Derivative

variable {n : ℕ} {name : String}

/-- A vector as it is recorded. -/
noncomputable abbrev exactPoint (x : Vec ℝ n) : NdArray ℝ :=
  (NdArray.ofVec x).map (Precision.exact "").round

/-- The place of a coordinate among the cells of a vector. -/
noncomputable def cellOf (x : Vec ℝ n) (i : Fin n) : Fin (exactPoint x).shape.cells :=
  i.cast (by simp [exactPoint, NdArray.map, NdArray.ofVec, Shape.cells])

theorem shows_ofVec (x : Vec ℝ n) :
    Recorded.Shows (Recorded.view (exactPoint x)) x (cellOf x) where
  size := rfl
  entry := Recorded.view_entry (Precision.exact "").round x
  injective i j h := Fin.ext (show (cellOf x i).val = (cellOf x j).val from congrArg Fin.val h)

variable {ν σ : Type} [Reading ν ℝ] {note : Call → Talk σ Unit} {w w' : σ} {x : Vec ℝ n}
  {e : Expr ℝ}

/-- **The gradient is the derivative**, in exact arithmetic. Where an expression of arithmetic,
loops and choices has a value, and no divisor is zero, its tracked objective returns that value and
the vector of its formal derivatives if anything tracked enters, and refuses it as a plain number
if not. The vector is zero if no coordinate enters. -/
theorem gradient_is_derivative (h : e.Regular x none)
    (hnote : (note .tracked).run.run w = (.ok (), w')) (name : String) :
    (e.Enters x True none → ∃ (v : ℝ) (g : Vec ℝ n),
      e.eval (.ofVec x) none = .ok v ∧
      (∀ i : Fin n, (e.derivative i).eval (.ofVec x) none = .ok (g.get i)) ∧
      (¬ e.Enters x False none → ∀ i, g.get i = 0) ∧
      ((Objective.tracked (e.recording (.exact name)) (.exact name) : Objective ℝ ν).both note
        (.ofVec x)).run.run w = (.ok (.read (v, .ofVec g)), w')) ∧
    (¬ e.Enters x True none →
      ((Objective.tracked (e.recording (.exact name)) (.exact name) : Objective ℝ ν).both note
        (.ofVec x)).run.run w = (.error (.notTensor "float"), w')) := by
  obtain ⟨g, htrace, hg⟩ := h.follows (shows_ofVec x) name
  have hrecorded : Objective.recorded (e.recording (.exact name)) (.exact name) (.ofVec x) =
      Recorded.toScalar ⟨[], g⟩ := congrArg (fun r => r >>= Recorded.toScalar) htrace
  refine ⟨fun henters => ?_, fun hnumber => ?_⟩
  · have htensor : Recorded.toScalar ⟨[], g⟩ = .ok g := by
      rw [Recorded.toScalar, hg.tracked.mpr henters]
      rfl
    have hcells : (NdArray.ofVec x).shape.cells = n := Nat.mul_one n
    have hget (i : Fin n) : ((g.gradient (.exact name)).cast hcells).get i =
        g.slope name (cellOf x i) := Graph.gradient_eq_slope g (cellOf x i)
    refine ⟨g.value, (g.gradient (.exact name)).cast hcells, hg.value, fun i => ?_,
      fun hstill i => ?_, ?_⟩
    · rw [hg.slope, hget]
    · rw [hget, hg.still hstill]
    · rw [Objective.both_tracked hnote, hrecorded, htensor]
      rfl
  · have htensor : Recorded.toScalar ⟨[], g⟩ = .error (.notTensor "float") := by
      have hisNumber : g.isNumber = true := by
        rw [← Bool.not_eq_false]
        exact mt hg.tracked.mp hnumber
      rw [Recorded.toScalar, hisNumber]
      rfl
    rw [Objective.both_tracked hnote, hrecorded, htensor]
    rfl

/-- A branch with a loop, a division and a part held fixed, at a point where it is taken; a value
that no coordinate enters, though all that is tracked does; and a plain number. -/
theorem gradient_is_derivative_branched :
    let x : Vec ℝ 2 := #v[3, -2]
    let taken : Expr ℝ := .binary .add
      (.binary .add (.sum (.power .entry 2)) (.binary .div (.coordinate 1) (.constant 2)))
      (.detach (.coordinate 0))
    let branched : Expr ℝ := .choose .lt (.number 0) (.coordinate 0) taken (.leaf 1)
    let still : Expr ℝ := .binary .add (.binary .mul (.leaf 3) (.constant 2))
      (.detach (.coordinate 0))
    let plain : Expr ℝ := .binary .mul .dimension (.number 4)
    let note : Call → Talk (List Call) Unit := fun c => modify (c :: ·)
    let both (e : Expr ℝ) := ((Objective.tracked (e.recording (.exact "Double")) (.exact "Double") :
      Objective ℝ (Plain ℝ)).both note (.ofVec x)).run.run []
    (branched.Regular x none ∧ branched.Enters x True none) ∧
      (still.Regular x none ∧ still.Enters x True none ∧ ¬ still.Enters x False none) ∧
      (plain.Regular x none ∧ ¬ plain.Enters x True none) ∧
      (note .tracked).run.run [] = (.ok (), [.tracked]) ∧
      both branched = (.ok (.read (15, .ofVec #v[6, -7 / 2])), [.tracked]) ∧
      both still = (.ok (.read (15, .ofVec #v[0, 0])), [.tracked]) ∧
      both plain = (.error (.notTensor "float"), [.tracked]) := by
  intro x taken branched still plain note both
  have hholds : Comparison.lt.holds (0 : ℝ) 3 = true := by simp [Comparison.holds]
  have htwo : (Expr.constant 2).eval (.ofVec x) none ≠ .ok (0 : ℝ) :=
    fun h => two_ne_zero (Except.ok.inj h)
  have hzero : (Expr.number 0).eval (.ofVec x) none = .ok (0 : ℝ) := rfl
  have hthree : (Expr.coordinate 0).eval (.ofVec x) none = .ok (3 : ℝ) := rfl
  have hadd : BinaryOp.add ≠ .div := by decide
  have hmul : BinaryOp.mul ≠ .div := by decide
  have hnote : (note .tracked).run.run [] = (.ok (), [.tracked]) := rfl
  -- what the branch taken comes to, and its slopes
  have hchosen (yes no : Expr ℝ) : (Expr.choose .lt (.number 0) (.coordinate 0) yes no).eval
      (.ofVec x) none = yes.eval (.ofVec x) none := by
    rw [Expr.eval_choose hzero hthree, if_pos hholds]
  have htaken : taken.Regular x none :=
    .binary (.binary (.sum fun i hi => .power (.entry hi))
      (.binary (.coordinate one_lt_two) (.constant 2) fun _ => htwo) (absurd · hadd))
      (.detach (.coordinate two_pos) trivial) (absurd · hadd)
  have hregular : branched.Regular x none :=
    .yes (.number 0) (.coordinate two_pos) hzero hthree hholds htaken
  have henters : branched.Enters x True none := by
    refine ⟨0, 3, hzero, hthree, ?_⟩
    rw [if_pos hholds]
    exact .inl (.inl ⟨0, two_pos, trivial⟩)
  have hfifteen : branched.eval (.ofVec x) none = .ok 15 := by
    have hsum : taken.eval (.ofVec x) none = .ok (0 + 3 * 3 + -2 * -2 + -2 / 2 + 3) := rfl
    rw [hchosen, hsum]
    norm_num
  have hslopes (i : Fin 2) : (branched.derivative i).eval (.ofVec x) none =
      .ok ((#v[6, -7 / 2] : Vec ℝ 2).get i) := by
    refine (hchosen (taken.derivative i) _).trans ?_
    fin_cases i <;>
    · simp [taken, x, Expr.derivative, BinaryOp.derivative, Expr.eval, View.ofVec, coordinateOf,
        List.range_succ, loopIndex, bind, Except.bind, pure, Except.pure, Comparison.holds,
        BinaryOp.apply, powerOf, Elementary.ofNat, Scalar.le, Vector.get]
      norm_num
  -- the leaf is tracked, but no coordinate enters undetached
  have hstill : still.Regular x none :=
    .binary (.binary (.leaf 3) (.constant 2) (absurd · hmul))
      (.detach (.coordinate two_pos) trivial) (absurd · hadd)
  have hleaf : still.Enters x True none := .inl (.inl trivial)
  have hnone : ¬ still.Enters x False none := by
    simp [still, Expr.Enters]
  have hconstant : still.eval (.ofVec x) none = .ok 15 := by
    have hsum : still.eval (.ofVec x) none = .ok ((1 + 1) * 3 * 2 + 3) := rfl
    rw [hsum]
    norm_num
  have hplain : plain.Regular x none := .binary .dimension (.number 4) (absurd · hmul)
  have hnumber : ¬ plain.Enters x True none := by
    simp [plain, Expr.Enters]
  -- values and slopes are unique, so those of the recorded computations are the ones above
  refine ⟨⟨hregular, henters⟩, ⟨hstill, hleaf, hnone⟩, ⟨hplain, hnumber⟩, hnote, ?_, ?_,
    (gradient_is_derivative hplain hnote "Double").2 hnumber⟩
  · obtain ⟨v, g, hvalue, hderivative, -, hboth⟩ :=
      (gradient_is_derivative (ν := Plain ℝ) hregular hnote "Double").1 henters
    obtain rfl : 15 = v := Except.ok.inj (hfifteen.symm.trans hvalue)
    obtain rfl : #v[6, -7 / 2] = g :=
      vec_ext fun i => Except.ok.inj ((hslopes i).symm.trans (hderivative i))
    exact hboth
  · obtain ⟨v, g, hvalue, -, hzeros, hboth⟩ :=
      (gradient_is_derivative (ν := Plain ℝ) hstill hnote "Double").1 hleaf
    obtain rfl : 15 = v := Except.ok.inj (hconstant.symm.trans hvalue)
    obtain rfl : #v[0, 0] = g := by
      refine vec_ext fun i => ?_
      rw [hzeros hnone i]
      fin_cases i <;> rfl
    exact hboth

end Derivative

end VariableMetric
