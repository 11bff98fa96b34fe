import VariableMetric.Proofs.Sweep

/-!
# Derivatives of expressions

Expressions of arithmetic, loops and choices have a formal derivative in every coordinate, which is
an expression again. A recorded expression carries it: its slopes are the values of its derivatives.

* `Expr.derivative`: **the formal derivative** in a coordinate.
* `Expr.Enters`: something tracked enters the value of an expression.
* `Expr.Regular`: the points where an expression has a value without a division by zero.
* `Expr.Follows`: a recorded computation stands for an expression, with all its derivatives.
* `Expr.Regular.follows`: **recorded at a regular point**, an expression is followed.
-/

namespace VariableMetric

section Formal

variable {α : Type} [Elementary α]

/-- The derivative of a two-place step, from its operands and theirs. -/
def BinaryOp.derivative (op : BinaryOp) (a b da db : Expr α) : Expr α :=
  match op with
  | .add => .binary .add da db
  | .sub => .binary .sub da db
  | .mul => .binary .add (.binary .mul da b) (.binary .mul a db)
  | .div => .binary .div (.binary .sub (.binary .mul da b) (.binary .mul a db)) (.binary .mul b b)

/-- **The formal derivative** of an expression in the coordinate of index `i`. A choice is
differentiated along both branches, and what does not enter from the point is constant. -/
def Expr.derivative (i : ℕ) : Expr α → Expr α
  | .coordinate k => .number (if k = i then 1 else 0)
  | .entry => .choose .eq .position (.number (Elementary.ofNat i)) (.number 1) (.number 0)
  | .unary .neg a => .unary .neg (a.derivative i)
  | .binary op a b => op.derivative a b (a.derivative i) (b.derivative i)
  | .power a (k + 2) =>
    .binary .mul (.binary .mul (.number (Elementary.ofNat (k + 2))) (.power a (k + 1)))
      (a.derivative i)
  | .power a _ => a.derivative i
  | .choose cmp a b yes no => .choose cmp a b (yes.derivative i) (no.derivative i)
  | .sum e => .sum (e.derivative i)
  | .number _ | .dimension | .position | .constant _ | .leaf _ | .detach _ => .number 0
  | .unary _ _ | .raise _ _ | .stack _ => .raise .runtime "no derivative"

end Formal

namespace Expr

variable {m n : ℕ}

/-- **Something tracked enters** the value of an expression: a coordinate, or with `held` also a
tracked value that is held fixed. -/
def Enters (x : Vec ℝ n) (held : Prop) (loop : Option ℕ) : Expr ℝ → Prop
  | coordinate _ | entry => True
  | constant _ | leaf _ => held
  | detach a => held ∧ a.Enters x held loop
  | unary _ a | power a _ => a.Enters x held loop
  | binary _ a b => a.Enters x held loop ∨ b.Enters x held loop
  | choose cmp a b yes no =>
    ∃ u v, a.eval (.ofVec x) loop = .ok u ∧ b.eval (.ofVec x) loop = .ok v ∧
      if cmp.holds u v then yes.Enters x held loop else no.Enters x held loop
  | sum e => ∃ i < n, e.Enters x held (some i)
  | number _ | dimension | position | raise _ _ | stack _ => False

/-- **The regular points** of an expression of arithmetic, loops and choices: every coordinate
exists, no divisor is zero, and what is detached is tracked. Of a choice only the branch taken
matters. -/
inductive Regular (x : Vec ℝ n) : Option ℕ → Expr ℝ → Prop
  | number {loop : Option ℕ} (c : ℝ) : Regular x loop (.number c)
  | coordinate {loop : Option ℕ} {k : ℕ} (hk : k < n) : Regular x loop (.coordinate k)
  | dimension {loop : Option ℕ} : Regular x loop .dimension
  | entry {k : ℕ} (hk : k < n) : Regular x (some k) .entry
  | position {k : ℕ} : Regular x (some k) .position
  | neg {loop : Option ℕ} {a : Expr ℝ} (ha : Regular x loop a) : Regular x loop (.unary .neg a)
  | binary {loop : Option ℕ} {op : BinaryOp} {a b : Expr ℝ} (ha : Regular x loop a)
      (hb : Regular x loop b) (hdiv : op = .div → b.eval (.ofVec x) loop ≠ .ok 0) :
      Regular x loop (.binary op a b)
  | power {loop : Option ℕ} {a : Expr ℝ} {k : ℕ} (ha : Regular x loop a) :
      Regular x loop (.power a (k + 1))
  | yes {loop : Option ℕ} {cmp : Comparison} {a b yes no : Expr ℝ} {u v : ℝ}
      (ha : Regular x loop a) (hb : Regular x loop b) (hu : a.eval (.ofVec x) loop = .ok u)
      (hv : b.eval (.ofVec x) loop = .ok v) (hholds : cmp.holds u v = true)
      (h : Regular x loop yes) : Regular x loop (.choose cmp a b yes no)
  | no {loop : Option ℕ} {cmp : Comparison} {a b yes no : Expr ℝ} {u v : ℝ}
      (ha : Regular x loop a) (hb : Regular x loop b) (hu : a.eval (.ofVec x) loop = .ok u)
      (hv : b.eval (.ofVec x) loop = .ok v) (hholds : cmp.holds u v = false)
      (h : Regular x loop no) : Regular x loop (.choose cmp a b yes no)
  | sum {loop : Option ℕ} {e : Expr ℝ} (h : ∀ i < n, Regular x (some i) e) :
      Regular x loop (.sum e)
  | constant {loop : Option ℕ} (v : ℝ) : Regular x loop (.constant v)
  | leaf {loop : Option ℕ} (v : ℝ) : Regular x loop (.leaf v)
  | detach {loop : Option ℕ} {a : Expr ℝ} (ha : Regular x loop a)
      (htracked : a.Enters x True loop) : Regular x loop (.detach a)

/-- **A recorded computation stands for an expression**: it has its value, its derivatives as
slopes, and is tracked if something tracked enters. -/
structure Follows (name : String) (x : Vec ℝ n) (place : Fin n → Fin m) (loop : Option ℕ)
    (e : Expr ℝ) (g : Graph ℝ m) : Prop where
  value : e.eval (.ofVec x) loop = .ok g.value
  slope : ∀ i : Fin n,
    (e.derivative i).eval (.ofVec x) loop = .ok (g.slope name (place i))
  tracked : g.isNumber = false ↔ e.Enters x True loop
  still : ¬ e.Enters x False loop → ∀ i, g.slope name (place i) = 0

end Expr

/-- A recorded view shows a vector, each coordinate in a place of its own. -/
structure Recorded.Shows {m n : ℕ} (view : View (Recorded ℝ m)) (x : Vec ℝ n)
    (place : Fin n → Fin m) : Prop where
  size : view.size = .ok n
  entry : ∀ i : Fin n, view.entry i = .ok ⟨[], .coordinate (place i) (x.get i)⟩
  injective : Function.Injective place

namespace Expr

variable {m n : ℕ} {name : String} {x : Vec ℝ n} {place : Fin n → Fin m} {loop : Option ℕ}

theorem coordinateOf_eq (x : Vec ℝ n) (i : Fin n) : coordinateOf x i = .ok (x.get i) := by
  unfold coordinateOf
  rw [Vector.getElem?_eq_getElem i.isLt]
  rfl

/-- A number stands for an expression that nothing tracked enters and whose derivatives are zero. -/
theorem follows_number {e : Expr ℝ} {v : ℝ} (hvalue : e.eval (.ofVec x) loop = .ok v)
    (hderivative : ∀ i, e.derivative i = .number 0) (henters : ¬ e.Enters x True loop) :
    e.Follows name x place loop (.number v) where
  value := hvalue
  slope i := by
    rw [hderivative]
    rfl
  tracked := ⟨fun h => Bool.noConfusion h, fun h => absurd h henters⟩
  still _ _ := rfl

/-- A tracked value without a slope stands for an expression whose derivatives are zero. -/
theorem follows_still {e : Expr ℝ} {g : Graph ℝ m} (hnumber : g.isNumber = false)
    (hslope : ∀ i, g.slope name i = 0) (hvalue : e.eval (.ofVec x) loop = .ok g.value)
    (hderivative : ∀ i, e.derivative i = .number 0) (henters : e.Enters x True loop) :
    e.Follows name x place loop g where
  value := hvalue
  slope i := by
    rw [hderivative, hslope]
    rfl
  tracked := ⟨fun _ => henters, fun _ => hnumber⟩
  still _ i := hslope (place i)

/-- A coordinate stands for an expression with its value that has slope one there and zero
elsewhere. -/
theorem follows_coordinate (hplace : Function.Injective place) {e : Expr ℝ} (k : Fin n)
    (hvalue : e.eval (.ofVec x) loop = .ok (x.get k))
    (hderivative : ∀ i : Fin n,
      (e.derivative i).eval (.ofVec x) loop = .ok (if k = i then 1 else 0))
    (henters : ∀ held, e.Enters x held loop) :
    e.Follows name x place loop (.coordinate (place k) (x.get k)) where
  value := hvalue
  slope i := by
    rw [hderivative, Graph.slope]
    simp only [hplace.eq_iff]
  tracked := ⟨fun _ => henters True, fun _ => rfl⟩
  still hstill := absurd (henters False) hstill

theorem Follows.neg {a : Expr ℝ} {g : Graph ℝ m} (h : a.Follows name x place loop g) :
    (Expr.unary .neg a).Follows name x place loop (g.applyUnary (.exact name) .neg) where
  value := by
    rw [eval, h.value, Graph.value_neg]
    rfl
  slope i := by
    rw [derivative, eval, h.slope, Graph.slope_neg]
    rfl
  tracked := by rw [Graph.isNumber_applyUnary, h.tracked, Enters]
  still hstill i := by
    rw [Graph.slope_neg, h.still hstill, neg_zero]

theorem Follows.binary {op : BinaryOp} {a b : Expr ℝ} {g k : Graph ℝ m}
    (ha : a.Follows name x place loop g) (hb : b.Follows name x place loop k)
    (hdiv : op = .div → k.value ≠ 0) :
    (Expr.binary op a b).Follows name x place loop (g.applyBinary (.exact name) op k) where
  value := by
    rw [eval, ha.value, hb.value, Graph.value_applyBinary]
    rfl
  slope i := by
    rw [derivative, Graph.slope_applyBinary op g k (place i) hdiv]
    cases op <;>
    · simp only [BinaryOp.derivative, eval, ha.value, hb.value, ha.slope i, hb.slope i]
      rfl
  tracked := by
    rw [Graph.isNumber_applyBinary, Bool.and_eq_false_iff, ha.tracked, hb.tracked, Enters]
  still hstill i := by
    rw [Enters, not_or] at hstill
    rw [Graph.slope_applyBinary op g k (place i) hdiv, ha.still hstill.1, hb.still hstill.2]
    cases op <;> simp [BinaryOp.slope]

theorem eval_power {a : Expr ℝ} {v : ℝ} (h : a.eval (.ofVec x) loop = .ok v) (k : ℕ) :
    (Expr.power a (k + 1)).eval (.ofVec x) loop = .ok (v ^ (k + 1)) := by
  rw [eval, h]
  exact congrArg Except.ok (powerOf_eq_pow v k)

theorem Follows.power {a : Expr ℝ} {g : Graph ℝ m} (h : a.Follows name x place loop g) (k : ℕ) :
    (Expr.power a (k + 1)).Follows name x place loop (g.applyPower (.exact name) (k + 1)) where
  value := by rw [eval_power h.value, Graph.value_applyPower]
  slope i := by
    rw [Graph.slope_applyPower]
    cases k with
    | zero =>
      have hfirst : (Expr.power a 1).derivative i.val = a.derivative i.val := rfl
      rw [hfirst, h.slope]
      simp
    | succ k =>
      have hcoefficient : (Elementary.ofNat (k + 2) : ℝ) = ↑(k + 1) + 1 := by
        simp only [Elementary.ofNat]
        push_cast
        ring
      rw [derivative, eval, eval, eval_power h.value, h.slope, ← hcoefficient]
      rfl
  tracked := by rw [Graph.isNumber_applyPower, h.tracked, Enters]
  still hstill i := by
    rw [Graph.slope_applyPower, h.still hstill, mul_zero]

theorem eval_choose {cmp : Comparison} {a b : Expr ℝ} {u v : ℝ}
    (hu : a.eval (.ofVec x) loop = .ok u) (hv : b.eval (.ofVec x) loop = .ok v)
    (yes no : Expr ℝ) : (Expr.choose cmp a b yes no).eval (.ofVec x) loop =
      (if cmp.holds u v then yes else no).eval (.ofVec x) loop := by
  rw [eval, hu, hv]
  exact (apply_ite (eval (.ofVec x) loop) _ _ _).symm

/-- The entry at coordinate `k` has slope one there, and zero elsewhere. -/
theorem eval_derivative_entry (x : Vec ℝ n) (k i : ℕ) :
    ((entry : Expr ℝ).derivative i).eval (.ofVec x) (some k) = .ok (if k = i then 1 else 0) := by
  -- the derivative asks whether the loop stands at the coordinate
  have hmeets : Comparison.eq.holds (Elementary.ofNat k : ℝ) (Elementary.ofNat i) =
      decide (k = i) := by
    simp [Comparison.holds, Scalar.le, Elementary.ofNat, ← Bool.decide_and, ← le_antisymm_iff]
  rw [derivative, eval_choose rfl rfl, hmeets]
  simp only [decide_eq_true_eq]
  split <;> rfl

/-- A choice is followed along the branch taken. -/
theorem Follows.choose {cmp : Comparison} {a b yes no : Expr ℝ} {u v : ℝ} {g : Graph ℝ m}
    (hu : a.eval (.ofVec x) loop = .ok u) (hv : b.eval (.ofVec x) loop = .ok v)
    (h : (if cmp.holds u v then yes else no).Follows name x place loop g) :
    (Expr.choose cmp a b yes no).Follows name x place loop g := by
  have henters (held : Prop) : (Expr.choose cmp a b yes no).Enters x held loop ↔
      (if cmp.holds u v then yes else no).Enters x held loop := by
    rw [Enters, apply_ite (Enters x held loop)]
    refine ⟨?_, fun hbranch => ⟨u, v, hu, hv, hbranch⟩⟩
    rintro ⟨u', v', hu', hv', hbranch⟩
    obtain rfl := Except.ok.inj (hu.symm.trans hu')
    obtain rfl := Except.ok.inj (hv.symm.trans hv')
    exact hbranch
  exact {
    value := (eval_choose hu hv yes no).trans h.value
    slope := fun i => by
      rw [derivative, eval_choose hu hv, ← h.slope i, apply_ite (derivative i.val)]
    tracked := h.tracked.trans (henters True).symm
    still := fun hstill => h.still (mt (henters False).mpr hstill) }

/-! ### Sums over the coordinates -/

/-- The sum of an expression over the first coordinates. -/
noncomputable def sumTo (x : Vec ℝ n) (e : Expr ℝ) (k : ℕ) : Except Fault ℝ :=
  (List.range k).foldlM (fun s i => do return s + (← e.eval (.ofVec x) (some i))) 0

theorem sumTo_succ (e : Expr ℝ) {k : ℕ} {s v : ℝ} (hs : sumTo x e k = .ok s)
    (hv : e.eval (.ofVec x) (some k) = .ok v) : sumTo x e (k + 1) = .ok (s + v) := by
  unfold sumTo at hs ⊢
  rw [List.range_succ, List.foldlM_append, hs]
  simp only [List.foldlM_cons, List.foldlM_nil, hv]
  rfl

/-- The recorded sum over the first coordinates stands for the sum, step by step. -/
structure FollowsTo (name : String) (x : Vec ℝ n) (place : Fin n → Fin m) (e : Expr ℝ) (k : ℕ)
    (g : Graph ℝ m) : Prop where
  value : sumTo x e k = .ok g.value
  slope : ∀ i : Fin n, sumTo x (e.derivative i) k = .ok (g.slope name (place i))
  tracked : g.isNumber = false ↔ ∃ i < k, e.Enters x True (some i)
  still : (∀ i < k, ¬ e.Enters x False (some i)) → ∀ i, g.slope name (place i) = 0

theorem FollowsTo.succ {e : Expr ℝ} {k : ℕ} {s g : Graph ℝ m}
    (hs : e.FollowsTo name x place k s) (hg : e.Follows name x place (some k) g) :
    e.FollowsTo name x place (k + 1) (s.applyBinary (.exact name) .add g) where
  value := by
    rw [Graph.value_applyBinary]
    exact sumTo_succ e hs.value hg.value
  slope i := by
    rw [Graph.slope_applyBinary .add s g (place i) nofun]
    exact sumTo_succ _ (hs.slope i) (hg.slope i)
  tracked := by
    rw [Graph.isNumber_applyBinary, Bool.and_eq_false_iff, hs.tracked, hg.tracked,
      Nat.exists_lt_succ_right]
  still hstill i := by
    rw [Nat.forall_lt_succ_right] at hstill
    rw [Graph.slope_applyBinary .add s g (place i) nofun, hs.still hstill.1, hg.still hstill.2]
    exact add_zero 0

/-- The sum over all coordinates. -/
theorem FollowsTo.sum {e : Expr ℝ} {g : Graph ℝ m} (h : e.FollowsTo name x place n g) :
    (Expr.sum e).Follows name x place loop g where
  value := h.value
  slope := h.slope
  tracked := h.tracked
  still hstill := h.still fun i hi henters => hstill ⟨i, hi, henters⟩

/-! ### Recording -/

/-- **A recorded sum** is followed, by induction over the coordinates done. -/
theorem exists_followsTo {view : View (Recorded ℝ m)} {e : Expr ℝ} (k : ℕ)
    (h : ∀ i < k, ∃ g, e.trace (.exact name) view (some i) = .ok ⟨[], g⟩ ∧
      e.Follows name x place (some i) g) :
    ∃ g, (List.range k).foldlM (fun s i => do
        Recorded.binary (.exact name) .add s (← e.trace (.exact name) view (some i)))
        (⟨[], .number 0⟩ : Recorded ℝ m) = .ok ⟨[], g⟩ ∧ e.FollowsTo name x place k g := by
  induction k with
  | zero =>
    refine ⟨.number 0, rfl, rfl, fun _ => rfl, ?_, fun _ _ => rfl⟩
    simp [Graph.isNumber]
  | succ k ih =>
    obtain ⟨s, hfold, hs⟩ := ih fun i hi => h i (hi.trans (Nat.lt_succ_self k))
    obtain ⟨g, htrace, hg⟩ := h k (Nat.lt_succ_self k)
    refine ⟨_, ?_, hs.succ hg⟩
    rw [List.range_succ, List.foldlM_append, hfold]
    simp only [List.foldlM_cons, List.foldlM_nil, htrace]
    rfl

variable {view : View (Recorded ℝ m)}

/-- A recorded choice goes on with the branch that the two values decide for. -/
theorem trace_choose {cmp : Comparison} {a b : Expr ℝ} {u v : ℝ}
    (ha : ∃ g, a.trace (.exact name) view loop = .ok ⟨[], g⟩ ∧ a.Follows name x place loop g)
    (hu : a.eval (.ofVec x) loop = .ok u)
    (hb : ∃ g, b.trace (.exact name) view loop = .ok ⟨[], g⟩ ∧ b.Follows name x place loop g)
    (hv : b.eval (.ofVec x) loop = .ok v) (yes no : Expr ℝ) :
    (Expr.choose cmp a b yes no).trace (.exact name) view loop =
      (if cmp.holds u v then yes else no).trace (.exact name) view loop := by
  obtain ⟨g, htraceA, hg⟩ := ha
  obtain ⟨k, htraceB, hk⟩ := hb
  obtain rfl := Except.ok.inj (hu.symm.trans hg.value)
  obtain rfl := Except.ok.inj (hv.symm.trans hk.value)
  rw [trace, htraceA, htraceB]
  exact (apply_ite (trace (.exact name) view loop) _ _ _).symm

/-- **Recorded at a regular point**, an expression is followed, by induction over the regularity. -/
theorem Regular.follows {e : Expr ℝ} (h : e.Regular x loop) (hview : Recorded.Shows view x place)
    (name : String) :
    ∃ g, e.trace (.exact name) view loop = .ok ⟨[], g⟩ ∧ e.Follows name x place loop g := by
  induction h with
  | number c => exact ⟨.number c, rfl, follows_number rfl (fun _ => rfl) id⟩
  | @coordinate loop k hk =>
    refine ⟨_, hview.entry ⟨k, hk⟩, follows_coordinate hview.injective ⟨k, hk⟩
      (coordinateOf_eq x ⟨k, hk⟩) (fun i => ?_) fun _ => trivial⟩
    rw [derivative, eval]
    simp only [Fin.ext_iff]
  | dimension =>
    refine ⟨.number n, ?_, follows_number rfl (fun _ => rfl) id⟩
    rw [trace, hview.size]
    rfl
  | @entry k hk =>
    refine ⟨_, hview.entry ⟨k, hk⟩, follows_coordinate hview.injective ⟨k, hk⟩
      (coordinateOf_eq x ⟨k, hk⟩) (fun i => ?_) fun _ => trivial⟩
    rw [eval_derivative_entry]
    simp only [Fin.ext_iff]
  | @position k => exact ⟨.number k, rfl, follows_number rfl (fun _ => rfl) id⟩
  | neg ha iha =>
    obtain ⟨g, htrace, hg⟩ := iha
    refine ⟨_, ?_, hg.neg⟩
    rw [trace, htrace]
    rfl
  | binary ha hb hdiv iha ihb =>
    obtain ⟨g, htraceA, hg⟩ := iha
    obtain ⟨k, htraceB, hk⟩ := ihb
    refine ⟨_, ?_, hg.binary hk fun hop hzero => hdiv hop (hzero ▸ hk.value)⟩
    rw [trace, htraceA, htraceB]
    rfl
  | @power loop a k ha iha =>
    obtain ⟨g, htrace, hg⟩ := iha
    refine ⟨_, ?_, hg.power k⟩
    rw [trace, htrace]
    rfl
  | yes ha hb hu hv hholds h iha ihb ih =>
    obtain ⟨g, htrace, hg⟩ := ih
    refine ⟨g, ?_, .choose hu hv (by rwa [if_pos hholds])⟩
    rw [trace_choose iha hu ihb hv, if_pos hholds, htrace]
  | no ha hb hu hv hholds h iha ihb ih =>
    obtain ⟨g, htrace, hg⟩ := ih
    have hno := Bool.not_eq_true _ ▸ hholds
    refine ⟨g, ?_, .choose hu hv (by rwa [if_neg hno])⟩
    rw [trace_choose iha hu ihb hv, if_neg hno, htrace]
  | sum h ih =>
    obtain ⟨g, hfold, hg⟩ := exists_followsTo n ih
    refine ⟨g, ?_, hg.sum⟩
    rw [trace, hview.size]
    exact hfold
  | constant v =>
    exact ⟨.fixed v, rfl, follows_still rfl (fun _ => rfl) rfl (fun _ => rfl) trivial⟩
  | leaf v => exact ⟨.leaf _, rfl, follows_still rfl (fun _ => rfl) rfl (fun _ => rfl) trivial⟩
  | detach ha htracked iha =>
    obtain ⟨g, htrace, hg⟩ := iha
    refine ⟨.fixed g.value, ?_,
      follows_still rfl (fun _ => rfl) hg.value (fun _ => rfl) ⟨trivial, htracked⟩⟩
    rw [trace, htrace]
    -- a plain number could not be detached
    have htensor : ¬ g.isNumber = true := by
      rw [Bool.not_eq_true]
      exact hg.tracked.mpr htracked
    simp only [bind, Except.bind, htensor]
    rfl

end Expr

end VariableMetric
