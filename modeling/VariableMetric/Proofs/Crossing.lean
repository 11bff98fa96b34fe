import VariableMetric.Proofs.Persistence

/-!
# Runs across two curvatures

A start near an axis of the smaller curvature `l` of two, with a small component `v` along an axis
of the larger one `κ l`. The first step that is a decrease is the one which fits `l`. It overshoots
along the other axis, and the update that it leaves fits neither.

* `mix`: the combinations of two vectors; `Axes`: two axes of a matrix, and its forms and images on
  their combinations.
* `Crossing`: what makes the first step the one that fits `l`; `Crossing.moves`: it is taken.
* `Crossing.image_eq`: a vector along which the gradient stays from then on.
* `Crossing.exists_run`: **such a run does not converge**, if the tolerance for steps is small
  enough.
-/

namespace VariableMetric

open Matrix

variable {n : ℕ} {A : Matrix (Fin n) (Fin n) ℝ} {e₁ e₂ : Fin n → ℝ} {l κ v : ℝ} {j K : ℕ}

/-- A combination of two vectors. -/
def mix (e₁ e₂ : Fin n → ℝ) (p q : ℝ) : Fin n → ℝ := p • e₁ + q • e₂

theorem add_smul_mix (p q p' q' t : ℝ) :
    mix e₁ e₂ p q + t • mix e₁ e₂ p' q' = mix e₁ e₂ (p + t * p') (q + t * q') := by
  simp only [mix]
  module

theorem smul_mix (p q t : ℝ) : t • mix e₁ e₂ p q = mix e₁ e₂ (t * p) (t * q) := by
  simp only [mix]
  module

theorem neg_mix (p q : ℝ) : -mix e₁ e₂ p q = mix e₁ e₂ (-p) (-q) := by
  simp only [mix]
  module

/-- **Two axes of a matrix**, of unit length and orthogonal, with curvatures `l` and `κ l`. -/
structure Axes (A : Matrix (Fin n) (Fin n) ℝ) (e₁ e₂ : Fin n → ℝ) (l κ : ℝ) : Prop where
  unit₁ : e₁ ⬝ᵥ e₁ = 1
  unit₂ : e₂ ⬝ᵥ e₂ = 1
  ortho : e₁ ⬝ᵥ e₂ = 0
  image₁ : A *ᵥ e₁ = l • e₁
  image₂ : A *ᵥ e₂ = (κ * l) • e₂

namespace Axes

variable (hx : Axes A e₁ e₂ l κ)
include hx

theorem dot_mix (p q p' q' : ℝ) : mix e₁ e₂ p q ⬝ᵥ mix e₁ e₂ p' q' = p * p' + q * q' := by
  have hortho : e₂ ⬝ᵥ e₁ = 0 := by rw [dotProduct_comm, hx.ortho]
  simp only [mix, add_dotProduct, dotProduct_add, smul_dotProduct, dotProduct_smul, smul_eq_mul,
    hx.unit₁, hx.unit₂, hx.ortho, hortho]
  ring

theorem mulVec_mix (p q : ℝ) : A *ᵥ mix e₁ e₂ p q = mix e₁ e₂ (l * p) (κ * l * q) := by
  simp only [mix, mulVec_add, mulVec_smul, hx.image₁, hx.image₂]
  module

theorem value_mix {x : Vec ℝ n} {p q : ℝ} (h : x.get = mix e₁ e₂ p q) :
    (quadratic A 0 0).value x = (l * p ^ 2 + κ * l * q ^ 2) / 2 := by
  rw [quadratic_value_form, h, hx.mulVec_mix, hx.dot_mix]
  ring

theorem gradient_mix {x : Vec ℝ n} {p q : ℝ} (h : x.get = mix e₁ e₂ p q) :
    ((quadratic A 0 0).jet x).2.get = mix e₁ e₂ (l * p) (κ * l * q) := by
  rw [get_gradient_form, h, hx.mulVec_mix]

section First

variable [Solver ℝ] [ExactSolver] {s : Settings ℝ} {st : State ℝ n} {d : Vec ℝ n}
  (hon : st.On (quadratic A 0 0)) (hx₀ : st.x.get = mix e₁ e₂ 1 v)
  (hH : st.hessian = Mat.identity n) (hd : st.Leads s d)
include hon hx₀ hH hd

/-- The first direction from a point near the axis of `l`. -/
theorem get_direction : d.get = mix e₁ e₂ (-l) (-(κ * l * v)) := by
  have hsolves := hd.solves (hH ▸ posDef_identity)
  rw [hH, toMatrix_identity, one_mulVec, hon.gradient_eq, hx.gradient_mix hx₀, neg_mix,
    mul_one] at hsolves
  exact hsolves

/-- The points along it. -/
theorem get_trial (k : ℕ) :
    (st.stepTo s d k).get =
      mix e₁ e₂ (1 - s.backtrack ^ k * l) (v * (1 - s.backtrack ^ k * (κ * l))) := by
  rw [get_stepTo, hx₀, hx.get_direction hon hx₀ hH hd, add_smul_mix]
  congr 1 <;> ring

end First

end Axes

/-- **Near the axis of `l`**: step `j` fits `l`, and the component `v` along the other axis is small
enough not to prevent it, and for the end of the step to be low. -/
structure Crossing (s : Settings ℝ) (l κ v : ℝ) (j : ℕ) : Prop where
  one_le : 1 ≤ l
  wide : 1 < κ
  off : 0 < v
  near : κ ^ 3 * v ^ 2 < 1
  low : 4 * (κ ^ 3 * l * v ^ 2) ≤ s.curvatureTol
  fits : s.backtrack ^ j * l = 1
  before : ∀ i < j, 2 ≤ s.backtrack ^ i * l
  minStep_lt : s.minStep * l < 2
  curvatureTol_nonneg : 0 ≤ s.curvatureTol
  curvatureTol_lt : s.curvatureTol < 1

/-- The step that fits `l`. -/
def crossStep (e₁ e₂ : Fin n → ℝ) (κ v : ℝ) : Vec ℝ n := Vector.ofFn (mix e₁ e₂ (-1) (-(κ * v)))

/-- The change of the gradient along it. -/
def crossChange (e₁ e₂ : Fin n → ℝ) (l κ v : ℝ) : Vec ℝ n :=
  Vector.ofFn (mix e₁ e₂ (-l) (-(κ ^ 2 * l * v)))

/-- **The update that it leaves.** -/
noncomputable def crossUpdate (s : Settings ℝ) (e₁ e₂ : Fin n → ℝ) (l κ v : ℝ) : Updated ℝ n :=
  secantUpdate (Mat.identity n) (crossStep e₁ e₂ κ v) (crossChange e₁ e₂ l κ v) s.curvatureTol

/-- The curvature along `mix (κ² v) (-1)`, against that of the update. -/
noncomputable def crossRate (l κ v : ℝ) : ℝ :=
  κ * l * ((1 + κ ^ 2 * v ^ 2) / (1 + κ ^ 3 * v ^ 2))

theorem get_crossStep : (crossStep e₁ e₂ κ v).get = mix e₁ e₂ (-1) (-(κ * v)) :=
  ofFn_get _

theorem get_crossChange : (crossChange e₁ e₂ l κ v).get = mix e₁ e₂ (-l) (-(κ ^ 2 * l * v)) :=
  ofFn_get _

namespace Crossing

variable {s : Settings ℝ} (hc : Crossing s l κ v j)
include hc

theorem pos : 0 < l := one_pos.trans_le hc.one_le

/-! ### The update -/

theorem posDef : (crossUpdate s e₁ e₂ l κ v).matrix.toMatrix.PosDef :=
  posDef_secantUpdate posDef_identity _ _ hc.curvatureTol_nonneg

theorem rate_pos : 0 < crossRate l κ v := by
  have hκ := hc.wide
  have hl := hc.pos
  unfold crossRate
  positivity

/-- A step that fits the curvature `κ l`, or is off it by a factor of two, does not fit the
curvature along that vector. -/
theorem rate_ne {t : ℝ} (ht : t * (κ * l) ≤ 1 ∨ 2 ≤ t * (κ * l)) : t * crossRate l κ v ≠ 1 := by
  have hκ := hc.wide
  have hv := hc.off
  have hnear := hc.near
  have hlow : 0 < κ ^ 2 * v ^ 2 := by positivity
  have hless : κ ^ 2 * v ^ 2 < κ ^ 3 * v ^ 2 := by
    have hmul : 0 < κ ^ 2 * v ^ 2 * (κ - 1) := mul_pos hlow (sub_pos.2 hκ)
    linarith
  intro heq
  have hpos : 0 < 1 + κ ^ 3 * v ^ 2 := by positivity
  have hcross : t * (κ * l) * (1 + κ ^ 2 * v ^ 2) = 1 + κ ^ 3 * v ^ 2 := by
    rw [crossRate, ← mul_assoc, ← mul_div_assoc, div_eq_one_iff_eq hpos.ne'] at heq
    exact heq
  rcases ht with ht | ht
  · have hle := mul_le_mul_of_nonneg_right ht (by linarith : 0 ≤ 1 + κ ^ 2 * v ^ 2)
    linarith
  · have hle := mul_le_mul_of_nonneg_right ht (by linarith : 0 ≤ 1 + κ ^ 2 * v ^ 2)
    linarith

variable (hx : Axes A e₁ e₂ l κ)
include hx

theorem applied : (crossUpdate s e₁ e₂ l κ v).applied = true := by
  have hκ := hc.wide
  have hl := hc.one_le
  have htol := hc.curvatureTol_lt
  rw [crossUpdate, secantUpdate_applied_iff, toMatrix_identity, one_mulVec, get_crossStep,
    get_crossChange, hx.dot_mix, hx.dot_mix]
  have hcube : 0 ≤ κ ^ 3 * l * v ^ 2 := by positivity
  have hsq : 0 ≤ κ ^ 2 * v ^ 2 := by positivity
  constructor
  · linarith
  · linarith

/-- **A vector along which the update is at fault.** -/
theorem image_eq :
    A *ᵥ mix e₁ e₂ (κ ^ 2 * v) (-1) =
      crossRate l κ v •
        (crossUpdate s e₁ e₂ l κ v).matrix.toMatrix *ᵥ mix e₁ e₂ (κ ^ 2 * v) (-1) := by
  have hκ := hc.wide
  have hlow : 1 + κ ^ 2 * v ^ 2 ≠ 0 := by positivity
  have hhigh : 1 + κ ^ 3 * v ^ 2 ≠ 0 := by positivity
  have happlied := hc.applied hx
  rw [crossUpdate] at happlied
  -- the vector is orthogonal to the change of the gradient
  have horth : (crossChange e₁ e₂ l κ v).get ⬝ᵥ mix e₁ e₂ (κ ^ 2 * v) (-1) = 0 := by
    rw [get_crossChange, hx.dot_mix]
    ring
  rw [crossUpdate, crossRate, secantUpdate_mulVec happlied, horth, toMatrix_identity, one_mulVec,
    one_mulVec, mul_zero, zero_smul, add_zero, get_crossStep, hx.dot_mix, hx.dot_mix, hx.mulVec_mix,
    sub_eq_add_neg, ← neg_smul, add_smul_mix, smul_mix]
  congr 1
  · field_simp
    ring
  · field_simp
    ring

/-! ### The first iteration -/

section First

variable [Solver ℝ] [ExactSolver] {st st' : State ℝ n} {d : Vec ℝ n} {e : Option Ending}
  (hon : st.On (quadratic A 0 0)) (hx₀ : st.x.get = mix e₁ e₂ 1 v)
  (hH : st.hessian = Mat.identity n) (hd : st.Leads s d)
include hon hx₀ hH hd

/-- The step that fits `l` is a decrease. -/
theorem value_fits : (quadratic A 0 0).value (st.stepTo s d j) < st.value := by
  have hκ := hc.wide
  have hfits : s.backtrack ^ j * (κ * l) = κ := by
    rw [mul_left_comm, hc.fits, mul_one]
  rw [hx.value_mix (hx.get_trial hon hx₀ hH hd j), hon.value_eq, hx.value_mix hx₀, hc.fits, hfits]
  have hpart : κ * (v * (1 - κ)) ^ 2 < 1 + κ * v ^ 2 := by
    have hsq : 0 ≤ κ ^ 2 * v ^ 2 := by positivity
    have hnear := hc.near
    linarith
  have hmul := mul_lt_mul_of_pos_left hpart hc.pos
  linarith

/-- No longer step is. -/
theorem value_before {i : ℕ} (hi : i < j) :
    st.value ≤ (quadratic A 0 0).value (st.stepTo s d i) := by
  have hκ := hc.wide
  have hl := hc.pos
  have hshort := hc.before i hi
  have hlong : 2 ≤ s.backtrack ^ i * (κ * l) := by
    rw [mul_left_comm]
    exact hshort.trans (le_mul_of_one_le_left (by linarith) hκ.le)
  -- a step that is twice too long comes out no lower on the other side
  have hsquare {a : ℝ} (ha : 2 ≤ a) : 1 ≤ (1 - a) ^ 2 := by
    have hmul : 0 ≤ a * (a - 2) := mul_nonneg (by linarith) (by linarith)
    linarith
  rw [hx.value_mix (hx.get_trial hon hx₀ hH hd i), hon.value_eq, hx.value_mix hx₀, mul_pow]
  have h₁ := mul_le_mul_of_nonneg_left (hsquare hshort) hl.le
  have h₂ := mul_le_mul_of_nonneg_left (hsquare hlong) (by positivity : 0 ≤ κ * l * v ^ 2)
  linarith

/-- **The first iteration takes the step that fits `l`**, unless it converges. -/
theorem moves (h : Pace s (quadratic A 0 0) st d st' e) (he : e ≠ some .converged) :
    st'.x = st.stepTo s d j ∧ st'.hessian = (crossUpdate s e₁ e₂ l κ v).matrix := by
  have hbefore (i : ℕ) (hi : i < j) :
      st.value ≤ (quadratic A 0 0).value (st.stepTo s d i) ∧ s.minStep < s.backtrack ^ i := by
    refine ⟨hc.value_before hx hon hx₀ hH hd hi, ?_⟩
    exact lt_of_mul_lt_mul_right (hc.minStep_lt.trans_le (hc.before i hi)) hc.pos.le
  obtain ⟨-, hrest⟩ | ⟨values, gradients, hst, -⟩ :=
    h.takes (hc.value_fits hx hon hx₀ hH hd) hbefore
  · exact absurd hrest he
  have hstep : st.stepTo s d j - st.x = crossStep e₁ e₂ κ v := by
    refine vec_ext (congrFun ?_)
    have hscale : s.backtrack ^ j * -(κ * l * v) = -(κ * v * (s.backtrack ^ j * l)) := by ring
    rw [get_sub_stepTo, hx.get_direction hon hx₀ hH hd, smul_mix, get_crossStep, mul_neg, hscale,
      hc.fits, mul_one]
  have hchange : ((quadratic A 0 0).jet (st.stepTo s d j)).2 - st.gradient =
      crossChange e₁ e₂ l κ v := by
    refine vec_ext (congrFun ?_)
    rw [hon.change, hstep, get_crossStep, hx.mulVec_mix, get_crossChange]
    congr 1 <;> ring
  refine ⟨hst ▸ rfl, ?_⟩
  rw [crossUpdate, ← hstep, ← hchange, ← hH, hst]
  rfl

/-- It does not converge if the tolerance for steps is small. -/
theorem not_converged (h : Pace s (quadratic A 0 0) st d st' e) (hs : s.ComesDown K)
    (htolx : (∑ i, |e₁ i|) * s.tolx < s.backtrack ^ K * l) : e ≠ some .converged := by
  have hdot : e₁ ⬝ᵥ d.get = -l := by
    rw [hx.get_direction hon hx₀ hH hd, mix, dotProduct_add, dotProduct_smul, dotProduct_smul,
      hx.unit₁, hx.ortho, smul_zero, add_zero, smul_eq_mul, mul_one]
  refine h.not_converged hs ?_ htolx
  rw [hdot, abs_neg, abs_of_pos hc.pos]

/-- **Where it leads the run is stuck** with the update. -/
theorem frozen (h : Pace s (quadratic A 0 0) st d st' e) (he : e ≠ some .converged) {m : ℝ}
    (hm₀ : 0 ≤ m) (hm₁ : m ≤ 1) :
    Frozen A (crossUpdate s e₁ e₂ l κ v).matrix (mix e₁ e₂ (κ ^ 2 * v) (-1)) m
      (κ * l * (v * (κ - 1))) s.curvatureTol st' := by
  obtain ⟨hx', hH'⟩ := hc.moves hx hon hx₀ hH hd h he
  have hκ := hc.wide
  have hl := hc.pos
  have hv := hc.off
  have hon' := h.on hon
  have hget : st'.x.get = mix e₁ e₂ 0 (v * (1 - κ)) := by
    rw [hx', hx.get_trial hon hx₀ hH hd, hc.fits, mul_left_comm, hc.fits, sub_self, mul_one]
  refine ⟨hon', hH', ?_, ?_⟩
  · have hsq : (1 - κ) ^ 2 ≤ κ ^ 2 := by
      have hsum : 0 ≤ 2 * κ - 1 := by linarith
      linarith
    have hmul := mul_le_mul_of_nonneg_left hsq (by positivity : 0 ≤ κ * l * v ^ 2)
    have hlow := hc.low
    rw [hon'.value_eq, hx.value_mix hget]
    linarith
  · have hslope : mix e₁ e₂ (κ ^ 2 * v) (-1) ⬝ᵥ st'.gradient.get = κ * l * (v * (κ - 1)) := by
      rw [hon'.gradient_eq, hx.gradient_mix hget, hx.dot_mix]
      ring
    have hpos : 0 ≤ κ * l * (v * (κ - 1)) := by
      have hdiff : 0 ≤ κ - 1 := by linarith
      positivity
    rw [hslope, abs_of_nonneg hpos]
    exact mul_le_of_le_one_left hpos (pow_le_one₀ hm₀ hm₁)

end First

/-- **A run from such a start does not converge**, if the tolerance for steps is small enough. -/
theorem exists_run [Solver ℝ] [ExactSolver] {m : ℝ} (hA : A.PosDef)
    (hp : Persists s.backtrack K A (crossUpdate s e₁ e₂ l κ v).matrix (mix e₁ e₂ (κ ^ 2 * v) (-1))
      (crossRate l κ v) m)
    (hs : s.ComesDown K)
    (htolx : (∑ i, |(A *ᵥ mix e₁ e₂ (κ ^ 2 * v) (-1)) i|) * s.tolx <
      s.backtrack ^ K * (crossRate l κ v * (m ^ s.maxiter * (κ * l * (v * (κ - 1))))))
    (htolx₁ : (∑ i, |e₁ i|) * s.tolx < s.backtrack ^ K * l) {x0 : Vec ℝ n}
    (hx₀ : x0.get = mix e₁ e₂ 1 v) :
    ∃ course st ending, (quadratic A 0 0).run (fun _ => false) s x0 =
      (course, .ok (State.result st ending)) ∧ ending ≠ .converged := by
  have hκ := hc.wide
  have hl := hc.pos
  have hv := hc.off
  have hL : 0 ≤ κ * l * (v * (κ - 1)) := by
    have hdiff : 0 ≤ κ - 1 := by linarith
    positivity
  have hon := State.On.start (o := quadratic A 0 0) s (fun _ => rfl) x0
  refine exists_run_unconverged hp hA hs hL htolx rfl (.inr ?_)
  intro d st' e hd h
  have he := hc.not_converged hx hon hx₀ rfl hd h hs htolx₁
  exact ⟨he, fun _ => hc.frozen hx hon hx₀ rfl hd h he hp.part_pos.le hp.part_le_one⟩

end Crossing

end VariableMetric
