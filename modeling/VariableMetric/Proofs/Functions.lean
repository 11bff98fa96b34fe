import Mathlib.Analysis.SpecialFunctions.Log.Basic
import Mathlib.Analysis.SpecialFunctions.Trigonometric.Basic
import VariableMetric.Proofs.Extended

/-!
# Elementary functions of extended numbers

Each function of the reals goes on to the infinities by its limits there, and is undefined where
it has none, as that of a double is.

* `Extended.continued`: a function of the reals, continued by two values at the infinities.
* The instance `Elementary Extended`.
-/

namespace VariableMetric

namespace Extended

/-- A function of the reals, continued by its values at the two infinities. -/
def continued (f : ℝ → ℝ) (low high : Extended) : Extended → Extended
  | finite r => finite (f r)
  | infinite true => low
  | infinite false => high
  | nan => nan

/-- The square root; numbers below zero have none. -/
noncomputable def sqrt : Extended → Extended
  | finite r => if r < 0 then nan else finite (√r)
  | infinite false => infinite false
  | _ => nan

/-- The logarithm, without bound towards zero; numbers below zero have none. -/
noncomputable def log : Extended → Extended
  | finite r => if r < 0 then nan else if r = 0 then infinite true else finite (Real.log r)
  | infinite false => infinite false
  | _ => nan

end Extended

open Extended in
noncomputable instance : Elementary Extended where
  toScalar := inferInstance
  sqrt := sqrt
  exp := continued Real.exp (finite 0) (infinite false)
  log := log
  sin := continued Real.sin nan nan
  cos := continued Real.cos nan nan
  tanh := continued Real.tanh (finite (-1)) (finite 1)
  sinh := continued Real.sinh (infinite true) (infinite false)
  cosh := continued Real.cosh (infinite false) (infinite false)
  ofNat k := finite k

end VariableMetric
