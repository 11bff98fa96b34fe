import VariableMetric.Datum.Reader

/-!
# Values as operands of arrays

A value that meets an array of doubles is taken as an array itself. If all its parts are numbers of
common size, they are doubles; with texts among them all are texts, and with anything else each part
is treated on its own.

* `Operand`: what a value amounts to.
* `Datum.operand`: the operand that a value is taken for.
* `Bound`: tests for numbers, in a shape; `Datum.bound`: the tests whether numbers are above a
  value.
* `Datum.factors`: a value as factors of doubles.
-/

namespace VariableMetric

/-- What a value amounts to where an array of doubles is met. -/
inductive Operand where
  | doubles (a : NdArray Float)
  /-- Texts, with which doubles have nothing in common. -/
  | texts
  /-- Parts of several types. -/
  | mixed (parts : NdArray Datum)

namespace Datum

mutual

/-- The parts of a value that are not arrays themselves, in order. -/
def leaves : Datum → List Datum
  | .list items | .tuple items => leavesOf items
  | .array a => a.entries.toList.map .sizedFloat
  | d => [d]

/-- The parts of the items of a list. -/
def leavesOf : List Datum → List Datum
  | [] => []
  | d :: ds => leaves d ++ leavesOf ds

end

/-- A number that has a common size: every one but integers beyond 64 bits. -/
def isCommonNumber (d : Datum) : Bool :=
  match d.number? with
  | some a => a.int?.all fun n => -(Binary.twoTo 63 : Int) ≤ n && n < (Binary.twoTo 64 : Int)
  | none => false

/-- The value is a text. -/
def isText : Datum → Bool
  | .text _ => true
  | _ => false

/-- Parts in a shape. -/
def operandOf (shape : Shape) (parts : List Datum) : Operand :=
  if parts.all isCommonNumber then
    .doubles (.ofList shape (parts.map fun d => d.number?.elim 0 Number.nearest))
  else if parts.all fun d => d.isCommonNumber || d.isText then .texts
  else .mixed ⟨shape, Vector.ofFn fun i => parts.getD i .nothing⟩

/-- **The operand that a value is taken for.** A number on its own has to be within the range of
doubles. -/
def operand (d : Datum) : Except Fault Operand := do
  if let some a := d.number? then return .doubles (.ofScalar (← a.toFloat))
  return operandOf (← settledShape d.outline) d.leaves

end Datum

/-- Tests that a number passes or fails, or that do not apply to it, in a shape. -/
abbrev Bound (α : Type) := NdArray (α → Except Fault Bool)

/-- The test whether a number is above `tol`. -/
def Bound.above {α : Type} [Scalar α] (tol : α) : Bound α :=
  .ofScalar fun x => .ok (Scalar.lt tol x)

namespace Datum

/-- A double is above a value on its own. -/
def liesBelow (d : Datum) (x : Float) : Except Fault Bool :=
  match d.number? with
  | some a => .ok (a.lt (.float x))
  | none => .error (.unorderable .above (.float x) d)

/-- **The tests whether doubles are above a value.** -/
def bound (d : Datum) : Except Fault (Bound Float) := do
  match ← d.operand with
  | .doubles a => return a.map fun tol x => .ok (tol.lt x)
  | .texts => throw .textCompared
  | .mixed parts => return parts.map liesBelow

/-- A value on its own as a factor of doubles. -/
def checkFactor (d : Datum) : Except Fault Unit :=
  match d, d.number? with
  | _, some a => do let _ ← a.toFloat
  | .text _, none => .error .textRepeated
  | d, none => .error (.notAFactor d)

/-- **A value as factors of doubles.** Parts of several types can all be factors, but what they make
is no array of doubles. -/
def factors (d : Datum) : Except Fault (NdArray Float) := do
  match ← d.operand with
  | .doubles a => return a
  | .texts => throw .textMultiplied
  | .mixed parts => do
    let _ ← parts.entries.toList.mapM checkFactor
    throw .mixedArray

end Datum

end VariableMetric
