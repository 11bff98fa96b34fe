import VariableMetric.Decimal.Reader
import VariableMetric.Fault

/-!
# Numbers of several makes

A number keeps the make it was given in. Numbers of different makes are compared exactly, unless one
of them has a fixed size: beside a double, an integer of fixed size counts as the nearest double.

* `Number.lt`, `Number.same`: comparison.
* `Number.toFloat`: the nearest double, a fault for an integer beyond all doubles.
* `Number.ceiling`, `Number.floor`: the doubles that stand in for a number when doubles are compared
  with it.
* `Datum.number?`, `Datum.real`, `Datum.toFloat`, `Datum.toInt`: numbers read from values.
* `Datum.exactInt?`: the integer that a value is equal to.
* `Datum.isTrue`: values read as truth values.
-/

namespace VariableMetric

/-- A number and its make. -/
inductive Number where
  | bool (b : Bool)
  | int (n : Int)
  | float (x : Float)
  /-- An integer of fixed size. -/
  | sizedInt (n : Int)
  /-- A double of a numerical library. -/
  | sizedFloat (x : Float)

namespace Number

/-- The integer that a truth value stands for. -/
def ofBool (b : Bool) : Int := if b then 1 else 0

/-- The double at or above the number, or the nearest one for an integer of fixed size. A plain
double is below the number exactly when it is below this one. -/
def ceiling : Number → Float
  | .bool b => Binary.ofIntToward true (ofBool b)
  | .int n => Binary.ofIntToward true n
  | .sizedInt n => Binary.ofIntNearest n
  | .float x | .sizedFloat x => x

/-- The double at or below the number, or the nearest one for an integer of fixed size. A plain
double is above the number exactly when it is above this one. -/
def floor : Number → Float
  | .bool b => Binary.ofIntToward false (ofBool b)
  | .int n => Binary.ofIntToward false n
  | .sizedInt n => Binary.ofIntNearest n
  | .float x | .sizedFloat x => x

/-- The integer that the number is, unless it is a double. -/
def int? : Number → Option Int
  | .bool b => some (ofBool b)
  | .int n | .sizedInt n => some n
  | .float _ | .sizedFloat _ => none

/-- The number has a fixed size. -/
def isSized : Number → Bool
  | .sizedInt _ | .sizedFloat _ => true
  | _ => false

/-- The nearest double, infinite for an integer beyond all doubles. -/
def nearest (a : Number) : Float :=
  match a.int? with
  | some n => Binary.ofIntNearest n
  | none => a.floor

/-- Below: integers exactly, numbers of fixed size by their nearest doubles, others exactly. -/
def lt (a b : Number) : Bool :=
  match a.int?, b.int? with
  | some m, some n => m < n
  | _, _ => if a.isSized || b.isSized then a.nearest.lt b.nearest else a.floor.lt b.ceiling

/-- The number is not a number. -/
def isNaN : Number → Bool
  | .float x | .sizedFloat x => x.isNaN
  | _ => false

/-- Equal: neither is below the other. -/
def same (a b : Number) : Bool := !a.isNaN && !b.isNaN && !a.lt b && !b.lt a

/-- The nearest double. -/
def toFloat (a : Number) : Except Fault Float :=
  match a.int? with
  | some n => match Binary.ofInt? n with
    | some x => .ok x
    | none => .error .integerTooLarge
  | none => .ok a.floor

/-- The number as a value. -/
def toDatum : Number → Datum
  | .bool b => .bool b
  | .int n => .int n
  | .float x => .float x
  | .sizedInt n => .sizedInt n
  | .sizedFloat x => .sizedFloat x

end Number

namespace Datum

/-- The number that a value is, whatever its make. -/
def number? : Datum → Option Number
  | .bool b => some (.bool b)
  | .int n => some (.int n)
  | .float x => some (.float x)
  | .sizedInt n => some (.sizedInt n)
  | .sizedFloat x => some (.sizedFloat x)
  | _ => none

/-- The number that a value has to be. -/
def real (d : Datum) : Except Fault Number :=
  match d.number? with
  | some a => .ok a
  | none => .error (.notReal d)

/-- The double that a value is converted to: a number, a text that holds one, or an array without
axes. -/
def toFloat (d : Datum) : Except Fault Float :=
  match d with
  | .text s => match Decimal.read? s with
    | some x => .ok x
    | none => .error (.notADecimal s)
  | .array a =>
    if a.shape = [] then match a.single? with
      | some x => .ok x
      | none => .error .arrayAsScalar
    else .error .arrayAsScalar
  | d => match d.number? with
    | some a => a.toFloat
    | none => .error (.notANumber d)

/-- The value counts as true where a truth value is wanted: it is not nothing, not zero and not
empty. -/
def isTrue : Datum → Bool
  | .nothing => false
  | .text s => !s.isEmpty
  | .list items | .tuple items => !items.isEmpty
  | .dictionary entries => !entries.isEmpty
  | .array a => a.shape.cells ≠ 0
  | d => !d.number?.any (·.same (.int 0))

/-- The integer part of a double. -/
def integerPart (x : Float) : Except Fault Int :=
  match Binary.Parts.ofFloat x with
  | .nan => .error .integerOfNan
  | .infinite _ => .error .integerOfInfinity
  | .finite negative m q => .ok (Binary.truncate negative m q)

/-- The integer that a value is converted to, the fraction of a double being dropped; `refused` for
a value that is no number. -/
def toInt (refused : Datum → Fault) (d : Datum) : Except Fault Int :=
  match d.number? with
  | some a => match a.int? with
    | some n => .ok n
    | none => integerPart a.floor
  | none => .error (refused d)

/-- The integer that a value is equal to, if it is a number that equals one. -/
def exactInt? (d : Datum) : Option Int := do
  let a ← d.number?
  let n ← (d.toInt .notAnInteger).toOption
  if a.same (.int n) then some n else none

end Datum

end VariableMetric
