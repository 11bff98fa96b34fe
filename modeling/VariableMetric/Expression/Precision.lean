import VariableMetric.Binary.Double
import VariableMetric.Expression.Graph

/-!
# The precisions of recorded computations

Recorded computations are done in doubles or in a narrower format. The formats of one byte or two
meet plain numbers in single precision.

* `Precision.double`, `Precision.single`, `Precision.half`, `Precision.brain`, `Precision.quarter`:
  the precisions.
* `Precision.formatName?`: the first name of a numeric format.
* `Precision.ofFormat`: the precision of a format; one that is not of real numbers is refused.
-/

namespace VariableMetric.Precision

open Binary (Format)

/-- Doubles, which need no rounding. -/
def double : Precision Float := ⟨"Double", id, id, true⟩

/-- Single precision. -/
def single : Precision Float :=
  ⟨"Float", Format.narrow Binary.single, Format.narrow Binary.single, true⟩

/-- Half precision, reached through single precision. -/
def half : Precision Float :=
  ⟨"Half", fun x => Format.narrow Binary.half (Format.narrow Binary.single x),
    Format.narrow Binary.single, true⟩

/-- The eight leading bits of a single, which no array holds. -/
def brain : Precision Float :=
  ⟨"BFloat16", fun x => Format.narrow Binary.bfloat (Format.narrow Binary.single x),
    Format.narrow Binary.single, false⟩

/-- A format of one byte, which no array holds. Where it has no infinity, what is beyond `largest`
is no number; where it has one zero only, that has no sign. -/
def quarter (name : String) (format : Format) (largest : Option Float) (oneZero : Bool) :
    Precision Float :=
  ⟨name, fun x => settle (Format.narrow format (Format.narrow Binary.single x)),
    Format.narrow Binary.single, false⟩
where
  /-- A rounded number as the format holds it. -/
  settle (x : Float) : Float :=
    if largest.any (·.lt x.abs) then Binary.nan else if oneZero then x + 0 else x

/-- The name of a numeric format, of which some have two; `none` for a name that no format has. -/
def formatName? (name : String) : Option String :=
  match name with
  | "half" => some "float16"
  | "float" => some "float32"
  | "double" => some "float64"
  | "short" => some "int16"
  | "int" => some "int32"
  | "long" => some "int64"
  | "chalf" => some "complex32"
  | "cfloat" => some "complex64"
  | "cdouble" => some "complex128"
  | name => if formats.contains name then some name else none
where
  /-- The formats by their first names. -/
  formats : List String :=
    ["float16", "float32", "float64", "bfloat16", "float8_e4m3fn", "float8_e5m2",
      "float8_e4m3fnuz", "float8_e5m2fnuz", "int8", "int16", "int32", "int64", "uint8", "uint16",
      "uint32", "uint64", "bool", "complex32", "complex64", "complex128", "qint8", "qint32",
      "quint8", "quint4x2", "quint2x4", "bits8", "bits16", "bits1x8", "bits2x4", "bits4x2",
      "uint1", "uint2", "uint3", "uint4", "uint5", "uint6", "uint7", "int1", "int2", "int3",
      "int4", "int5", "int6", "int7"]

/-- The precision of a format, by the format's first name. -/
def ofFormat (name : String) : Except Fault (Precision Float) :=
  match name with
  | "float64" => .ok double
  | "float32" => .ok single
  | "float16" => .ok half
  | "bfloat16" => .ok brain
  | "float8_e4m3fn" => .ok (quarter "Float8_e4m3fn" Binary.quarterFine (some 448) false)
  | "float8_e5m2" => .ok (quarter "Float8_e5m2" Binary.quarterWide none false)
  | "float8_e4m3fnuz" =>
    .ok (quarter "Float8_e4m3fnuz" Binary.quarterFineLow (some 240) true)
  | "float8_e5m2fnuz" =>
    .ok (quarter "Float8_e5m2fnuz" Binary.quarterWideLow (some 57344) true)
  | name => .error (.notFloatingType name)

end VariableMetric.Precision
