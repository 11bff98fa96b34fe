import VariableMetric.Algebra.NdArray

/-!
# What callers hand over

Options, starting points and the answers of an objective arrive as values of no particular type.
`Datum` is such a value before anything has been read from it.

* `Datum`: nothing, truth values, numbers in two makes, texts, lists, dictionaries, tuples, arrays.
* `Datum.typeName`, `Datum.fullTypeName`: the names of its type that messages show.
-/

namespace VariableMetric

/-- A value as a caller hands it over. -/
inductive Datum where
  /-- No value. -/
  | nothing
  | bool (b : Bool)
  | int (n : Int)
  | float (x : Float)
  /-- An integer of fixed size. It counts as an integer only where that is said. -/
  | sizedInt (n : Int)
  /-- A double of a numerical library, shown differently from a plain one. -/
  | sizedFloat (x : Float)
  | text (s : String)
  | list (items : List Datum)
  | dictionary (entries : List (String × Datum))
  | tuple (items : List Datum)
  | array (a : NdArray Float)

/-- The value is a truth value. -/
def Datum.isTruth : Datum → Bool
  | .bool _ => true
  | _ => false

/-- The two-axis array of a matrix given by its rows, all of `n` entries. -/
def Datum.ofMat {m n : Nat} (a : Mat Float m n) : Datum := .array (.ofMat a)

/-- The array of a vector. -/
def Datum.ofVec {n : Nat} (v : Vec Float n) : Datum := .array (.ofVec v)

/-- The short name of the type, as messages show it. -/
def Datum.typeName : Datum → String
  | .nothing => "NoneType"
  | .bool _ => "bool"
  | .int _ => "int"
  | .float _ => "float"
  | .sizedInt _ => "int64"
  | .sizedFloat _ => "float64"
  | .text _ => "str"
  | .list _ => "list"
  | .dictionary _ => "dict"
  | .tuple _ => "tuple"
  | .array _ => "ndarray"

/-- The name of the type with the library it belongs to. -/
def Datum.fullTypeName : Datum → String
  | .sizedInt _ => "numpy.int64"
  | .sizedFloat _ => "numpy.float64"
  | .array _ => "numpy.ndarray"
  | d => d.typeName

end VariableMetric
