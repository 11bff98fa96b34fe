import VariableMetric.Datum.Printer

/-!
# What can go wrong

Every failure of the library is a value that names its cause and holds what the message tells of it.

* `Fault`: the causes.
* `Fault.kind`: the class of a cause, by which callers tell failures apart.
* `Fault.message`: the text shown for a cause.
-/

namespace VariableMetric

/-- The classes of failures. -/
inductive FaultKind where
  | type | value | overflow | index | attribute | frozen | runtime | arithmetic | linearAlgebra
  | operand
  deriving DecidableEq, Repr

/-- The two orders that a comparison can ask for. -/
inductive Order where
  | below | atMost | above
  deriving DecidableEq, Repr

/-- The sign of an order. -/
def Order.sign : Order → String
  | .below => "<"
  | .atMost => "<="
  | .above => ">"

/-- What a point without axes can be. -/
inductive Axisless where
  | number | array | tensor
  deriving DecidableEq, Repr

/-- The causes of failures. -/
inductive Fault where
  /-- A failure of a callable that a caller supplied. -/
  | raised (kind : FaultKind) (text : String)
  -- Objectives
  | notObjective (d : Datum)
  | notCallable (role : String) (d : Datum)
  | called (d : Datum)
  | gradientMissing
  | notScalar (shape : Shape)
  | tooFewToUnpack (got : Nat)
  | tooManyToUnpack
  | notUnpackable (d : Datum)
  | coordinateMissing (k n : Nat)
  | axislessIndexed (make : Axisless)
  | axislessCounted (make : Axisless)
  | outsideLoop
  -- Tracked objectives
  | notTensor (typeName : String)
  | notScalarTensor (shape : Shape)
  | unknownFormat (name : String)
  | notFloatingType (name : String)
  | noArrayForm (name : String)
  | tensorCoordinateMissing (k n : Nat)
  | stackedNumber (position : Nat)
  | stackedShapes (first : Shape) (position : Nat) (other : Shape)
  | tensorSizes (a b axis : Nat)
  | tensorAsNumber
  -- Numbers and arrays read from values
  | ragged (shape : Shape)
  | tooManyAxes (limit : Nat)
  | notADecimal (text : String)
  | integerTooLarge
  | notANumber (d : Datum)
  | notAnInteger (d : Datum)
  | notReal (d : Datum)
  | notIntegral (d : Datum)
  | integerOfInfinity
  | integerOfNan
  | arrayAsScalar
  | unorderable (order : Order) (a b : Datum)
  -- Options
  | notIterable (d : Datum)
  | entryNotSequence (position : Nat)
  | entryLength (position length : Nat)
  | unhashable (d : Datum)
  | unknownOptions (names : List String)
  | optionNameNotText (position : Nat) (d : Datum)
  | unexpectedOption (call name : String)
  | argumentTwice (call name : String)
  | keywordTwice (call name : String)
  | frozenOption (name : String)
  | noAttribute (typeName name : String)
  | maxiterNotInteger (d : Datum)
  | maxiterNegative
  | notPositive (name : String) (d : Datum)
  | backtrackOutside
  | curvatureTolNegative
  | displayNotText (d : Datum)
  | displayUnknown (text : String)
  -- Runs
  | startShape (shape : Shape)
  | startEmpty
  | startInfinite
  | valuesInfinite
  | gradientShape (got : Shape) (n : Nat)
  | searchUnfinished
  -- Line search
  | shrinkOutside
  | minStepNotPositive
  -- Linear algebra
  | singular
  | tooFewAxes (axes : Nat)
  | notSquare
  | shapesApart (a b : Shape)
  | stacksApart (a b : Shape) (rows columns : Nat)
  | dotShapes (a b : Shape)
  | productLengths (got wanted : Nat)
  | productFirstAxes
  | productAxes
  | systemLengths (got wanted : Nat)
  | systemRows (got wanted : Nat)
  | systemAxes
  | noAxis
  | notAFactor (d : Datum)
  | textCompared
  | textMultiplied
  | textRepeated
  | mixedArray
  | eigenvaluesUnsettled
  -- Reports
  | unknownStatus (d : Datum)
  | integerFormat (d : Datum)
  -- Logging
  | badTemplate (text : String)
  | unknownLevel (text : String)
  | levelIsStyles
  | levelNotInteger
  | templateNotText (d : Datum)
  | loggerNameNotText

namespace Fault

/-- The class of a cause. -/
def kind : Fault → FaultKind
  | .raised kind _ => kind
  | .coordinateMissing .. | .tensorCoordinateMissing .. | .axislessIndexed _ | .noAxis => .index
  | .integerTooLarge | .integerOfInfinity => .overflow
  | .frozenOption _ => .frozen
  | .noAttribute .. | .unknownFormat _ => .attribute
  | .singular | .tooFewAxes _ | .notSquare | .eigenvaluesUnsettled => .linearAlgebra
  | .stackedShapes .. | .tensorSizes .. | .outsideLoop | .searchUnfinished => .runtime
  | .textCompared | .textMultiplied => .operand
  | .notObjective _ | .notCallable .. | .called _ | .gradientMissing | .notUnpackable _
  | .axislessCounted _ | .notTensor _ | .noArrayForm _ | .stackedNumber _ | .notANumber _
  | .notAnInteger _ | .notReal _ | .notIntegral _ | .arrayAsScalar | .unorderable ..
  | .notIterable _ | .entryNotSequence _ | .unhashable _ | .optionNameNotText ..
  | .unexpectedOption .. | .argumentTwice .. | .keywordTwice .. | .notAFactor _ | .textRepeated
  | .mixedArray | .integerFormat _ | .levelIsStyles | .levelNotInteger | .templateNotText _
  | .loggerNameNotText => .type
  | _ => .value

/-- The text shown for a cause. -/
def message : Fault → String
  | .raised _ text => text
  | .notObjective d => s!"objective must be an Objective or a callable, got {d.typeName}"
  | .notCallable role d => s!"{role} must be callable, got {d.typeName}"
  | .called d => s!"'{d.fullTypeName}' object is not callable"
  | .gradientMissing => "Problem requires a gradient callable."
  | .notScalar shape => "Objective must return a scalar, got shape " ++ shape.text
  | .tooFewToUnpack got => s!"not enough values to unpack (expected 2, got {got})"
  | .tooManyToUnpack => "too many values to unpack (expected 2)"
  | .notUnpackable d => s!"cannot unpack non-iterable {d.fullTypeName} object"
  | .coordinateMissing k n => s!"index {k} is out of bounds for axis 0 with size {n}"
  | .axislessIndexed .number => "invalid index to scalar variable."
  | .axislessIndexed .array =>
    "too many indices for array: array is 0-dimensional, but 1 were indexed"
  | .axislessIndexed .tensor =>
    "invalid index of a 0-dim tensor. Use `tensor.item()` in Python or `tensor.item<T>()` in " ++
      "C++ to convert a 0-dim tensor to a number"
  | .axislessCounted .number => "object of type 'numpy.float64' has no len()"
  | .axislessCounted .array => "len() of unsized object"
  | .axislessCounted .tensor => "len() of a 0-d tensor"
  | .outsideLoop => "loop variable used outside of a loop"
  | .notTensor typeName => "objective must return a torch.Tensor, got " ++ typeName
  | .notScalarTensor shape => "objective must return a scalar tensor, got shape " ++ shape.text
  | .unknownFormat name => "module 'torch' has no attribute '" ++ name ++ "'"
  | .notFloatingType name => "dtype must be a floating dtype, got torch." ++ name
  | .noArrayForm name => "Got unsupported ScalarType " ++ name
  | .tensorCoordinateMissing k n =>
    s!"index {k} is out of bounds for dimension 0 with size {n}"
  | .stackedNumber position =>
    s!"expected Tensor as element {position} in argument 0, but got float"
  | .stackedShapes first position other =>
    "stack expects each tensor to be equal size, but got " ++ sizes first ++
      s!" at entry 0 and " ++ sizes other ++ s!" at entry {position}"
  | .tensorSizes a b axis =>
    s!"The size of tensor a ({a}) must match the size of tensor b ({b}) at non-singleton " ++
      s!"dimension {axis}"
  | .tensorAsNumber => "only one element tensors can be converted to Python scalars"
  | .ragged shape =>
    "setting an array element with a sequence. The requested array has an inhomogeneous shape " ++
      s!"after {shape.length} dimensions. The detected shape was " ++ shape.text ++
      " + inhomogeneous part."
  | .tooManyAxes limit =>
    "setting an array element with a sequence. The requested array would exceed the maximum " ++
      s!"number of dimension of {limit}."
  | .notADecimal text => "could not convert string to float: " ++ Text.quoted text
  | .integerTooLarge => "int too large to convert to float"
  | .notANumber d =>
    s!"float() argument must be a string or a real number, not '{d.fullTypeName}'"
  | .notAnInteger d =>
    "int() argument must be a string, a bytes-like object or a real number, not " ++
      s!"'{d.fullTypeName}'"
  | .notReal d => "must be real number, not " ++ d.fullTypeName
  | .notIntegral d => s!"'{d.fullTypeName}' object cannot be interpreted as an integer"
  | .integerOfInfinity => "cannot convert float infinity to integer"
  | .integerOfNan => "cannot convert float NaN to integer"
  | .arrayAsScalar => "only 0-dimensional arrays can be converted to Python scalars"
  | .unorderable order a b =>
    s!"'{order.sign}' not supported between instances of '{a.fullTypeName}' and " ++
      s!"'{b.fullTypeName}'"
  | .notIterable d => s!"'{d.fullTypeName}' object is not iterable"
  | .entryNotSequence position =>
    s!"cannot convert dictionary update sequence element #{position} to a sequence"
  | .entryLength position length =>
    s!"dictionary update sequence element #{position} has length {length}; 2 is required"
  | .unhashable d => s!"unhashable type: '{d.fullTypeName}'"
  | .unknownOptions names => "Unknown option(s): " ++ ", ".intercalate names
  | .optionNameNotText position d =>
    s!"sequence item {position}: expected str instance, {d.fullTypeName} found"
  | .unexpectedOption call name =>
    call ++ "() got an unexpected keyword argument '" ++ name ++ "'"
  | .argumentTwice call name => call ++ "() got multiple values for argument '" ++ name ++ "'"
  | .keywordTwice call name =>
    call ++ "() got multiple values for keyword argument '" ++ name ++ "'"
  | .frozenOption name => "cannot assign to field " ++ Text.quoted name
  | .noAttribute typeName name => s!"'{typeName}' object has no attribute '" ++ name ++ "'"
  | .maxiterNotInteger d => "maxiter must be an integer, got " ++ d.shown
  | .maxiterNegative => "maxiter must be non-negative."
  | .notPositive name d => name ++ " must be a positive finite number, got " ++ d.shown
  | .backtrackOutside => "backtrack must lie in (0, 1)."
  | .curvatureTolNegative => "curvature_tol must be a non-negative finite number."
  | .displayNotText d => "display must be a string, got " ++ d.typeName
  | .displayUnknown text =>
    "Unknown display level " ++ Text.quoted text ++ "; expected one of silent, final, iter."
  | .startShape shape => "x0 must be a 1-D vector, got shape " ++ shape.text
  | .startEmpty => "x0 must have at least one component."
  | .startInfinite => "x0 must be finite."
  | .valuesInfinite => "Objective value and gradient must be finite at x0."
  | .gradientShape got n =>
    "Gradient has shape " ++ got.text ++ s!", expected ({n},)."
  | .searchUnfinished => "the line search did not end"
  | .shrinkOutside => "shrink must lie in (0, 1)"
  | .minStepNotPositive => "min_step must be positive"
  | .singular => "Singular matrix"
  | .tooFewAxes axes =>
    s!"{axes}-dimensional array given. Array must be at least two-dimensional"
  | .notSquare => "Last 2 dimensions of the array must be square"
  | .shapesApart a b =>
    "operands could not be broadcast together with shapes " ++ a.tight ++ " " ++ b.tight ++ " "
  | .stacksApart a b rows columns =>
    "operands could not be broadcast together with remapped shapes [original->remapped]: " ++
      a.tight ++ "->" ++ stretched a ++ " " ++ b.tight ++ "->" ++ stretched b ++
      s!"  and requested shape ({rows},{columns})"
  | .dotShapes a b =>
    let i := a.length - 1
    let j := b.length - 2
    "shapes " ++ a.tight ++ " and " ++ b.tight ++
      s!" not aligned: {a.getD i 0} (dim {i}) != {b.getD j 0} (dim {j})"
  | .productLengths got wanted =>
    "matmul: Input operand 1 has a mismatch in its core dimension 0, with gufunc signature " ++
      s!"(n?,k),(k,m?)->(n?,m?) (size {got} is different from {wanted})"
  | .productFirstAxes =>
    "matmul: Input operand 0 does not have enough dimensions (has 0, gufunc core with " ++
      "signature (n?,k),(k,m?)->(n?,m?) requires 1)"
  | .productAxes =>
    "matmul: Input operand 1 does not have enough dimensions (has 0, gufunc core with " ++
      "signature (n?,k),(k,m?)->(n?,m?) requires 1)"
  | .systemLengths got wanted =>
    "solve1: Input operand 1 has a mismatch in its core dimension 0, with gufunc signature " ++
      s!"(m,m),(m)->(m) (size {got} is different from {wanted})"
  | .systemRows got wanted =>
    "solve: Input operand 1 has a mismatch in its core dimension 0, with gufunc signature " ++
      s!"(m,m),(m,n)->(m,n) (size {got} is different from {wanted})"
  | .systemAxes =>
    "solve: Input operand 1 does not have enough dimensions (has 0, gufunc core with " ++
      "signature (m,m),(m,n)->(m,n) requires 2)"
  | .noAxis => "tuple index out of range"
  | .notAFactor d =>
    s!"unsupported operand type(s) for *: '{d.fullTypeName}' and 'float'"
  | .textCompared => noLoop "greater" "Float64DType" "StrDType"
  | .textMultiplied => noLoop "multiply" "StrDType" "Float64DType"
  | .textRepeated => "can't multiply sequence by non-int of type 'float'"
  | .mixedArray => "array type object is unsupported in linalg"
  | .eigenvaluesUnsettled => "Eigenvalues did not converge"
  | .unknownStatus d => d.shown ++ " is not a valid ExitStatus"
  | .integerFormat d => "%d format: a real number is required, not " ++ d.fullTypeName
  | .badTemplate text => "Invalid format '" ++ text ++ "' for '%' style"
  | .unknownLevel text => "Unknown level: " ++ Text.quoted text
  | .levelIsStyles =>
    "Level not an integer or a valid string: \x7b'%': (<class 'logging.PercentStyle'>, " ++
      "'%(levelname)s:%(name)s:%(message)s'), '\x7b': (<class 'logging.StrFormatStyle'>, " ++
      "'\x7blevelname\x7d:\x7bname\x7d:\x7bmessage\x7d'), " ++
      "'$': (<class 'logging.StringTemplateStyle'>, " ++
      "'$\x7blevelname\x7d:$\x7bname\x7d:$\x7bmessage\x7d')\x7d"
  | .levelNotInteger => "level must be an integer"
  | .templateNotText d => s!"expected string or bytes-like object, got '{d.fullTypeName}'"
  | .loggerNameNotText => "A logger name must be a string"
where
  /-- The axes of a stack of matrices, two new ones in place of those of the matrices. -/
  stretched (s : Shape) : String :=
    "(" ++ ",".intercalate ((s.take (s.length - 2)).map toString ++ ["newaxis", "newaxis"]) ++ ")"
  /-- An operation is not defined for the types of its operands. -/
  noLoop (operation first second : String) : String :=
    s!"ufunc '{operation}' did not contain a loop with signature matching types (<class " ++
      s!"'numpy.dtypes.{first}'>, <class 'numpy.dtypes.{second}'>) -> None"
  /-- Extents in brackets. -/
  sizes (s : Shape) : String := "[" ++ ", ".intercalate (s.map toString) ++ "]"

end Fault

end VariableMetric
