import VariableMetric.Datum.Number

/-!
# Arrays, scalars and pairs read from values

* `Datum.outline`: the shape of nested lists, as far as the lengths agree.
* `Datum.toArray`: a value as an array of doubles.
* `Datum.scalar`: a value as one double, whatever the number of axes around it.
* `Datum.checkWritable`: a value that can be written out.
* `Datum.unpack`: a value as a pair, be it a list, a text, a dictionary's keys or an array's rows.
-/

namespace VariableMetric

/-- A shape found so far, and whether every part agrees with it. -/
structure Outline where
  /-- The extents that all parts agree on. -/
  shape : Shape
  /-- No part disagrees. -/
  regular : Bool

/-- The extents on which two parts agree. -/
def Outline.meet (a b : Outline) : Outline :=
  ⟨agreed a.shape b.shape, a.regular && b.regular && a.shape == b.shape⟩
where
  /-- The leading extents that two shapes share. -/
  agreed : Shape → Shape → Shape
    | m :: ms, n :: ns => if m = n then m :: agreed ms ns else []
    | _, _ => []

/-- The outline of a list from those of its items. -/
def Outline.ofItems : List Outline → Outline
  | [] => ⟨[0], true⟩
  | o :: os =>
    let inner := os.foldl Outline.meet o
    ⟨(os.length + 1) :: inner.shape, inner.regular⟩

namespace Datum

mutual

/-- The shape of a value: lists and tuples add an axis, arrays bring their own. -/
def outline : Datum → Outline
  | .list items | .tuple items => .ofItems (outlines items)
  | .array a => ⟨a.shape, true⟩
  | _ => ⟨[], true⟩

/-- The outlines of the items of a list. -/
def outlines : List Datum → List Outline
  | [] => []
  | d :: ds => outline d :: outlines ds

end

/-- One number of an array: as `toFloat`, with NaN for a missing value. -/
def entry : Datum → Except Fault Float
  | .nothing => .ok Binary.nan
  | d => d.toFloat

mutual

/-- The numbers in a value, in order. -/
def numbers : Datum → Except Fault (List Float)
  | .list items | .tuple items => numbersOf items
  | .array a => .ok a.entries.toList
  | d => do return [← entry d]

/-- The numbers in the items of a list. -/
def numbersOf : List Datum → Except Fault (List Float)
  | [] => .ok []
  | d :: ds => do return (← numbers d) ++ (← numbersOf ds)

end

/-- The most axes that an array can have. -/
def axisLimit : Nat := 64

/-- The shape that an outline settles, unless parts disagree or there are too many axes. -/
def settledShape (o : Outline) : Except Fault Shape :=
  if o.regular && o.shape.length ≤ axisLimit then .ok o.shape
  else if axisLimit ≤ o.shape.length then .error (.tooManyAxes axisLimit)
  else .error (.ragged o.shape)

/-- **A value as an array of doubles.** The shape is settled before any number is read. -/
def toArray (d : Datum) : Except Fault (NdArray Float) := do
  let shape ← settledShape d.outline
  let xs ← d.numbers
  return ⟨shape, Vector.ofFn fun i => xs.getD i 0⟩

/-- **A value as one double**, from a number or an array of size one. -/
def scalar (d : Datum) : Except Fault Float := do
  let a ← d.toArray
  match a.single? with
  | some x => return x
  | none => throw (.notScalar a.shape)

mutual

/-- A value that can be written out: it is made of nothing, texts, numbers, arrays and lists. -/
def checkWritable : Datum → Except Fault Unit
  | .dictionary entries => .error (.notANumber (.dictionary entries))
  | .list items | .tuple items => checkAllWritable items
  | _ => .ok ()

/-- Every item of a list can be written out. -/
def checkAllWritable : List Datum → Except Fault Unit
  | [] => .ok ()
  | d :: ds => do
    checkWritable d
    checkAllWritable ds

end

/-- The parts of a value that consists of parts. -/
def parts? : Datum → Option (List Datum)
  | .list items | .tuple items => some items
  | .text s => some (s.toList.map fun c => .text (String.singleton c))
  | .dictionary entries => some (entries.map fun e => .text e.1)
  | .array a => match a.shape with
    | [] => none
    | [_] => some (a.entries.toList.map .sizedFloat)
    | n :: rest => some ((List.range n).map fun i =>
        .array ⟨rest, Vector.ofFn fun j =>
          (a.entries[i * Shape.cells rest + j.val]?).getD 0⟩)
  | _ => none

/-- **A value as a pair.** -/
def unpack (d : Datum) : Except Fault (Datum × Datum) :=
  match d.parts? with
  | some [a, b] => .ok (a, b)
  | some (_ :: _ :: _ :: _) => .error .tooManyToUnpack
  | some ds => .error (.tooFewToUnpack ds.length)
  | none => .error (.notUnpackable d)

end Datum

end VariableMetric
