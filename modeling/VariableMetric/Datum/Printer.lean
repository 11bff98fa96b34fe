import VariableMetric.Datum.Basic
import VariableMetric.Decimal.Shortest
import VariableMetric.Text.Quoted

/-!
# Values in messages

* `Shape.text`: a shape, `(2,)` or `(2, 3)`; `Shape.tight` is the same without blanks.
* `Datum.shown`: a value as a message shows it, texts in quotes.
* `Datum.plain`: the same, but a text on its own without its quotes.
-/

namespace VariableMetric

/-- Extents in parentheses, a comma after a lone one. -/
def Shape.textWith (separator : String) (s : Shape) : String :=
  match s with
  | [n] => s!"({n},)"
  | _ => "(" ++ separator.intercalate (s.map toString) ++ ")"

/-- A shape as messages show it. -/
def Shape.text (s : Shape) : String := s.textWith ", "

/-- A shape without blanks. -/
def Shape.tight (s : Shape) : String := s.textWith ","

namespace Datum

mutual

/-- The value as a message shows it. -/
def shown : Datum → String
  | .nothing => "None"
  | .bool b => if b then "True" else "False"
  | .int n => toString n
  | .float x => Decimal.shown x
  | .sizedInt n => "np.int64(" ++ toString n ++ ")"
  | .sizedFloat x => "np.float64(" ++ Decimal.shown x ++ ")"
  | .text s => Text.quoted s
  | .list items => "[" ++ ", ".intercalate (shownItems items) ++ "]"
  | .dictionary entries => "\x7b" ++ ", ".intercalate (shownEntries entries) ++ "\x7d"
  | .tuple [d] => "(" ++ shown d ++ ",)"
  | .tuple items => "(" ++ ", ".intercalate (shownItems items) ++ ")"
  | .array a => "array(" ++ ", ".intercalate (a.entries.toList.map Decimal.shown) ++ ")"

/-- The items of a list. -/
def shownItems : List Datum → List String
  | [] => []
  | d :: ds => shown d :: shownItems ds

/-- The entries of a dictionary. -/
def shownEntries : List (String × Datum) → List String
  | [] => []
  | (k, d) :: es => (Text.quoted k ++ ": " ++ shown d) :: shownEntries es

end

/-- The value as part of a sentence: a text as it is, a number without the name of its make. -/
def plain : Datum → String
  | .text s => s
  | .sizedInt n => toString n
  | .sizedFloat x => Decimal.shown x
  | d => d.shown

end Datum

end VariableMetric
