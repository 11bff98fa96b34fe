/-!
# Lines of a text

* `isLineBreak`: the characters that end a line.
* `lines`: the lines of a text without their ends; a carriage return and a line feed in a row end
  one line together, and a text that ends with a line end has no empty last line.
-/

namespace VariableMetric.Text

/-- The character ends a line. -/
def isLineBreak (c : Char) : Bool :=
  [0xa, 0xb, 0xc, 0xd, 0x1c, 0x1d, 0x1e, 0x85, 0x2028, 0x2029].contains c.toNat

/-- The lines of a text, the first of them continuing `sofar` (in reverse); `none` stands for a line
of which nothing has been seen. -/
def linesFrom (sofar : Option (List Char)) : List Char → List String
  | [] => match sofar with
    | none => []
    | some cs => [String.ofList cs.reverse]
  | '\r' :: '\n' :: rest => String.ofList (sofar.getD []).reverse :: linesFrom none rest
  | c :: rest =>
    if isLineBreak c then String.ofList (sofar.getD []).reverse :: linesFrom none rest
    else linesFrom (some (c :: sofar.getD [])) rest

/-- The lines of a text, without their ends. -/
def lines (text : String) : List String := linesFrom none text.toList

example : lines "a\r\n\nb" = ["a", "", "b"] := by decide

example : lines "\n" = [""] := by decide

end VariableMetric.Text
