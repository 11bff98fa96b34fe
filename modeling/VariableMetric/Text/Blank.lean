/-!
# Blank characters

* `isBlank`: white space, in every script, with the four information separators.
* `isSpace`: white space alone.
* `strip`: a text without the characters of a class at its two ends.
-/

namespace VariableMetric.Text

/-- The code points of blank characters. -/
def blanks : List Nat :=
  [0x9, 0xa, 0xb, 0xc, 0xd, 0x1c, 0x1d, 0x1e, 0x1f, 0x20, 0x85, 0xa0, 0x1680, 0x2000, 0x2001,
    0x2002, 0x2003, 0x2004, 0x2005, 0x2006, 0x2007, 0x2008, 0x2009, 0x200a, 0x2028, 0x2029, 0x202f,
    0x205f, 0x3000]

/-- The character is white space or an information separator. -/
def isBlank (c : Char) : Bool := blanks.contains c.toNat

/-- The character is white space. -/
def isSpace (c : Char) : Bool := isBlank c && !(0x1c ≤ c.toNat && c.toNat ≤ 0x1f)

/-- The characters between the first and the last outside of a class. -/
def strip (inClass : Char → Bool) (cs : List Char) : List Char :=
  ((cs.dropWhile inClass).reverse.dropWhile inClass).reverse

end VariableMetric.Text
