/-!
Classes of characters given by a table of code point ranges.

A character property of the Unicode standard is a list of ranges, both ends included, in ascending
order. `CodeRange.holds` is membership; the ascending order only serves the reader, because the
look-up does not rely on it.
-/

set_option autoImplicit false

namespace Photoplot.Text

/-- The first and the last code point of a range. -/
abbrev CodeRange := Nat × Nat

/-- Whether one of the ranges holds the character. -/
def CodeRange.holds (table : List CodeRange) (c : Char) : Bool :=
  table.any fun range => range.1 ≤ c.toNat && c.toNat ≤ range.2

end Photoplot.Text
