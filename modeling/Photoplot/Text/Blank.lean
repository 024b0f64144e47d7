import Photoplot.Text.CodeRange

/-!
Blank characters, and text without the blanks around it.

Blank are exactly the characters with the property `White_Space` of the Unicode standard, which
includes the no-break spaces and the line separators. Numbers in an offset may stand between them.
-/

set_option autoImplicit false

namespace Photoplot.Text

/-- The code points with the property `White_Space`. -/
def blankRanges : List CodeRange :=
  [(0x9, 0xD), (0x20, 0x20), (0x85, 0x85), (0xA0, 0xA0), (0x1680, 0x1680), (0x2000, 0x200A),
   (0x2028, 0x2029), (0x202F, 0x202F), (0x205F, 0x205F), (0x3000, 0x3000)]

/-- Whether a character is blank. -/
def isBlank (c : Char) : Bool :=
  CodeRange.holds blankRanges c

/-- The text without the blanks at its two ends. -/
def trim (cs : List Char) : List Char :=
  ((cs.dropWhile isBlank).reverse.dropWhile isBlank).reverse

end Photoplot.Text
