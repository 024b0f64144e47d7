import Photoplot.Decimal.Notation
import Photoplot.Text.Blank

/-!
Points of the plot plane.

Coordinates are binary64 numbers in inches. `Point.read?` reads the `x,y` form in which offsets are
given: the text is split at its first comma, and blanks around either number do not count.
-/

set_option autoImplicit false

namespace Photoplot

/-- A point, or the vector from the zero point to it. -/
structure Point where
  x : Float
  y : Float
deriving DecidableEq

namespace Point

/-- The zero point. -/
def zero : Point := ⟨0.0, 0.0⟩

/-- The point that is not there: a row of it breaks a drawn line. -/
def missing : Point := ⟨Decimal.missing, Decimal.missing⟩

/-- Moves a point by a vector. -/
protected def add (p v : Point) : Point := ⟨p.x + v.x, p.y + v.y⟩

instance : Add Point := ⟨Point.add⟩

/-- The text of a point, in parentheses. -/
def render (p : Point) : String :=
  "(" ++ Decimal.render p.x ++ "," ++ Decimal.render p.y ++ ")"

/-- Splits a text at its first comma, which belongs to neither part. -/
def splitComma? : List Char → Option (List Char × List Char)
  | [] => none
  | c :: rest =>
    if c = ',' then some ([], rest)
    else (splitComma? rest).map fun parts => (c :: parts.1, parts.2)

/-- Reads a point from the text `x,y`. -/
def read? (text : String) : Option Point := do
  let (xs, ys) ← splitComma? text.toList
  let x ← Decimal.read? (Text.trim xs)
  let y ← Decimal.read? (Text.trim ys)
  pure ⟨x, y⟩

end Point

end Photoplot
