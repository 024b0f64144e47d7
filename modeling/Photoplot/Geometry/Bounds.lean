import Photoplot.Geometry.Point

/-!
The bounding box of what has been plotted.

The box starts out empty, with its ends at the infinities the wrong way round, and grows with every
point. A coordinate that is missing leaves its ends alone, and one that is equal to an end takes its
place: a zero may bear a sign, and the sign that came last is kept.
-/

set_option autoImplicit false

namespace Photoplot

/-- The smaller of two numbers, where a missing number gives way to the other. Of two that compare
as equal, such as the zeros of either sign, it is the second. -/
def smaller (a b : Float) : Float :=
  if b.isNaN then a else if a < b then a else b

/-- The larger of two numbers, where a missing number gives way to the other. Of two that compare
as equal it is the second. -/
def larger (a b : Float) : Float :=
  if b.isNaN then a else if b < a then a else b

/-- A box with sides along the axes. -/
structure Bounds where
  minX : Float
  maxX : Float
  minY : Float
  maxY : Float

/-- A stretch of an axis. -/
structure Span where
  low : Float
  high : Float

namespace Bounds

/-- The box around no point at all. -/
def empty : Bounds :=
  ⟨Decimal.infinity, -Decimal.infinity, Decimal.infinity, -Decimal.infinity⟩

/-- The box around a box and a point. -/
def grow (b : Bounds) (p : Point) : Bounds :=
  ⟨smaller b.minX p.x, larger b.maxX p.x, smaller b.minY p.y, larger b.maxY p.y⟩

/-- The box around a box and some points. -/
def growAll (b : Bounds) (points : List Point) : Bounds :=
  points.foldl grow b

theorem growAll_append (b : Bounds) (first second : List Point) :
    b.growAll (first ++ second) = (b.growAll first).growAll second :=
  List.foldl_append

/-- Whether the ends of either axis are the wrong way round. -/
def isEmpty (b : Bounds) : Bool :=
  b.maxX < b.minX || b.maxY < b.minY

/-- A stretch of an axis widened at both ends by a fortieth of its length. -/
def padded (low high : Float) : Span :=
  let margin := (high - low) / 40.0
  ⟨low - margin, high + margin⟩

/-- The range of the horizontal axis that shows the box. -/
def horizontal (b : Bounds) : Span := padded b.minX b.maxX

/-- The range of the vertical axis that shows the box. -/
def vertical (b : Bounds) : Span := padded b.minY b.maxY

end Bounds

end Photoplot
