import Photoplot.Geometry.Point

/-!
The tools of the plotter and their offsets.

Each tool is mounted a little away from the pen position that a command file counts from, so
whatever it draws is moved by an offset of its own. On the graph a tool is told by its colour, a row
of a palette.
-/

set_option autoImplicit false

namespace Photoplot

/-- What is lowered onto the film: nothing, or one of three tools. -/
inductive Tool where
  | idle
  | mark
  | cut
  | drill
deriving DecidableEq, Repr

namespace Tool

/-- The name of the tool in messages. -/
def name : Tool → String
  | idle => "none"
  | mark => "mark"
  | cut => "cut"
  | drill => "drill"

/-- The row of the palette in which the tool draws. Row three is kept free for notches, which
nothing draws. -/
def colorRow : Tool → Nat
  | mark => 0
  | cut => 1
  | drill => 2
  | idle => 4

end Tool

/-- The offset of each tool, in inches. -/
structure Offsets where
  mark : Point
  cut : Point
  drill : Point

namespace Offsets

/-- No tool is away from the pen position. -/
def none : Offsets := ⟨Point.zero, Point.zero, Point.zero⟩

/-- The offset of a tool. With no tool lowered there is none. -/
def of (o : Offsets) : Tool → Point
  | .mark => o.mark
  | .cut => o.cut
  | .drill => o.drill
  | .idle => Point.zero

end Offsets

end Photoplot
