import Photoplot.Geometry.Point

/-!
The units of raw coordinates.

A command file holds whole numbers; how long one of them is depends on the units in force. A unit
is chosen in a configuration by its selector, a number from one to three.
-/

set_option autoImplicit false

namespace Photoplot

/-- The length of one raw coordinate unit. -/
inductive Units where
  | tenthsOfMillimeter
  | hundredthsOfInch
  | thousandthsOfInch
deriving DecidableEq, Repr

namespace Units

/-- The units in force when nothing chooses others. -/
def standard : Units := hundredthsOfInch

/-- Inches per raw unit. -/
def scale : Units → Float
  | tenthsOfMillimeter => 0.0039
  | hundredthsOfInch => 0.01
  | thousandthsOfInch => 0.001

/-- The name of the units in messages. -/
def name : Units → String
  | tenthsOfMillimeter => "tenths of millimeters"
  | hundredthsOfInch => "hundredths of inches"
  | thousandthsOfInch => "thousandths of inches"

/-- The units that a selector chooses. -/
def ofSelector? (n : Int) : Option Units :=
  if n = 1 then some tenthsOfMillimeter
  else if n = 2 then some hundredthsOfInch
  else if n = 3 then some thousandthsOfInch
  else none

/-- The point at raw coordinates. -/
def pointAt (u : Units) (x y : Int) : Point :=
  ⟨u.scale * Float.ofInt x, u.scale * Float.ofInt y⟩

end Units

end Photoplot
