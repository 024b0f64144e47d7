import Photoplot.Geometry.Point

/-!
The shape that marks a drilled hole.

A horizontal tick, a circle that returns to its start, a break, and a vertical tick, drawn as one
line. The circle has twenty points, a nineteenth of a turn apart, so the last falls on the first up
to rounding. Their directions are given as numbers, because a script must come out the same on every
machine.
-/

set_option autoImplicit false

namespace Photoplot

/-- Cosine and sine of the multiples of a nineteenth of a turn, from none to nineteen. -/
def circleDirections : List (Float × Float) :=
  [(1.0, 0.0),
   (0.9458172417006346, 0.32469946920468346),
   (0.7891405093963936, 0.6142127126896678),
   (0.5469481581224269, 0.8371664782625285),
   (0.24548548714079924, 0.9694002659393304),
   (-0.08257934547233227, 0.9965844930066698),
   (-0.4016954246529694, 0.9157733266550574),
   (-0.6772815716257409, 0.7357239106731318),
   (-0.879473751206489, 0.4759473930370737),
   (-0.9863613034027223, 0.16459459028073403),
   (-0.9863613034027224, -0.16459459028073378),
   (-0.8794737512064893, -0.4759473930370731),
   (-0.6772815716257411, -0.7357239106731316),
   (-0.40169542465296904, -0.9157733266550576),
   (-0.08257934547233274, -0.9965844930066698),
   (0.2454854871407988, -0.9694002659393305),
   (0.5469481581224266, -0.8371664782625288),
   (0.7891405093963939, -0.6142127126896674),
   (0.9458172417006346, -0.32469946920468373),
   (1.0, -2.4492935982947064e-16)]

/-- The line that marks a hole. -/
def drillMark (c : Point) : List Point :=
  [⟨c.x - 0.75, c.y⟩, ⟨c.x + 0.75, c.y⟩]
    ++ circleDirections.map (fun d => ⟨c.x + 0.5 * d.1, c.y + 0.5 * d.2⟩)
    ++ [Point.missing, ⟨c.x, c.y - 0.75⟩, ⟨c.x, c.y + 0.75⟩]

end Photoplot
