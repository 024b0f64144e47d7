import Photoplot.Geometry.Units
import Photoplot.Proofs.Decimal.Zeros

/-!
Points without negative zeros.

A comparison takes the two zeros for the same number, and the box of a script is found by comparing.
So the box could depend on the order in which points come in, if some of them had a negative zero
and others a positive one. They do not: raw coordinates are whole numbers, so the point at them has
no negative zero, and an offset cannot bring one about.

For the first, a whole number that is not zero is scaled to something away from zero, by
`AwayFromZero.mul`; the scales of the units are looked at one by one. For zero itself the product is
a positive zero, since neither factor is negative. The second is `add_ne_negative_zero`, on both
axes.
-/

set_option autoImplicit false

namespace Photoplot

open Decimal

/-- Neither coordinate is a negative zero. -/
def Point.Plain (p : Point) : Prop := p.x ≠ -0.0 ∧ p.y ≠ -0.0

theorem Point.plain_zero : Point.zero.Plain := by
  constructor <;> decide

/-- **Offsets bring no negative zero about**, whatever they are. -/
theorem Point.Plain.add {p : Point} (hp : p.Plain) (v : Point) : (p + v).Plain :=
  ⟨add_ne_negative_zero hp.1 v.x, add_ne_negative_zero hp.2 v.y⟩

/-- The scales of the units are not tiny. -/
theorem Units.awayFromZero_scale (u : Units) : AwayFromZero (-62) u.scale := by
  apply awayFromZero_of_reaches
  cases u <;> decide

/-- A coordinate is zero only if it was given as zero, and then it bears no sign. -/
theorem Units.scale_mul_ne (u : Units) (n : Int) : u.scale * Float.ofInt n ≠ -0.0 := by
  by_cases hn : n = 0
  · rw [hn]
    cases u <;> decide
  · exact (u.awayFromZero_scale.mul (awayFromZero_ofInt hn) (by omega) (by omega)).ne_negative_zero

theorem Units.plain_pointAt (u : Units) (x y : Int) : (u.pointAt x y).Plain :=
  ⟨u.scale_mul_ne x, u.scale_mul_ne y⟩

end Photoplot
