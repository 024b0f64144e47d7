import Photoplot.Command.Scanner

/-!
How far the reading of an input has come.

The share is counted in bytes. Whoever reads with a scanner reports its offset after every pull.
-/

set_option autoImplicit false

namespace Photoplot

/-- A count of bytes out of a total. -/
structure Progress where
  total : Nat
  current : Nat

namespace Progress

/-- Nothing has been read yet. -/
def start (total : Nat) : Progress := ⟨total, 0⟩

/-- The progress once so many bytes have been read. -/
def update (p : Progress) (current : Nat) : Progress := { p with current := current }

/-- The share that has been read, in percent. An empty input is read at once. -/
def percent (p : Progress) : Float :=
  if p.total = 0 then 100.0
  else 100.0 * Float.ofNat p.current / Float.ofNat p.total

end Progress

/-- The byte counts that reading a text reports, one for each pull. -/
def reportedOffsets (text : String) : List Nat :=
  (Scanner.ofText text).pulls.map fun pull => pull.after.offset

end Photoplot
