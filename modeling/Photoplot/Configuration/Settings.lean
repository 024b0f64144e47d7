import Photoplot.Configuration.Preferences
import Photoplot.Fault
import Photoplot.Tool

/-!
The settings of a conversion.

For every setting the command line comes before the configuration file, and the file before the
default. Only the text that counts is read: what the command line overrides is never looked at.
-/

set_option autoImplicit false

namespace Photoplot

/-- Everything a conversion has to know besides its input. -/
structure Settings where
  units : Units
  offsets : Offsets
  verbose : Bool

namespace Settings

/-- The units that a selector chooses, or the standard ones without a selector. -/
def chooseUnits : Option Int → Except Fault Units
  | none => .ok Units.standard
  | some n =>
    match Units.ofSelector? n with
    | some units => .ok units
    | none => .error (.invalidUnits n)

/-- The offset that a text gives, or none at all without a text. -/
def chooseOffset : Option String → Except Fault Point
  | none => .ok Point.zero
  | some text =>
    match Point.read? text with
    | some offset => .ok offset
    | none => .error (.invalidOffset text)

/-- Settles every setting. The units are looked at first, then the offsets of mark, cut and drill,
and the first bad one is the fault. -/
def resolve (commandLine file : Preferences) : Except Fault Settings := do
  let units ← chooseUnits (commandLine.units.or file.units)
  let mark ← chooseOffset (commandLine.markOffset.or file.markOffset)
  let cut ← chooseOffset (commandLine.cutOffset.or file.cutOffset)
  let drill ← chooseOffset (commandLine.drillOffset.or file.drillOffset)
  pure ⟨units, ⟨mark, cut, drill⟩, commandLine.verbose.getD false || file.verbose.getD false⟩

end Settings

end Photoplot
