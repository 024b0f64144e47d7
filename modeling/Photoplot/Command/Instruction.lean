import Photoplot.Command.Token
import Photoplot.Fault
import Photoplot.Tool

/-!
What the tokens of a command file ask for.

`Instruction.ofToken` is the table of the dialect. Several spellings ask for the same thing, some
codes are known but cannot be drawn, and whatever the table does not list is unrecognized.
-/

set_option autoImplicit false

namespace Photoplot

/-- The meaning of a token. -/
inductive Instruction where
  | move (x y : Int)
  | stop
  | toolUp
  | toolDown (tool : Tool)
  | drill
  | setOrigin
  | goToOrigin
  | setUnits (units : Units)
  | setFileNumber (number : Option Int)
  | setPatternNumber (number : Option Int)
  | resumeNormalSpeed
  | unsupported (feature : Feature)
  | unrecognized
deriving DecidableEq, Repr

/-- Looks a token up in the table of the dialect. -/
def Instruction.ofToken : Token → Instruction
  | .coordinate x y => .move x y
  | .command code value =>
    match code, value with
    | 'M', some 0 => .stop
    | 'A', _ => .toolUp
    | 'D', some 2 => .toolUp
    | 'M', some 15 => .toolUp
    | 'B', _ => .toolDown .cut
    | 'M', some 14 => .toolDown .cut
    | 'D', some 1 => .toolDown .mark
    | 'G', some 4 => .setOrigin
    | 'G', some 70 => .setUnits .thousandthsOfInch
    | 'G', some 71 => .setUnits .tenthsOfMillimeter
    | 'G', some 91 => .setUnits .hundredthsOfInch
    | 'H', number => .setFileNumber number
    | 'N', number => .setPatternNumber number
    | 'O', _ => .resumeNormalSpeed
    | 'M', some 26 => .resumeNormalSpeed
    | 'R', _ => .drill
    | 'M', some 43 => .drill
    | 'M', some 44 => .drill
    | 'E', _ => .unsupported .flickNotch
    | 'M', some 68 => .unsupported .flickNotch
    | 'M', some 70 => .goToOrigin
    | 'M', some 30 => .unsupported .rewind
    | 'M', some 69 => .unsupported .conveyorBite
    | '/', _ => .unsupported .blockDelete
    | _, _ => .unrecognized

end Photoplot
