import Photoplot.Geometry.Units
import Photoplot.Text.Quoted

/-!
What can go wrong, by its cause.

The wording stands in `Fault.message` and the functions before it, and nowhere else.
-/

set_option autoImplicit false

namespace Photoplot

/-- A feature that the command dialect names but whose geometry is not known. -/
inductive Feature where
  | flickNotch
  | rewind
  | conveyorBite
  | blockDelete
deriving DecidableEq, Repr

/-- The name of the feature, with the commands that ask for it. -/
def Feature.name : Feature → String
  | flickNotch => "E/M68 (Flick notch)"
  | rewind => "M30 (Rewind data file)"
  | conveyorBite => "M69 (Conveyor bite)"
  | blockDelete => "'/' (Block delete)"

/-- Why a file cannot be opened or read. -/
inductive FileFault where
  | absent
  | isDirectory
  | notDirectory
  | nameTooLong
  | notText
deriving DecidableEq, Repr

/-- The wording of a file fault. -/
def FileFault.message : FileFault → String
  | absent => "No such file or directory (os error 2)"
  | isDirectory => "Is a directory (os error 21)"
  | notDirectory => "Not a directory (os error 20)"
  | nameTooLong => "File name too long (os error 36)"
  | notText => "stream did not contain valid UTF-8"

/-- Why a text is no 64-bit integer. -/
inductive IntegerFault where
  | empty
  | invalidDigit
  | tooLarge
  | tooSmall
deriving DecidableEq, Repr

/-- The wording of an integer fault. -/
def IntegerFault.message : IntegerFault → String
  | empty => "cannot parse integer from empty string"
  | invalidDigit => "invalid digit found in string"
  | tooLarge => "number too large to fit in target type"
  | tooSmall => "number too small to fit in target type"

/-- Why a list of command line arguments is refused. -/
inductive UsageFault where
  | valueMissing (option : String)
  | notInteger (value : String) (cause : IntegerFault)
  | unknownOption (argument : String)
  | noInput
deriving DecidableEq, Repr

/-- The wording of a usage fault. -/
def UsageFault.message : UsageFault → String
  | valueMissing option => "the '" ++ option ++ "' option doesn't have an associated value"
  | notInteger value cause => "failed to parse '" ++ value ++ "': " ++ cause.message
  | unknownOption argument => "Unknown option " ++ argument
  | noInput => "No input file given"

/-- Why a conversion, or the work around it, ends without a result. -/
inductive Fault where
  | pathOpenAtDrill (points : Nat)
  | unsupported (feature : Feature)
  | invalidOffset (text : String)
  | invalidUnits (selector : Int)
  | unreadableConfiguration
  | file (cause : FileFault)
  | emptyPath
  | refused
  | usage (cause : UsageFault)
deriving DecidableEq, Repr

/-- The wording of a fault. -/
def Fault.message : Fault → String
  | pathOpenAtDrill points =>
    "There should not be a path when the drill command executes (" ++ toString points
      ++ " points open)"
  | unsupported feature => "Wasn't expecting " ++ feature.name
  | invalidOffset text => "Invalid offset " ++ Text.quoted text ++ ", expected \"x,y\""
  | invalidUnits selector =>
    "Invalid units " ++ toString selector ++ ": 1 = " ++ Units.tenthsOfMillimeter.name
      ++ ", 2 = " ++ Units.hundredthsOfInch.name ++ ", 3 = " ++ Units.thousandthsOfInch.name
  | unreadableConfiguration => "Invalid configuration"
  | file cause => cause.message
  | emptyPath => "Cannot plot an empty path"
  | refused => "plotter refused"
  | usage cause => cause.message

end Photoplot
