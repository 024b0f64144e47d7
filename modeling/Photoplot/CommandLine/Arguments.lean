import Photoplot.Configuration.Integer
import Photoplot.Configuration.Preferences

/-!
Reading the arguments of a command line.

Options are taken out of the list one after the other, in a fixed order, and each together with the
argument behind it if it has a value. An option is looked for by its short name first. Only one
occurrence is taken: what is left over in the end are the inputs, and none of them may look like an
option.

**What is decided here.** The order in which `Job.ofArguments` asks for its options is the order in
which their faults are reported. The value of an option is whatever argument stands behind its
name, also if it begins with a dash or is itself the name of an option that is asked for later; so
the reading of a list depends on that order, and the theorems about shuffled arguments have to
exclude such values. An integer is checked at once, the offsets only when the settings are resolved.

Help is looked for first and wins over every fault. The flag for details is always decided by the
command line, which is why it is `some verbose` in the preferences of a job.
-/

set_option autoImplicit false

namespace Photoplot

/-! ## 1. Taking options out of a list -/

namespace Arguments

/-- The first of some names that is among the arguments. -/
def present? (names : List String) (arguments : List String) : Option String :=
  names.find? arguments.contains

/-- Takes an option without a value: whether it is there, and the other arguments. -/
def takeFlag (names : List String) (arguments : List String) : Bool × List String :=
  match present? names arguments with
  | some name => (true, arguments.erase name)
  | none => (false, arguments)

/-- The argument behind the first occurrence of a name, and the list without the two. -/
def valueBehind? (name : String) : List String → Option (String × List String)
  | [] => none
  | argument :: rest =>
    if argument = name then
      match rest with
      | value :: rest => some (value, rest)
      | [] => none
    else (valueBehind? name rest).map fun (value, rest) => (value, argument :: rest)

/-- Takes an option with a value: the value, if the option is there, and the other arguments. -/
def takeValue (names : List String) (arguments : List String) :
    Except UsageFault (Option String × List String) :=
  match present? names arguments with
  | none => .ok (none, arguments)
  | some name =>
    match valueBehind? name arguments with
    | some (value, rest) => .ok (some value, rest)
    | none => .error (.valueMissing name)

/-- Takes an option whose value is an integer. -/
def takeInteger (names : List String) (arguments : List String) :
    Except UsageFault (Option Int × List String) := do
  match ← takeValue names arguments with
  | (none, rest) => .ok (none, rest)
  | (some value, rest) =>
    match Integer.read value with
    | .ok n => .ok (some n, rest)
    | .error cause => .error (.notInteger value cause)

/-- Whether an argument begins like an option. -/
def looksLikeOption (argument : String) : Bool :=
  argument.toList.head? == some '-'

/-- The arguments left over, as inputs. -/
def inputs (arguments : List String) : Except UsageFault (List String) :=
  match arguments.find? looksLikeOption with
  | some argument => .error (.unknownOption argument)
  | none => if arguments.isEmpty then .error .noInput else .ok arguments

end Arguments

/-! ## 2. Requests -/

/-- A request to convert some inputs. -/
structure Job where
  preferences : Preferences
  /-- The configuration file, if one is named. -/
  configuration : Option String
  /-- The script for all inputs, if there is to be a single one. -/
  output : Option String
  inputs : List String
deriving DecidableEq, Repr

/-- What a command line asks for. -/
inductive Request where
  | help
  | convert (job : Job)
deriving DecidableEq, Repr

open Arguments in
/-- Reads a job from the arguments. -/
def Job.ofArguments (arguments : List String) : Except UsageFault Job := do
  let (units, arguments) ← takeInteger ["-u", "--units"] arguments
  let (markOffset, arguments) ← takeValue ["-m", "--markoffset"] arguments
  let (cutOffset, arguments) ← takeValue ["-c", "--cutoffset"] arguments
  let (drillOffset, arguments) ← takeValue ["-d", "--drilloffset"] arguments
  let (verbose, arguments) := takeFlag ["-v", "--verbose"] arguments
  let (configuration, arguments) ← takeValue ["--config"] arguments
  let (output, arguments) ← takeValue ["--output"] arguments
  let inputs ← Arguments.inputs arguments
  pure ⟨⟨units, markOffset, cutOffset, drillOffset, some verbose⟩, configuration, output, inputs⟩

/-- Reads a request from the arguments. Whoever asks for help gets nothing else. -/
def Request.ofArguments (arguments : List String) : Except UsageFault Request :=
  if (Arguments.takeFlag ["-h", "--help"] arguments).1 then .ok .help
  else (Job.ofArguments arguments).map .convert

end Photoplot
