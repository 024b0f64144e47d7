import Photoplot.Command.Lexeme
import Photoplot.Fault
import Photoplot.Tool

/-!
What is logged.

An event says what happened; its level says who wants to know, and `Event.message` holds the
wording.
-/

set_option autoImplicit false

namespace Photoplot

/-- How much an event matters. -/
inductive Level where
  | debug
  | info
  | warning
  | error
deriving DecidableEq, Repr

namespace Level

/-- The tag at the beginning of a log line. -/
def tag : Level → String
  | debug => "DEBUG"
  | info => "INFO"
  | warning => "WARN"
  | error => "ERROR"

end Level

/-- Something that is worth a line in the log. -/
inductive Event where
  /-- A lexeme was passed over because its numbers are out of range. -/
  | outOfRange (lexeme : Lexeme)
  | moved (location : Point)
  | toolDown (tool : Tool)
  | toolUp
  | drilling (location : Point)
  | stopped
  | originSet (origin : Point)
  | backToOrigin (origin : Point)
  | unitsSet (units : Units)
  | fileNumberSet (number : Option Int)
  | patternNumberSet (number : Option Int)
  | normalSpeedResumed
  /-- A command that the dialect does not know was passed over. -/
  | unprocessed (token : Token)
  /-- A path was still open when the data ended, and is not drawn. -/
  | pathDiscarded (points : Nat) (tool : Tool)
  | pathPlotted (wave : Nat) (tool : Tool) (points : Nat)
  | drillPlotted (wave : Nat) (location : Point)
  | nothingPlotted
  | noStopCode (input : String)
  | wavesPlotted (input : String) (count : Nat)
  | configurationLoading (path : String)
  | unitsChosen (units : Units)
  | writing (input output : String)
  | writingCombined (inputs : Nat) (output : String)
  | failed (fault : Fault)

namespace Event

/-- The level of an event. -/
def level : Event → Level
  | outOfRange _ | pathDiscarded .. => .warning
  | unprocessed _ | noStopCode _ | wavesPlotted .. | configurationLoading _ | unitsChosen _
  | writing .. | writingCombined .. => .info
  | failed _ => .error
  | _ => .debug

/-- A number that may be absent, as messages show it. -/
def optionalNumber : Option Int → String
  | some n => "Some(" ++ toString n ++ ")"
  | none => "None"

/-- What kind of lexeme it is, as messages call it. -/
def lexemeKind : Lexeme → String
  | .command .. => "Command "
  | .coordinate .. => "Coordinate "

/-- The wording of an event. -/
def message : Event → String
  | outOfRange lexeme =>
    lexemeKind lexeme ++ String.ofList lexeme.text ++ " out of range, skipped"
  | moved location => "Move to " ++ location.render
  | toolDown tool => "Tool " ++ tool.name ++ " down."
  | toolUp => "Tool up."
  | drilling location => "Drill at " ++ location.render
  | stopped => "Stop."
  | originSet origin => "Origin set to " ++ origin.render
  | backToOrigin origin => "Back to origin " ++ origin.render
  | unitsSet units => "Units: " ++ units.name
  | fileNumberSet number => "File number " ++ optionalNumber number
  | patternNumberSet number => "Pattern number " ++ optionalNumber number
  | normalSpeedResumed => "Resume normal speed."
  | unprocessed token => "Didn't process command " ++ token.render ++ "."
  | pathDiscarded points tool =>
    "Discarding " ++ toString points ++ " point " ++ tool.name
      ++ " path left open at end of data"
  | pathPlotted wave tool points =>
    "Wave " ++ toString wave ++ ": " ++ tool.name ++ " path of " ++ toString points ++ " points"
  | drillPlotted wave location =>
    "Wave " ++ toString wave ++ ": drill at " ++ location.render
  | nothingPlotted => "Nothing plotted, no axis ranges written"
  | noStopCode input => input ++ ": end of data without stop code"
  | wavesPlotted input count => input ++ ": " ++ toString count ++ " waves"
  | configurationLoading path => "Loading configuration from " ++ path
  | unitsChosen units => "Units: " ++ units.name
  | writing input output => "Writing " ++ input ++ " to " ++ output
  | writingCombined inputs output =>
    "Writing " ++ toString inputs ++ " inputs to " ++ output
  | failed fault => fault.message

/-- The log line of an event. -/
def line (e : Event) : String :=
  e.level.tag ++ " " ++ e.message

end Event

end Photoplot
