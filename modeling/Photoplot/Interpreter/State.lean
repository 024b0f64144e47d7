import Photoplot.Command.Instruction
import Photoplot.Plotter

/-!
The tool state machine.

A state holds what a command file has set so far; `State.react` says what one instruction makes of
it. Everything in it is pure and free of offsets: a drawing is described in the coordinates of the
command file, and the two states that may follow are both named, since only the plotter decides
whether the drawing is taken.

**What is decided here.** `State.react` is the whole of the machine, one case per instruction, and
most cases only change the state and log one event (`Reaction.change`). These are the others, and
the ones that record points.

* `toolUp` hands the open path over if it has points, and raises the tool. The path is cleared
  before the plotter answers, so a refused path is lost; but the tool is raised only when it was
  taken, which leaves `ifRefused` with a lowered tool and no points.
* `toolDown` records the location it starts from, and a move records where it arrives if the tool
  is down. Lowering a tool that is down already records once more and keeps what is open.
* `drill` is a fault while points are open, whether or not the tool is still down.
* `stop` and an unsupported feature end the run and leave the state as it is, open path included.

No instruction reads the file or the pattern number again. The proofs open `react` in step lemmas
only; statements about whole runs follow from those by induction over the tokens.
-/

set_option autoImplicit false

namespace Photoplot

/-- What a command file has set so far. -/
structure State where
  units : Units
  origin : Point
  location : Point
  /-- The points reached since the tool went down, the last one at the end. -/
  openPath : Array Point
  tool : Tool
  isDown : Bool
  fileNumber : Option Int
  patternNumber : Option Int

/-- Whether the data are read on. -/
inductive Flow where
  | proceed
  | halt
deriving DecidableEq, Repr

/-- What an instruction does to a state. -/
structure Reaction where
  /-- What is logged before anything is drawn. -/
  events : List Event
  /-- The drawing that is handed over, in the coordinates of the command file. -/
  drawing : Option Drawing
  /-- The state once the drawing is taken, or when there is none. -/
  after : State
  /-- The state if the drawing is refused. -/
  ifRefused : State
  /-- How it ends, unless the drawing is refused. -/
  outcome : Except Fault Flow

namespace State

/-- The state before the first token. -/
def initial (units : Units) : State :=
  ⟨units, Point.zero, Point.zero, #[], .idle, false, none, none⟩

/-- The state with the location added to the open path. -/
def record (s : State) : State :=
  { s with openPath := s.openPath.push s.location }

/-- The state at another location. A lowered tool draws its way there. -/
def moveTo (s : State) (location : Point) : State :=
  let moved := { s with location := location }
  if moved.isDown then moved.record else moved

/-- The state with a tool lowered. The path begins, or goes on, where the tool is. -/
def lower (s : State) (tool : Tool) : State :=
  { s.record with tool := tool, isDown := true }

/-- The state with nothing recorded. -/
def clearPath (s : State) : State :=
  { s with openPath := #[] }

/-- The state with the tool raised. -/
def raise (s : State) : State :=
  { s with tool := .idle, isDown := false }

/-- The path that is open, as a drawing. -/
def openDrawing (s : State) : Option Drawing :=
  if s.openPath.isEmpty then none else some (.path s.tool s.openPath.toList)

end State

namespace Reaction

/-- An instruction that only changes the state. -/
def change (event : Event) (after : State) : Reaction :=
  ⟨[event], none, after, after, .ok .proceed⟩

/-- An instruction that ends the run and leaves the state as it is. -/
def finish (events : List Event) (s : State) (outcome : Except Fault Flow) : Reaction :=
  ⟨events, none, s, s, outcome⟩

end Reaction

/-- What an instruction does. The token is the one that asks for it. -/
def State.react (s : State) (token : Token) : Instruction → Reaction
  | .move x y =>
    let location := s.units.pointAt x y
    .change (.moved location) (s.moveTo location)
  | .stop => .finish [.stopped] s (.ok .halt)
  | .toolUp =>
    ⟨[.toolUp], s.openDrawing, s.clearPath.raise, s.clearPath, .ok .proceed⟩
  | .toolDown tool => .change (.toolDown tool) (s.lower tool)
  | .drill =>
    if s.openPath.isEmpty then
      ⟨[], some (.drill s.location), s, s, .ok .proceed⟩
    else
      .finish [] s (.error (.pathOpenAtDrill s.openPath.size))
  | .setOrigin => .change (.originSet s.location) { s with origin := s.location }
  | .goToOrigin => .change (.backToOrigin s.origin) (s.moveTo s.origin)
  | .setUnits units => .change (.unitsSet units) { s with units := units }
  | .setFileNumber number => .change (.fileNumberSet number) { s with fileNumber := number }
  | .setPatternNumber number =>
    .change (.patternNumberSet number) { s with patternNumber := number }
  | .resumeNormalSpeed => .change .normalSpeedResumed s
  | .unsupported feature => .finish [] s (.error (.unsupported feature))
  | .unrecognized => .change (.unprocessed token) s

end Photoplot
