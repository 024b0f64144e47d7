import Photoplot.Activity
import Photoplot.Configuration.Settings
import Photoplot.Interpreter.Run
import Photoplot.Script.Writer

/-!
Converting command files into scripts.

Every input has an interpreter of its own, so nothing but the writer passes from one input to the
next. A fault ends the conversion and leaves the script as it was written so far. Where the inputs
come from is left to a `Source`.

**What is decided here.** The units, the location, the origin and the lowered tool begin anew with
every input, and the settings are the same for all. What is carried over is the writer, hence the
numbers of the waves, the bounding box and whether a wave has been put on the graph.

`ofInput` asks its source with the writer at hand, before anything of the input is interpreted; an
unreadable input leaves the writer as it is. `ofInputs` begins a graph for each further input before
that input is read. The trailer belongs to `scriptText` and depends only on whether the conversion
came to its end: a fault in the last input costs the trailer of all of them.
-/

set_option autoImplicit false

namespace Photoplot

open Script (Writer)

/-- Reads an input by its name. What has been written by then is given too, because an input may be
the very script that is being written. -/
abbrev Source := Writer → String → Except FileFault String

namespace Conversion

/-- What is logged when an input has come to its end, with or without a stop code. -/
def closing (name : String) (flow : Flow) (wavesBefore : Nat) (i : Interpreter Writer) :
    List Event :=
  (match flow with
    | .proceed => [.noStopCode name]
    | .halt => [])
    ++ i.closing ++ [.wavesPlotted name (i.plotter.waves - wavesBefore)]

/-- Converts the text of one input. -/
def ofText (name text : String) (settings : Settings) (w : Writer) : Activity Writer :=
  let run := (Interpreter.new w settings.units settings.offsets).runText text
  match run.outcome with
  | .ok flow =>
    ⟨run.after.plotter, run.events ++ closing name flow w.waves run.after, none⟩
  | .error fault => ⟨run.after.plotter, run.events, some fault⟩

/-- Converts one input, which may turn out to be unreadable. -/
def ofInput (settings : Settings) (source : Source) (name : String) (w : Writer) :
    Activity Writer :=
  match source w name with
  | .ok text => ofText name text settings w
  | .error cause => ⟨w, [], some (.file cause)⟩

/-- Converts all inputs into one script. Each input but the first begins a graph. -/
def ofInputs (settings : Settings) (source : Source) : List String → Writer → Activity Writer
  | [], w => .start w
  | first :: further, w =>
    (ofInput settings source first w).andThen
      (Activity.forEach (fun name w => ofInput settings source name w.beginGraph) further)

/-- The text of the script that a conversion leaves: with the trailer if it came to its end. -/
def scriptText (c : Activity Writer) : String :=
  match c.fault with
  | none => c.state.finishedText
  | some _ => c.state.text

/-- What is logged once a conversion is over. -/
def finishing (c : Activity Writer) : List Event :=
  match c.fault with
  | none => c.state.closing
  | some _ => []

end Conversion

end Photoplot
