import Photoplot.CommandLine.Arguments
import Photoplot.CommandLine.Directory
import Photoplot.Conversion

/-!
What a command line does to a directory.

The directory is a value, and so is the outcome: the lines printed, whether it went well and the
directory afterwards. Every script is created before its input is read, so an input that bears the
name of its script is not found as it was.

**What is decided here.** The order of the effects is that of the program: the configuration is
loaded, the settings are resolved, and only then is anything written. Scripts are written one at a
time; each is created, its inputs are converted and its text is stored, also if a fault cut it off,
in which case it has no trailer. A fault ends the whole job (`Activity.andThen` and
`Activity.forEach`), and later inputs are not touched.

An input that is the script being written cannot be read as it was before. `inputsBeside` gives it
the part of the text that has arrived in the file by then, which depends on the buffer between the
writer and the file (`Script.Buffer`). Apart from that case a source does not look at the writer.
-/

set_option autoImplicit false

namespace Photoplot

open Script (Writer)

/-! ## 1. Jobs -/

namespace Job

/-- Loads the configuration: the file that is named, else the one with the default name if there is
one. -/
def configure (job : Job) (d : Directory) : List Event × Except Fault Preferences :=
  let path? := job.configuration.or
    (if d.holds Preferences.fileName then some Preferences.fileName else none)
  match path? with
  | none => ([], .ok .none)
  | some path =>
    ([.configurationLoading path],
      match d.read path with
      | .error cause => .error (.file cause)
      | .ok bytes =>
        match Preferences.ofBytes? bytes with
        | some preferences => .ok preferences
        | none => .error .unreadableConfiguration)

/-- The inputs of a script that is being written to a place. An input that is the script itself
holds as much as has arrived in the file by the time it is read. -/
def inputsBeside (place : Place) (d : Directory) : Source := fun w input =>
  if d.leadsTo input place then (d.put place w.arrivedText.toUTF8).readText input
  else d.readText input

/-- Creates a script, converts into it and stores what came of that. -/
def writeScript (path : String) (convert : Source → Writer → Activity Writer) (d : Directory) :
    Activity Directory :=
  match d.create path with
  | .error cause => ⟨d, [], some (.file cause)⟩
  | .ok (place, d) =>
    let conversion := convert (inputsBeside place d) Writer.new
    ⟨d.put place (Conversion.scriptText conversion).toUTF8,
      conversion.events ++ Conversion.finishing conversion, conversion.fault⟩

/-- Converts one input into a script of its own. -/
def convertAlone (settings : Settings) (input : String) (d : Directory) : Activity Directory :=
  let path := outputPath input
  Activity.andThen ⟨d, [.writing input path], none⟩
    (writeScript path fun source => Conversion.ofInput settings source input)

/-- Converts all inputs into one script. -/
def convertTogether (settings : Settings) (path : String) (inputs : List String) (d : Directory) :
    Activity Directory :=
  Activity.andThen ⟨d, [.writingCombined inputs.length path], none⟩
    (writeScript path fun source => Conversion.ofInputs settings source inputs)

/-- Converts the inputs as the settings and the job say. -/
def convert (job : Job) (settings : Settings) (d : Directory) : Activity Directory :=
  Activity.andThen ⟨d, [.unitsChosen settings.units], none⟩ fun d =>
    match job.output with
    | some path => convertTogether settings path job.inputs d
    | none => Activity.forEach (convertAlone settings) job.inputs d

/-- Carries the job out, and says whether details are to be logged. -/
def carryOut (job : Job) (d : Directory) : Bool × Activity Directory :=
  let (events, loaded) := job.configure d
  match loaded.bind (Settings.resolve job.preferences) with
  | .error fault => (false, ⟨d, events, some fault⟩)
  | .ok settings =>
    (settings.verbose, Activity.andThen ⟨d, events, none⟩ (job.convert settings))

end Job

/-! ## 2. Outcomes -/

/-- What a program leaves behind. -/
structure Outcome where
  succeeded : Bool
  /-- The lines on standard output. -/
  output : List String
  /-- The lines on standard error. -/
  errors : List String
  directory : Directory

/-- How to call the program. -/
def usage : List String :=
  ["Translate photoplotter command files into Igor Pro text scripts.",
   "",
   "Usage: gerber2igor [OPTIONS] FILE...",
   "",
   "Options:",
   "  -u, --units N          1 = tenths of millimeters, 2 = hundredths of inches,",
   "                         3 = thousandths of inches (default 2)",
   "  -m, --markoffset X,Y   Mark tool offset in inches (default 0,0)",
   "  -c, --cutoffset X,Y    Cut tool offset in inches (default 0,0)",
   "  -d, --drilloffset X,Y  Drill tool offset in inches (default 0,0)",
   "  -v, --verbose          Display progress to terminal",
   "      --config FILE      RON configuration file (default gerber2igor.ron if present)",
   "      --output FILE      Combine all inputs into one script, one graph per input",
   "  -h, --help             Print this help"]

/-- The lines that a text takes up when it is printed. -/
def printedLines (text : String) : List String :=
  (Text.splitAt '\n' text.toList).map String.ofList

/-- The log lines of an activity. Details are shown on demand only, and a fault comes last. -/
def Activity.logLines {α : Type} (a : Activity α) (verbose : Bool) : List String :=
  let shown (event : Event) : Bool := verbose || event.level != .debug
  ((a.events ++ a.fault.toList.map Event.failed).filter shown).flatMap fun event =>
    printedLines event.line

/-- Runs the converter. -/
def execute (arguments : List String) (d : Directory) : Outcome :=
  match Request.ofArguments arguments with
  | .ok .help => ⟨true, usage, [], d⟩
  | .ok (.convert job) =>
    let (verbose, activity) := job.carryOut d
    ⟨activity.fault.isNone, activity.logLines verbose, [], activity.state⟩
  | .error cause =>
    let failure : Activity Directory := ⟨d, [], some (.usage cause)⟩
    ⟨false, failure.logLines false, if cause = .noInput then usage else [], d⟩

end Photoplot
