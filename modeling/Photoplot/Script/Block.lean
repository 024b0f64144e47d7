import Photoplot.Geometry.Bounds
import Photoplot.Tool

/-!
The pieces of an Igor Pro text script.

A script is a title line followed by tables of numbers, which the program calls waves, and
directives, which it executes in order. `Block.lines` is the only place that knows how they are
spelled, so whatever a script says can be read off its blocks.

**What is decided here.** A table keeps its numbers as cells and not as text, so that its size as it
is declared (`Table.shape`) is computed from the rows that follow it and cannot disagree with them.
A directive is a constructor with the values that go into its line; those that speak of a wave carry
its number, which is what the proofs about references between blocks look at. Real numbers are
written by `Decimal.render`, the shortest digits that read back to the same number.

Every line of a script is the title, a line of a table or `X` and a directive, and ends with a line
feed. Nothing here says in which order blocks may stand; that is the matter of `Script.Writer`.
-/

set_option autoImplicit false

namespace Photoplot.Script

/-! ## 1. Tables -/

/-- The names of the tables of a script. -/
inductive TableName where
  | plotColors
  | markerColors
  | wave (index : Nat)
  | size (index : Nat)
  | color (index : Nat)
  | graphFirstWave
deriving DecidableEq, Repr

/-- The spelling of a table name. -/
def TableName.text : TableName → String
  | plotColors => "plotColors"
  | markerColors => "markerColors"
  | wave index => "wave" ++ toString index
  | size index => "size" ++ toString index
  | color index => "color" ++ toString index
  | graphFirstWave => "graphFirstWave"

/-- A number in a table. -/
inductive Cell where
  | whole (n : Nat)
  | real (x : Float)

/-- The spelling of a number in a table. -/
def Cell.text : Cell → String
  | whole n => toString n
  | real x => Decimal.render x

/-- A table of numbers. -/
structure Table where
  name : TableName
  /-- The count of columns, for a table that is more than a single column. -/
  width : Option Nat
  rows : List (List Cell)

namespace Table

/-- A table with a row for each point. -/
def ofPoints (name : TableName) (points : List Point) : Table :=
  ⟨name, some 2, points.map fun p => [.real p.x, .real p.y]⟩

/-- A table with a single column of whole numbers. -/
def ofColumn (name : TableName) (values : List Nat) : Table :=
  ⟨name, none, values.map fun n => [.whole n]⟩

/-- A table of whole numbers with several columns. -/
def ofRows (name : TableName) (width : Nat) (rows : List (List Nat)) : Table :=
  ⟨name, some width, rows.map fun row => row.map .whole⟩

/-- The size of a table as it is declared. -/
def shape (t : Table) : String :=
  match t.width with
  | none => "(" ++ toString t.rows.length ++ ")"
  | some width => "(" ++ toString t.rows.length ++ "," ++ toString width ++ ")"

/-- The line of a row: every number stands behind a tab. -/
def rowLine (row : List Cell) : String :=
  String.join (row.map fun cell => "\t" ++ cell.text)

/-- The lines of a table. -/
def lines (t : Table) : List String :=
  ["WAVES/O/N=" ++ t.shape ++ " " ++ t.name.text, "BEGIN"] ++ t.rows.map rowLine ++ ["END"]

end Table

/-! ## 2. Directives -/

/-- The axes of the graph. -/
inductive Axis where
  | bottom
  | left
deriving DecidableEq, Repr

namespace Axis

/-- The name of an axis. -/
def name : Axis → String
  | bottom => "bottom"
  | left => "left"

/-- The label of an axis. -/
def label : Axis → String
  | bottom => "x (inches)"
  | left => "y (inches)"

end Axis

/-- A step to the previous or the next graph. -/
inductive Step where
  | previous
  | next
deriving DecidableEq, Repr

/-- A counter that the control bar shows. -/
inductive Readout where
  | graphNumber
  | waveNumber
  | waveTotal
deriving DecidableEq, Repr

/-- What a script asks for besides its tables. -/
inductive Directive where
  /-- Opens the window of the graph. -/
  | display
  /-- Sets the logarithm of the greatest count of waves. -/
  | logQuantity
  /-- Draws a wave on the graph. -/
  | append (wave : Nat)
  | lineStyle
  /-- Takes the colour of each point from the colour table of the wave. -/
  | colorBy (wave : Nat)
  /-- Takes the marker size of each point from the size table of the wave. -/
  | sizeBy (wave : Nat)
  /-- Keeps an inch as long on one axis as on the other. -/
  | equalScale
  | axisLabel (axis : Axis)
  | firstStart (p : Point)
  | firstEnd (p : Point)
  | firstPathBox (start stop : Point)
  | axisRange (axis : Axis) (span : Span)
  | counters (waves graphs : Nat)
  | controlBar
  | stepButton (step : Step)
  | readout (counter : Readout)
  | markerToggle

/-- The name of the graph. -/
def graphName : String := "GerberPlot"

/-- Items in braces, separated by commas. -/
def braced (items : List String) : String :=
  "\x7b" ++ ",".intercalate items ++ "\x7d"

/-- Text in quotation marks. -/
def marked (text : String) : String :=
  "\"" ++ text ++ "\""

/-- Where a control stands and how large it is. -/
def placed (x y width height : Nat) : String :=
  "win=" ++ graphName ++ ", pos=" ++ braced [toString x, toString y]
    ++ ", size=" ++ braced [toString width, toString height]

/-- The spelling of a button that steps to another graph. -/
def Step.text (s : Step) : String :=
  let (name, x, title) := match s with
    | previous => ("prevGraph", 10, "Previous")
    | next => ("nextGraph", 100, "Next")
  "Button " ++ name ++ " " ++ placed x 8 80 24 ++ ", title=" ++ marked title
    ++ ", proc=GerberStepGraph"

/-- The spelling of a counter on the control bar. -/
def Readout.text (r : Readout) : String :=
  let (name, x, title, shown) := match r with
    | graphNumber => ("graphNumber", 200, "Graph", "root:currentGraph")
    | waveNumber => ("waveNumber", 320, "Wave", "root:currentWave")
    | waveTotal => ("waveTotal", 440, "Waves", "root:waveCount")
  "ValDisplay " ++ name ++ " " ++ placed x 12 110 16 ++ ", title=" ++ marked title
    ++ ", value=#" ++ marked shown

/-- The spelling of a directive. -/
def Directive.text : Directive → String
  | display => "Display /W=(35,45,1797,1294) /N=" ++ graphName
  | logQuantity => "Variable/G logWaveQuantity=10"
  | append wave =>
    "AppendToGraph/W=" ++ graphName ++ " " ++ (TableName.wave wave).text ++ "[][1] vs "
      ++ (TableName.wave wave).text ++ "[][0]"
  | lineStyle => "ModifyGraph/W=" ++ graphName ++ " mode=4, marker=19, lsize=1"
  | colorBy wave =>
    "ModifyGraph/W=" ++ graphName ++ " zColor(" ++ (TableName.wave wave).text ++ ")="
      ++ braced [(TableName.color wave).text, "0", "4", "ctableRGB", "0",
        TableName.plotColors.text]
  | sizeBy wave =>
    "ModifyGraph/W=" ++ graphName ++ " zmrkSize(" ++ (TableName.wave wave).text ++ ")="
      ++ braced [(TableName.size wave).text, "0", "8", "1", "8"]
  | equalScale =>
    "ModifyGraph/W=" ++ graphName ++ " width=" ++ braced ["Plan", "1", "bottom", "left"]
  | axisLabel axis => "Label/W=" ++ graphName ++ " " ++ axis.name ++ " " ++ marked axis.label
  | firstStart p =>
    "Variable/G firstStartX=" ++ Decimal.render p.x ++ ", firstStartY=" ++ Decimal.render p.y
  | firstEnd p =>
    "Variable/G firstEndX=" ++ Decimal.render p.x ++ ", firstEndY=" ++ Decimal.render p.y
  | firstPathBox start stop =>
    "TextBox/W=" ++ graphName ++ "/C/N=firstPath/A=LT "
      ++ marked ("Start " ++ start.render ++ " End " ++ stop.render)
  | axisRange axis span =>
    "SetAxis/W=" ++ graphName ++ " " ++ axis.name ++ " " ++ Decimal.render span.low ++ ","
      ++ Decimal.render span.high
  | counters waves graphs =>
    "Variable/G waveCount=" ++ toString waves ++ ", graphCount=" ++ toString graphs
      ++ ", currentGraph=0, currentWave=1"
  | controlBar => "ControlBar/W=" ++ graphName ++ " 40"
  | stepButton step => step.text
  | readout counter => counter.text
  | markerToggle =>
    "CheckBox showMarkers win=" ++ graphName ++ ", pos=" ++ braced ["560", "12"]
      ++ ", title=" ++ marked "Markers" ++ ", value=1, proc=GerberToggleMarkers"

/-! ## 3. Blocks -/

/-- A piece of a script. -/
inductive Block where
  /-- The line by which a script is recognized. -/
  | title
  | table (t : Table)
  | directive (d : Directive)

/-- The lines of a block. -/
def Block.lines : Block → List String
  | title => ["IGOR"]
  | table t => t.lines
  | directive d => ["X " ++ d.text]

/-- The lines of some blocks as they are written: every one ends with a line feed. -/
def writtenLines (blocks : List Block) : List String :=
  (blocks.flatMap Block.lines).map (· ++ "\n")

/-- The text of some blocks. -/
def render (blocks : List Block) : String :=
  String.join (writtenLines blocks)

end Photoplot.Script
