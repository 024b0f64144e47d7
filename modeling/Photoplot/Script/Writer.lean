import Photoplot.Plotter
import Photoplot.Script.Block
import Photoplot.Script.Buffer
import Photoplot.Script.DrillMark

/-!
Writing a script, drawing by drawing.

Every drawing that is taken becomes one numbered wave: its tables follow each other, and behind the
tables of the first wave stand the directives that put it on the graph. A writer is the blocks
written so far together with what the trailer needs to know: the count of the waves, the bounding
box of the paths and the first wave of each graph.

**What is decided here.** The blocks only grow: no step rewrites what an earlier one has written, so
the script of a conversion that was cut off is a beginning of the one it would have become, less the
trailer.

* Waves are numbered from 1 by the count of those taken, over all inputs of the script.
* The opening directives are written with the first wave, path or drill mark, and the latch
  `graphed` keeps them from being written again, also when another graph has begun.
* Only paths let the bounding box grow. A drill mark is a wave without being a path, so a script
  of drill marks alone has waves and no trailer.
* `beginGraph` notes the number that the next wave will have. Nothing takes the note back when the
  input then draws nothing.
* The trailer is not a step of the writer. It is computed from what the writer has become, and
  added by whoever finishes the script.
-/

set_option autoImplicit false

namespace Photoplot.Script

/-! ## 1. The blocks of one wave -/

/-- What every script begins with. -/
def preamble : List Block :=
  [.title,
   .directive .display,
   .table (.ofRows .plotColors 3
     [[0, 65535, 0], [65535, 0, 0], [48545, 4000, 32768], [24000, 24000, 65535],
      [32768, 48545, 4000]]),
   .table (.ofRows .markerColors 4
     [[16385, 65535, 36045, 32768], [65535, 16385, 36045, 32768],
      [65535, 20000, 48535, 32768], [0, 0, 0, 65535]]),
   .directive .logQuantity]

/-- The marker sizes along a path of some points: large at the start, small at the end. -/
def markerSizes : Nat → List Nat
  | 0 => []
  | 1 => [5]
  | inner + 2 => 5 :: (List.replicate inner 8 ++ [3])

/-- The tables of a path. -/
def pathTables (wave : Nat) (tool : Tool) (points : List Point) : List Block :=
  [.table (.ofPoints (.wave wave) points),
   .table (.ofColumn (.size wave) (markerSizes points.length)),
   .table (.ofColumn (.color wave) (List.replicate points.length tool.colorRow))]

/-- The tables of a drill mark. It has no markers, hence no sizes. -/
def drillTables (wave : Nat) (center : Point) : List Block :=
  let line := drillMark center
  [.table (.ofPoints (.wave wave) line),
   .table (.ofColumn (.color wave) (List.replicate line.length Tool.drill.colorRow))]

/-- The directives that put a wave on the graph. -/
def attachment (wave : Nat) (sized : Bool) : List Block :=
  [.directive (.append wave), .directive .lineStyle, .directive (.colorBy wave)]
    ++ (if sized then [.directive (.sizeBy wave)] else [])
    ++ [.directive .equalScale, .directive (.axisLabel .bottom), .directive (.axisLabel .left)]

/-- The directives that show where the first path starts and ends. -/
def firstPathNote (start stop : Point) : List Block :=
  [.directive (.firstStart start), .directive (.firstEnd stop),
   .directive (.firstPathBox start stop)]

/-! ## 2. Writers -/

/-- A script that is being written. -/
structure Writer where
  /-- What has been written so far. -/
  blocks : Array Block
  /-- The count of the waves. -/
  waves : Nat
  /-- The bounding box of all paths. -/
  bounds : Bounds
  /-- Whether a wave has been put on the graph. -/
  graphed : Bool
  /-- The first wave of each graph. -/
  graphStarts : List Nat

namespace Writer

/-- A writer that has written the preamble. -/
def new : Writer := ⟨preamble.toArray, 0, Bounds.empty, false, [1]⟩

/-- Begins another graph with the next wave. -/
def beginGraph (w : Writer) : Writer :=
  { w with graphStarts := w.graphStarts ++ [w.waves + 1] }

/-- Writes the blocks of the next wave. Those in `once` are written for the first wave only. -/
def addWave (w : Writer) (tables once : List Block) : Writer :=
  { w with
    blocks := w.blocks ++ tables ++ (if w.graphed then [] else once)
    waves := w.waves + 1
    graphed := true }

/-- Writes a path with at least one point, given with its first and its last one. -/
def addPath (w : Writer) (tool : Tool) (points : List Point) (start stop : Point) : Writer :=
  let wave := w.waves + 1
  { w.addWave (pathTables wave tool points) (attachment wave true ++ firstPathNote start stop) with
    bounds := w.bounds.growAll points }

/-- Writes a drill mark. It does not count for the bounding box. -/
def addDrill (w : Writer) (center : Point) : Writer :=
  let wave := w.waves + 1
  w.addWave (drillTables wave center) (attachment wave false)

/-- Takes a drawing. Only a path without points is refused. -/
def plot (w : Writer) : Drawing → Answer Writer
  | .path tool points =>
    match points.head?, points.getLast? with
    | some start, some stop =>
      ⟨w.addPath tool points start stop,
        [.pathPlotted (w.waves + 1) tool points.length], none⟩
    | _, _ => ⟨w, [], some .emptyPath⟩
  | .drill center => ⟨w.addDrill center, [.drillPlotted (w.waves + 1) center], none⟩

instance : Plotter Writer := ⟨plot⟩

/-- What a script ends with: the axis ranges that show every path, the first wave of each graph and
the controls to step through them. With no path there is nothing to show, and nothing is added. -/
def trailer (w : Writer) : List Block :=
  if w.bounds.isEmpty then []
  else
    [.directive (.axisRange .bottom w.bounds.horizontal),
     .directive (.axisRange .left w.bounds.vertical),
     .table (.ofColumn .graphFirstWave w.graphStarts),
     .directive (.counters w.waves w.graphStarts.length),
     .directive .controlBar,
     .directive (.stepButton .previous),
     .directive (.stepButton .next),
     .directive (.readout .graphNumber),
     .directive (.readout .waveNumber),
     .directive (.readout .waveTotal),
     .directive .markerToggle]

/-- What is logged when a script is finished. -/
def closing (w : Writer) : List Event :=
  if w.bounds.isEmpty then [.nothingPlotted] else []

/-- The text written so far. -/
def text (w : Writer) : String :=
  render w.blocks.toList

/-- As much of the text as has arrived in the file already. -/
def arrivedText (w : Writer) : String :=
  (Buffer.empty.addAll (writtenLines w.blocks.toList)).arrived

/-- The whole text of the script, trailer included. -/
def finishedText (w : Writer) : String :=
  render (w.blocks.toList ++ w.trailer)

end Writer

end Photoplot.Script
