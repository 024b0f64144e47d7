import Photoplot.Proofs.Geometry.Extent
import Photoplot.Proofs.Script.Sheets

/-!
The box and the trailer of a finished script.

Whether a script gets a trailer is decided by the box alone: nobody counts the paths, and a box is
taken for empty when its ends are the wrong way round. So it has to be shown that a box is turned
the right way by its first point, and that nothing but the points of paths ever gets into it.

**What is proved, and where the work is.**

* The blocks of a trailer are written as `trailerLines` spells them (section 1), for any box and any
  counts. The padding of a range, a fortieth of its length on either side, is spelled there as it is
  computed, so that no rounding is hidden.
* After any calls the box has grown by the points of the paths that were taken, and by no others
  (`bounds_performAll`, `inkedPoints_filter`): drill marks, refused paths and boundaries leave it
  alone.
* If there is a path, and its points are finite, the box is the extent of these points, the trailer
  is there, and its ranges show every point (`framed_of_hasPath`). If there is none the box is
  empty, and nothing is written behind the waves.

Main statement: `Writer.box_and_trailer`. That the order of the points does not matter to the box,
up to the sign of a zero, is part of it and comes from `Geometry.Extent`.
-/

set_option autoImplicit false

namespace Photoplot.Script

open Decimal

/-! ## 1. The lines of a trailer -/

/-- The line that sets the range of an axis: what is to be seen, and a fortieth of it on both
sides. -/
def rangeLine (axis : String) (low high : Float) : String :=
  "X SetAxis/W=GerberPlot " ++ axis ++ " " ++ Decimal.render (low - (high - low) / 40.0) ++ ","
    ++ Decimal.render (high + (high - low) / 40.0)

/-- The lines that step through the graphs and the waves. -/
def controlLines : List String :=
  ["X ControlBar/W=GerberPlot 40",
   "X Button prevGraph win=GerberPlot, pos=\x7b10,8\x7d, size=\x7b80,24\x7d, title=\"Previous\""
    ++ ", proc=GerberStepGraph",
   "X Button nextGraph win=GerberPlot, pos=\x7b100,8\x7d, size=\x7b80,24\x7d, title=\"Next\""
    ++ ", proc=GerberStepGraph",
   "X ValDisplay graphNumber win=GerberPlot, pos=\x7b200,12\x7d, size=\x7b110,16\x7d"
    ++ ", title=\"Graph\", value=#\"root:currentGraph\"",
   "X ValDisplay waveNumber win=GerberPlot, pos=\x7b320,12\x7d, size=\x7b110,16\x7d"
    ++ ", title=\"Wave\", value=#\"root:currentWave\"",
   "X ValDisplay waveTotal win=GerberPlot, pos=\x7b440,12\x7d, size=\x7b110,16\x7d"
    ++ ", title=\"Waves\", value=#\"root:waveCount\"",
   "X CheckBox showMarkers win=GerberPlot, pos=\x7b560,12\x7d, title=\"Markers\", value=1"
    ++ ", proc=GerberToggleMarkers"]

/-- The lines of a trailer: the ranges of both axes, the first wave of each graph, the counts, and
the controls. -/
def trailerLines (b : Bounds) (waves : Nat) (graphStarts : List Nat) : List String :=
  [rangeLine "bottom" b.minX b.maxX, rangeLine "left" b.minY b.maxY]
    ++ (Sheet.ofNumbers "graphFirstWave" graphStarts.length graphStarts).lines
    ++ ["X Variable/G waveCount=" ++ toString waves ++ ", graphCount="
      ++ toString graphStarts.length ++ ", currentGraph=0, currentWave=1"]
    ++ controlLines

/-- The directive for the range of an axis, as a line. -/
theorem text_axisRange (axis : Axis) (span : Span) :
    "X " ++ (Directive.axisRange axis span).text
      = "X SetAxis/W=GerberPlot " ++ axis.name ++ " " ++ Decimal.render span.low ++ ","
        ++ Decimal.render span.high := by
  have htext : (Directive.axisRange axis span).text
      = "SetAxis/W=" ++ graphName ++ " " ++ axis.name ++ " " ++ Decimal.render span.low ++ ","
        ++ Decimal.render span.high := rfl
  have hcommand : "X SetAxis/W=GerberPlot " = "X " ++ ("SetAxis/W=" ++ (graphName ++ " ")) := by
    decide
  rw [htext, hcommand]
  simp only [String.append_assoc]

/-- For a padded range this is the line of the range. -/
theorem text_axisRange_padded (axis : Axis) (low high : Float) :
    "X " ++ (Directive.axisRange axis (Bounds.padded low high)).text
      = rangeLine axis.name low high :=
  text_axisRange axis (Bounds.padded low high)

example : rangeLine "left" (-1.0) 3.0 = "X SetAxis/W=GerberPlot left -1.1,3.1" := by
  decide +kernel

/-- The directive that counts waves and graphs, as a line. -/
theorem text_counters (waves graphs : Nat) :
    "X " ++ (Directive.counters waves graphs).text
      = "X Variable/G waveCount=" ++ toString waves ++ ", graphCount=" ++ toString graphs
        ++ ", currentGraph=0, currentWave=1" := by
  have htext : (Directive.counters waves graphs).text
      = "Variable/G waveCount=" ++ toString waves ++ ", graphCount=" ++ toString graphs
        ++ ", currentGraph=0, currentWave=1" := rfl
  have hcommand : "X Variable/G waveCount=" = "X " ++ "Variable/G waveCount=" := by decide
  rw [htext, hcommand]
  simp only [String.append_assoc]

/-- The blocks that step through the graphs and the waves. -/
def controls : List Block :=
  [.directive .controlBar, .directive (.stepButton .previous), .directive (.stepButton .next),
   .directive (.readout .graphNumber), .directive (.readout .waveNumber),
   .directive (.readout .waveTotal), .directive .markerToggle]

theorem lines_controls : controls.flatMap Block.lines = controlLines := by
  decide +kernel

/-! ## 2. Paths and their points -/

/-- There is a path among the drawings. -/
def HasPath (drawings : List Drawing) : Prop :=
  ∃ tool points, Drawing.path tool points ∈ drawings

/-- Where there is a path there are points. -/
theorem inkedPoints_ne_nil {drawings : List Drawing} (hvisible : ∀ d ∈ drawings, d.Visible)
    (h : HasPath drawings) : inkedPoints drawings ≠ [] := by
  obtain ⟨tool, points, hmem⟩ := h
  obtain ⟨p, hp⟩ := List.exists_mem_of_ne_nil points (hvisible _ hmem)
  exact List.ne_nil_of_mem (List.mem_flatMap.2 ⟨_, hmem, hp⟩)

/-- Where there is none there are none: drill marks do not count. -/
theorem inkedPoints_eq_nil {drawings : List Drawing} (h : ¬HasPath drawings) :
    inkedPoints drawings = [] := by
  apply List.flatMap_eq_nil_iff.2
  intro d hd
  cases d with
  | path tool points => exact absurd ⟨tool, points, hd⟩ h
  | drill center => rfl

/-- Whether a call asks for a path. -/
def Call.asksPath : Call → Bool
  | draw (.path _ _) => true
  | draw (.drill _) => false
  | beginGraph => false

/-- Only calls that ask for a path bring points. -/
theorem inkedPoints_filter (calls : List Call) :
    inkedPoints ((calls.filter Call.asksPath).filterMap Call.visible?)
      = inkedPoints (calls.filterMap Call.visible?) := by
  induction calls with
  | nil => rfl
  | cons call rest ih =>
    have hcons : ∀ calls : List Call, inkedPoints ((call :: calls).filterMap Call.visible?)
        = inkedPoints call.visible?.toList ++ inkedPoints (calls.filterMap Call.visible?) := by
      intro calls
      rw [← inkedPoints_append]
      cases h : call.visible? <;> simp [h]
    match call with
    | .draw (.path tool points) =>
      rw [List.filter_cons_of_pos rfl, hcons, hcons, ih]
    | .draw (.drill center) =>
      rw [List.filter_cons_of_neg Bool.false_ne_true, hcons, ih]
      rfl
    | .beginGraph =>
      rw [List.filter_cons_of_neg Bool.false_ne_true, hcons, ih]
      rfl

/-! ## 3. Finished scripts -/

namespace Writer

/-- A finished text is the text so far with the lines of the trailer behind it. -/
theorem finishedText_eq (w : Writer) :
    w.finishedText = w.text ++ unlines (w.trailer.flatMap Block.lines) := by
  rw [finishedText, render_append, ← render_eq_unlines]
  rfl

/-- **Trailers.** When the box is not empty, the trailer is written as its lines say. -/
theorem lines_trailer {w : Writer} (h : w.bounds.isEmpty = false) :
    w.trailer.flatMap Block.lines = trailerLines w.bounds w.waves w.graphStarts := by
  have htrailer : w.trailer
      = Block.directive (.axisRange .bottom w.bounds.horizontal)
        :: Block.directive (.axisRange .left w.bounds.vertical)
        :: Block.table (.ofColumn .graphFirstWave w.graphStarts)
        :: Block.directive (.counters w.waves w.graphStarts.length) :: controls := by
    rw [trailer, if_neg (ne_true_of_eq_false h)]
    rfl
  rw [htrailer, trailerLines, ← text_counters, ← lines_controls]
  simp only [List.flatMap_cons, Block.lines, Sheet.lines_ofNumbers, TableName.text,
    Bounds.horizontal, Bounds.vertical, text_axisRange_padded, Axis.name, List.append_assoc,
    List.cons_append, List.nil_append]

/-- The box after some calls: what the points of the paths make of the empty one. -/
theorem bounds_performAll (calls : List Call) :
    (new.performAll calls).bounds = Bounds.empty.growAll (inkedPoints (new.taken calls)) :=
  (performAll_new_wrote calls).bounds

/-- **Frames.** What becomes of a script with a path: the box is the extent of the points, the text
goes on with the ranges of the box and the count of the drawings, and the ranges show every point.
-/
structure Framed (w : Writer) (drawings : List Drawing) : Prop where
  extent : w.bounds.Encloses (inkedPoints drawings)
  trailer : w.finishedText
    = w.text ++ unlines (trailerLines w.bounds drawings.length w.graphStarts)
  shows : ∀ p ∈ inkedPoints drawings, w.bounds.Shows p

/-- A script with a path is framed by it. -/
theorem framed_of_hasPath {calls : List Call}
    (hfinite : ∀ p ∈ inkedPoints (new.taken calls), p.Finite) (h : HasPath (new.taken calls)) :
    (new.performAll calls).Framed (new.taken calls) := by
  have hextent : (new.performAll calls).bounds.Encloses (inkedPoints (new.taken calls)) := by
    rw [bounds_performAll]
    exact Bounds.encloses_growAll hfinite (inkedPoints_ne_nil visible_of_mem_taken h)
  constructor
  · exact hextent
  · rw [finishedText_eq, lines_trailer (hextent.isEmpty_eq_false hfinite),
      (performAll_new_wrote calls).waves_of_new]
  · intro p hp
    exact hextent.shows hfinite hp

/-- **The box and the trailer.** All that is visible is taken. Where the coordinates of all paths
are finite, a script is framed once a path has been taken. Without a path the box stays empty and
nothing is added. Only calls that ask for a path have a say in the box, and only through their
points: taken in another order, or divided into paths in another way, the same points make the same
box. -/
theorem box_and_trailer (calls : List Call)
    (hfinite : ∀ p ∈ inkedPoints (new.taken calls), p.Finite) :
    let w := new.performAll calls
    let drawings := new.taken calls
    drawings = calls.filterMap Call.visible?
      ∧ (HasPath drawings → w.Framed drawings)
      ∧ (¬HasPath drawings → w.bounds = Bounds.empty ∧ w.finishedText = w.text)
      ∧ (new.performAll (calls.filter Call.asksPath)).bounds = w.bounds
      ∧ ∀ calls' : List Call,
        calls.Perm calls' ∨ (inkedPoints drawings).Perm (inkedPoints (new.taken calls')) →
          w.bounds.Same (new.performAll calls').bounds
            ∧ ((∀ p ∈ inkedPoints drawings, p.Plain) →
              w.bounds = (new.performAll calls').bounds) := by
  intro w drawings
  have hw : w.bounds = Bounds.empty.growAll (inkedPoints drawings) := bounds_performAll calls
  refine ⟨taken_eq new calls, framed_of_hasPath hfinite, ?_, ?_, ?_⟩
  · intro hnone
    have hbounds : w.bounds = Bounds.empty := by
      rw [hw, inkedPoints_eq_nil hnone]
      rfl
    have htrailer : w.trailer = [] := by
      rw [trailer, hbounds]
      exact if_pos (by decide)
    have htext : w.finishedText = w.text := by
      rw [finishedText, htrailer, List.append_nil, text]
    exact ⟨hbounds, htext⟩
  · have hpoints : inkedPoints (new.taken (calls.filter Call.asksPath)) = inkedPoints drawings := by
      rw [taken_eq, inkedPoints_filter, ← taken_eq new]
    rw [hw, bounds_performAll, hpoints]
  · intro calls' h
    -- calls in another order bring their points in another order
    have hperm : (inkedPoints drawings).Perm (inkedPoints (new.taken calls')) := by
      obtain hcalls | hpoints := h
      · have htaken : (new.taken calls).Perm (new.taken calls') := by
          rw [taken_eq, taken_eq]
          exact hcalls.filterMap Call.visible?
        exact htaken.flatMap_right _
      · exact hpoints
    rw [hw, bounds_performAll]
    exact ⟨Bounds.same_growAll hfinite hperm, Bounds.growAll_perm Bounds.empty hperm⟩

/-- A drill mark, a path, a path that is refused, and a path on a second graph. -/
def sampleCalls : List Call :=
  [.draw (.drill ⟨9.0, 9.0⟩), .draw (.path .mark [⟨0.0, -1.0⟩, ⟨4.0, 1.0⟩]), .draw (.path .cut []),
   .beginGraph, .draw (.path .cut [⟨-4.0, 3.0⟩])]

/-- The sample has three waves on two graphs, and the box leaves the drill mark out. -/
theorem framed_sampleCalls :
    (∀ p ∈ inkedPoints (new.taken sampleCalls), p.Finite)
      ∧ (new.performAll sampleCalls).finishedText
        = (new.performAll sampleCalls).text
          ++ unlines (trailerLines ⟨-4.0, 4.0, -1.0, 3.0⟩ 3 [1, 3]) := by
  have hfinite : ∀ p ∈ inkedPoints (new.taken sampleCalls), p.Finite := by decide
  have hpath : HasPath (new.taken sampleCalls) :=
    ⟨.cut, [⟨-4.0, 3.0⟩], List.mem_of_getElem? (i := 2) rfl⟩
  have hbounds : (new.performAll sampleCalls).bounds = ⟨-4.0, 4.0, -1.0, 3.0⟩ := by
    rw [bounds_performAll]
    rfl
  obtain ⟨-, hframed, -⟩ := box_and_trailer sampleCalls hfinite
  have htrailer := (hframed hpath).trailer
  rw [hbounds] at htrailer
  exact ⟨hfinite, htrailer⟩

end Writer

end Photoplot.Script
