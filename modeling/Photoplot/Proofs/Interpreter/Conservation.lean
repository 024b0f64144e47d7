import Photoplot.Proofs.Interpreter.Session
import Photoplot.Proofs.Interpreter.Timeline
import Photoplot.Proofs.Script.Waves

/-!
Every recorded point is handed over once.

The open path is a queue: instructions record points at its end, and a raising hands over all that
it holds. So what is recorded in a session is what is handed over in it, followed by what is still
open at the end. This counts refused paths as handed over. A refusal empties the queue like any
other answer, so the points of a refused path do not come back, and what follows it is made of later
points alone.

**What is proved, and where the work is.**

* One instruction conserves points: what was open and what is recorded is what is asked for and what
  is open afterwards (`State.react_conserves`). Recorded is the location behind the instruction, if
  it lowers a tool or moves a lowered one; the path that is asked for does not come into it.
* One turn does too, whether the plotter takes the path or not (`Turn.conserves`). A turn that
  refuses one has to be looked at apart, because the state machine would have raised the tool.
* A session does by induction on the tokens (`Interpreter.feed_conserves`). What is open between two
  turns is the end of the one and the beginning of the other, and drops out.
* Behind a refused path stands a session of its own that begins with an empty queue
  (`Interpreter.session_behind`). That is all it takes to see that no point of it comes back.

Main statement: `inkedPoints_of_session`. It says of the calls as they reach the plotter that there
is one for each drawing, with the same tool and all its points, each of them moved.
-/

set_option autoImplicit false

namespace Photoplot

open Script (inkedPoints inkedPoints_append)

/-! ## 1. One instruction -/

namespace State

/-- A lowered tool records where it is brought to. -/
theorem moveTo_conserves (s : State) (location : Point) :
    s.openPath.toList ++ (if s.isDown then [(s.moveTo location).location] else [])
      = (s.moveTo location).openPath.toList := by
  unfold moveTo
  by_cases hdown : s.isDown = true
  · simp [hdown, record]
  · simp [hdown]

/-- The open path is handed over as a whole. -/
theorem inkedPoints_openDrawing (s : State) :
    inkedPoints s.openDrawing.toList = s.openPath.toList := by
  unfold openDrawing
  by_cases hempty : s.openPath.isEmpty = true
  · rw [if_pos hempty, Array.isEmpty_iff.1 hempty]
    rfl
  · rw [if_neg hempty]
    simp [inkedPoints]

/-- A drill mark is no part of a path. -/
theorem inkedPoints_drill (s : State) (token : Token) :
    inkedPoints (s.react token .drill).drawing.toList = [] := by
  simp only [react]
  split <;> rfl

/-- The points that an instruction records which leads to a location: the location itself, if the
instruction lowers a tool or brings a lowered one there. -/
def recorded (s : State) (instruction : Instruction) (location : Point) : List Point :=
  if instruction.lowers || (instruction.places && s.isDown) then [location] else []

/-- **One instruction.** What was open and what is recorded is what is asked for and what is open
afterwards, unless a path is refused. -/
theorem react_conserves (s : State) (token : Token) (instruction : Instruction) :
    let r := s.react token instruction
    s.openPath.toList ++ s.recorded instruction r.after.location
      = inkedPoints r.drawing.toList ++ r.after.openPath.toList := by
  cases instruction with
  | move x y => exact s.moveTo_conserves _
  | goToOrigin => exact s.moveTo_conserves _
  | toolDown tool => exact Array.toList_push.symm
  | toolUp =>
    show s.openPath.toList ++ [] = inkedPoints s.openDrawing.toList ++ []
    rw [inkedPoints_openDrawing]
  | drill =>
    intro r
    rw [inkedPoints_drill, (s.react_drill_keeps token).1]
    exact List.append_nil _
  | _ => exact List.append_nil _

end State

/-! ## 2. Turns and sessions -/

namespace Turn

variable {σ : Type} [Plotter σ]

/-- The points that a turn records, each of them the location that the turn leads to. -/
def recorded (turn : Turn σ) : List Point :=
  turn.before.state.recorded turn.instruction turn.run.after.state.location

/-- **The step law.** Refused or not, a path that is handed over is no longer open. -/
theorem conserves (turn : Turn σ) :
    turn.before.state.openPath.toList ++ turn.recorded
      = inkedPoints turn.reaction.drawing.toList ++ turn.run.after.state.openPath.toList := by
  rw [recorded]
  by_cases hrefuses : turn.RefusesPath
  · obtain ⟨hup, -, hafter⟩ := hrefuses.state
    rw [hafter, reaction, hup]
    show turn.before.state.openPath.toList ++ []
      = inkedPoints turn.before.state.openDrawing.toList ++ []
    rw [State.inkedPoints_openDrawing]
  · rw [state_of_not_refusesPath hrefuses]
    exact turn.before.state.react_conserves turn.token turn.instruction

end Turn

/-- **The run law.** What is open at the beginning of a session and what is recorded in it is what
is handed over in it and what is open at its end, point by point and in order. -/
theorem Interpreter.feed_conserves {σ : Type} [Plotter σ] (i : Interpreter σ)
    (tokens : List Token) :
    i.state.openPath.toList ++ (i.session tokens).flatMap Turn.recorded
      = inkedPoints (Turn.asked (i.session tokens)) ++ (i.feed tokens).state.openPath.toList := by
  induction tokens generalizing i with
  | nil => exact List.append_nil _
  | cons token rest ih =>
    -- what is open between the first turn and the rest is both an end and a beginning
    have hstep := (⟨i, token⟩ : Turn σ).conserves
    have hrest := ih (i.obey token).after
    rw [Turn.asked] at hrest ⊢
    rw [session, feed, List.flatMap_cons, List.flatMap_cons, inkedPoints_append, List.append_assoc,
      ← hrest, ← List.append_assoc, hstep, List.append_assoc]
    rfl

/-! ## 3. Nothing is lost, nothing comes twice -/

/-- **Conservation.** The points of all paths that are handed over in a session, followed by those
of the path that is still open, are the points recorded in it. The plotter is called once for every
drawing, in order: with the tool of the drawing, and with all its points, each moved by the offset
of that tool. At a refused path all that was recorded has been handed over, so the paths behind it
are made of points recorded behind it. -/
theorem inkedPoints_of_session {σ : Type} [Plotter σ] (plotter : σ) (units : Units)
    (offsets : Offsets) (tokens : List Token) :
    let i := Interpreter.new plotter units offsets
    let turns := i.session tokens
    let openPoints := (i.feed tokens).state.openPath.toList
    (i.feed tokens).plotter = Plotter.afterAll plotter (Turn.calls turns)
      ∧ List.Forall₂ (Drawing.MovedBy offsets) (Turn.asked turns) (Turn.calls turns)
      ∧ inkedPoints (Turn.asked turns) ++ openPoints = turns.flatMap Turn.recorded
      ∧ ∀ earlier refused later, turns = earlier ++ refused :: later → refused.RefusesPath →
        inkedPoints (Turn.asked (earlier ++ [refused]))
            = (earlier ++ [refused]).flatMap Turn.recorded
          ∧ inkedPoints (Turn.asked later) ++ openPoints = later.flatMap Turn.recorded := by
  intro i turns openPoints
  have hall : inkedPoints (Turn.asked turns) ++ openPoints = turns.flatMap Turn.recorded :=
    (i.feed_conserves tokens).symm
  refine ⟨i.plotter_feed tokens, i.movedBy_session tokens, hall, ?_⟩
  intro earlier refused later hsplit hrefuses
  have hlater : inkedPoints (Turn.asked later) ++ openPoints = later.flatMap Turn.recorded := by
    -- behind the refusal stands a session of its own, and it begins with no path
    obtain ⟨rest, rfl, hfeed⟩ := Interpreter.session_behind hsplit
    have hrest := refused.run.after.feed_conserves rest
    rw [hfeed, hrefuses.state.2.2] at hrest
    exact hrest.symm
  refine ⟨?_, hlater⟩
  have hturns : turns = (earlier ++ [refused]) ++ later := by
    rw [hsplit, List.append_assoc, List.singleton_append]
  have hasked : Turn.asked turns = Turn.asked (earlier ++ [refused]) ++ Turn.asked later := by
    rw [hturns]
    exact List.flatMap_append
  rw [hasked, inkedPoints_append, List.append_assoc, hlater, hturns, List.flatMap_append] at hall
  exact List.append_cancel_right hall

/-- Two paths, the second of which begins without a lowering if the first is refused, and a drill
mark where they end. -/
def resumedTokens : List Token :=
  [.command 'B' none, .coordinate 100 100, .command 'A' none, .coordinate 200 100,
    .command 'A' none, .command 'R' none]

/-- The three tools mounted at three places. -/
def mountedOffsets : Offsets :=
  ⟨⟨8.0, 16.0⟩, ⟨0.5, -0.25⟩, ⟨-3.0, 4.0⟩⟩

/-- If the first path is refused, the second one holds nothing but the point behind it. Every point
reaches the plotter half an inch to the right of where the file has it and a quarter lower, as the
knife is mounted, and the mark where the drill is. -/
theorem inkedPoints_of_resumedTokens :
    let i := Interpreter.new Recorder.new.refuseNext .hundredthsOfInch mountedOffsets
    let turns := i.session resumedTokens
    let later := turns.drop 3
    let refused : Turn Recorder := ⟨i.feed (resumedTokens.take 2), .command 'A' none⟩
    turns = turns.take 2 ++ refused :: later
      ∧ refused.RefusesPath
      ∧ Turn.asked turns
        = [.path .cut [⟨0.0, 0.0⟩, ⟨1.0, 1.0⟩], .path .cut [⟨2.0, 1.0⟩], .drill ⟨2.0, 1.0⟩]
      ∧ Turn.calls turns
        = [.path .cut [⟨0.5, -0.25⟩, ⟨1.5, 0.75⟩], .path .cut [⟨2.5, 0.75⟩], .drill ⟨-1.0, 5.0⟩]
      ∧ List.Forall₂ (Drawing.MovedBy mountedOffsets) (Turn.asked turns) (Turn.calls turns)
      ∧ inkedPoints (Turn.asked later) ++ (i.feed resumedTokens).state.openPath.toList
        = later.flatMap Turn.recorded
      ∧ later.flatMap Turn.recorded = [⟨2.0, 1.0⟩] := by
  intro i turns later refused
  obtain ⟨-, hmoved, -, hbehind⟩ :=
    inkedPoints_of_session Recorder.new.refuseNext .hundredthsOfInch mountedOffsets resumedTokens
  have hsplit : turns = turns.take 2 ++ refused :: later := rfl
  have hrefuses : refused.RefusesPath := ⟨.cut, _, .refused, rfl, rfl⟩
  exact ⟨hsplit, hrefuses, by decide +kernel, by decide +kernel, hmoved,
    (hbehind _ refused later hsplit hrefuses).2, by decide +kernel⟩

end Photoplot
