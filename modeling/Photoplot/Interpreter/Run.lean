import Photoplot.Command.Scanner
import Photoplot.Interpreter.State

/-!
Running a command stream on a plotter.

An interpreter joins a state to the plotter it draws on and the offsets by which every drawing is
moved on its way there. `obey` takes one token; `run` takes readings until a stop code, a fault or
their end. What a run did is a value of its own, with the drawings that were handed over and the
events in order, so that runs can be compared without looking into a plotter.

**What is decided here.** `carryOut` is the only place where a plotter is asked. It moves the
drawing by the offset of its tool, so every plotter sees coordinates that are final, and it chooses
between the two states of the reaction by the answer. A drawing that is refused stands in
`Run.drawings` all the same: the list is what was asked for, and what was taken is the plotter's
own affair.

`Run.andThen` is sequencing with an early end. It is associative and has `idle` as its unit on the
left, from which `run_append` follows by induction over the readings; every statement about a text
that falls into parts rests on that lemma. The end of the data is not a token: a path that is still
open then is not drawn, and `closing` only reports it.
-/

set_option autoImplicit false

namespace Photoplot

/-- A state machine connected to a plotter. -/
structure Interpreter (σ : Type) where
  plotter : σ
  offsets : Offsets
  state : State

/-- What came of running an interpreter for a while. -/
structure Run (σ : Type) where
  after : Interpreter σ
  /-- The drawings handed over to the plotter, refused ones included. -/
  drawings : List Drawing
  events : List Event
  outcome : Except Fault Flow

namespace Run

variable {σ : Type}

/-- A run in which nothing happens. -/
def idle (i : Interpreter σ) : Run σ := ⟨i, [], [], .ok .proceed⟩

/-- Goes on after a run that is to proceed; any other run is the last one. -/
def andThen (r : Run σ) (more : Interpreter σ → Run σ) : Run σ :=
  match r.outcome with
  | .ok .proceed =>
    let next := more r.after
    ⟨next.after, r.drawings ++ next.drawings, r.events ++ next.events, next.outcome⟩
  | _ => r

theorem andThen_of_proceed {r : Run σ} (h : r.outcome = .ok .proceed)
    (more : Interpreter σ → Run σ) :
    r.andThen more = ⟨(more r.after).after, r.drawings ++ (more r.after).drawings,
      r.events ++ (more r.after).events, (more r.after).outcome⟩ := by
  simp [andThen, h]

theorem andThen_of_halt {r : Run σ} (h : r.outcome = .ok .halt) (more : Interpreter σ → Run σ) :
    r.andThen more = r := by
  simp [andThen, h]

theorem andThen_of_error {r : Run σ} {f : Fault} (h : r.outcome = .error f)
    (more : Interpreter σ → Run σ) : r.andThen more = r := by
  simp [andThen, h]

theorem idle_andThen (i : Interpreter σ) (more : Interpreter σ → Run σ) :
    (idle i).andThen more = more i := by
  simp [andThen, idle]

/-- Whatever goes on after a run goes on after its last part. -/
theorem andThen_assoc (r : Run σ) (more further : Interpreter σ → Run σ) :
    (r.andThen more).andThen further = r.andThen fun i => (more i).andThen further := by
  obtain ⟨after, drawings, events, outcome⟩ := r
  rcases outcome with fault | flow
  · rfl
  · cases flow with
    | halt => rfl
    | proceed =>
      simp only [andThen]
      rcases hm : (more after).outcome with fault | flow
      · simp [hm]
      · cases flow <;> simp [hm, List.append_assoc]

end Run

namespace Interpreter

variable {σ : Type}

/-- An interpreter before the first token. -/
def new (plotter : σ) (units : Units) (offsets : Offsets) : Interpreter σ :=
  ⟨plotter, offsets, State.initial units⟩

/-- Carries a reaction out: its drawing is moved by the offset of its tool and handed over. -/
def carryOut [Plotter σ] (i : Interpreter σ) (r : Reaction) : Run σ :=
  match r.drawing with
  | none => ⟨{ i with state := r.after }, [], r.events, r.outcome⟩
  | some drawing =>
    let shifted := drawing.shift i.offsets
    let answer := Plotter.plot i.plotter shifted
    let events := r.events ++ shifted.announcement ++ answer.events
    match answer.refusal with
    | none =>
      ⟨{ i with plotter := answer.after, state := r.after }, [shifted], events, r.outcome⟩
    | some fault =>
      ⟨{ i with plotter := answer.after, state := r.ifRefused }, [shifted], events, .error fault⟩

/-- Obeys one token. -/
def obey [Plotter σ] (i : Interpreter σ) (token : Token) : Run σ :=
  i.carryOut (i.state.react token (Instruction.ofToken token))

/-- Takes one reading: a token is obeyed, anything else only noted. -/
def take [Plotter σ] (i : Interpreter σ) : Reading → Run σ
  | .token t => i.obey t
  | .outOfRange m => ⟨i, [], [.outOfRange m], .ok .proceed⟩

/-- Takes readings until a stop code, a fault or their end. -/
def run [Plotter σ] (i : Interpreter σ) : List Reading → Run σ
  | [] => Run.idle i
  | reading :: rest => (i.take reading).andThen fun next => next.run rest

theorem run_nil [Plotter σ] (i : Interpreter σ) : i.run [] = Run.idle i := rfl

theorem run_cons [Plotter σ] (i : Interpreter σ) (reading : Reading) (rest : List Reading) :
    i.run (reading :: rest) = (i.take reading).andThen fun next => next.run rest := rfl

/-- Running two lists of readings in a row is running the one and then the other. -/
theorem run_append [Plotter σ] (i : Interpreter σ) (first second : List Reading) :
    i.run (first ++ second) = (i.run first).andThen fun next => next.run second := by
  induction first generalizing i with
  | nil => rw [List.nil_append, run_nil, Run.idle_andThen]
  | cons reading rest ih =>
    rw [List.cons_append, run_cons, run_cons, Run.andThen_assoc]
    simp only [ih]

/-- Takes tokens until a stop code, a fault or their end. -/
def runTokens [Plotter σ] (i : Interpreter σ) (tokens : List Token) : Run σ :=
  i.run (tokens.map .token)

/-- Runs the text of a command file. -/
def runText [Plotter σ] (i : Interpreter σ) (text : String) : Run σ :=
  i.run (readings text)

/-- What is logged when the data end: a path that is still open is not drawn. -/
def closing (i : Interpreter σ) : List Event :=
  if i.state.openPath.isEmpty then []
  else [.pathDiscarded i.state.openPath.size i.state.tool]

end Interpreter

end Photoplot
