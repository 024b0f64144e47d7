import Photoplot.Proofs.Interpreter.Course

/-!
Sessions: tokens that are fed to one interpreter, whatever becomes of each of them.

A run ends at its first stop code or fault. A session goes on behind both, and behind every drawing
that the plotter refuses, so the states of sessions are all the states that an interpreter can come
to. A session is taken apart into turns, one for each token.

**What is proved, and where the work is.**

* What a turn can do is said once, and nobody unfolds `State.react` or `Interpreter.obey` to find
  out. Of the state machine it is said by kinds of results: which instruction hands a path over
  (`State.react_path`), which one asks for a mark (`State.react_drill`), which ones fail
  (`State.react_error`). Each of these goes through all instructions, and in most cases there is
  nothing to prove.
* Of the interpreter around it, it is said by the answer of the plotter, in three cases that carry
  all there is to know (`Interpreter.obey_cases`).
* Section 3 puts both together for a turn. There are two kinds of turns: one that refuses a path,
  which clears the path and changes nothing else (`Turn.RefusesPath.state`), and all others, which
  leave the state that the state machine goes on with (`Turn.state_of_not_refusesPath`). That a
  refused drill mark belongs to the second kind is the one thing to watch.
* Section 4 says where a run ends, as a split of its tokens (`Interpreter.exists_end_of_run`).

A law about sessions is then a law about turns and an induction on the tokens, as in `ToolState` and
`Conservation`.
-/

set_option autoImplicit false

namespace Photoplot

/-! ## 1. What an instruction can ask for -/

namespace State

variable {s : State} {token : Token} {instruction : Instruction}

/-- **Paths.** Nothing but a raising hands a path over, and the path is the open one. -/
theorem react_path {tool : Tool} {points : List Point}
    (h : (s.react token instruction).drawing = some (.path tool points)) :
    instruction = .toolUp ∧ tool = s.tool ∧ points = s.openPath.toList ∧ s.openPath ≠ #[] := by
  cases instruction with
  | toolUp =>
    simp only [react, openDrawing] at h
    split at h
    · cases h
    · rename_i hne
      cases h
      refine ⟨rfl, rfl, rfl, ?_⟩
      intro hempty
      rw [hempty] at hne
      exact hne rfl
  | drill =>
    simp only [react] at h
    split at h
    · cases h
    · simp [Reaction.finish] at h
  | _ => simp [react, Reaction.change, Reaction.finish] at h

/-- **Drill marks.** Nothing but a drill code asks for one, and no path is open then. -/
theorem react_drill {center : Point}
    (h : (s.react token instruction).drawing = some (.drill center)) :
    instruction = .drill ∧ center = s.location ∧ s.openPath = #[] := by
  cases instruction with
  | toolUp =>
    simp only [react, openDrawing] at h
    split at h <;> cases h
  | drill =>
    simp only [react] at h
    split at h
    · rename_i hempty
      cases h
      exact ⟨rfl, rfl, Array.isEmpty_iff.1 hempty⟩
    · simp [Reaction.finish] at h
  | _ => simp [react, Reaction.change, Reaction.finish] at h

/-- A drill code leaves the state as it is, whatever comes of the mark. -/
theorem react_drill_keeps (s : State) (token : Token) :
    (s.react token .drill).after = s ∧ (s.react token .drill).ifRefused = s := by
  simp only [react]
  split <;> exact ⟨rfl, rfl⟩

/-- The faults that the state machine raises by itself. -/
inductive Objects (s : State) : Instruction → Fault → Prop where
  | unsupported (feature : Feature) : Objects s (.unsupported feature) (.unsupported feature)
  | pathOpenAtDrill (hopen : s.openPath ≠ #[]) :
      Objects s .drill (.pathOpenAtDrill s.openPath.size)

/-- **Faults.** An instruction to which the state machine objects draws nothing and changes
nothing. -/
theorem react_error {fault : Fault}
    (h : (s.react token instruction).outcome = .error fault) :
    s.Objects instruction fault ∧ (s.react token instruction).drawing = none
      ∧ (s.react token instruction).after = s := by
  cases instruction with
  | drill =>
    simp only [react] at h ⊢
    split at h
    · cases h
    · rename_i hopen
      cases h
      rw [if_neg hopen]
      refine ⟨.pathOpenAtDrill ?_, rfl, rfl⟩
      intro hempty
      rw [hempty] at hopen
      exact hopen rfl
  | unsupported feature =>
    cases h
    exact ⟨.unsupported feature, rfl, rfl⟩
  | _ => simp [react, Reaction.change, Reaction.finish] at h

end State

/-! ## 2. What obeying a token can do -/

namespace Interpreter

variable {σ : Type} [Plotter σ]

/-- What the plotter says to a drawing, which reaches it moved by the offset of its tool. -/
def answer (i : Interpreter σ) (d : Drawing) : Answer σ :=
  Plotter.plot i.plotter (d.shift i.offsets)

/-- **Obeying.** All that can come of a token, by the answer of the plotter. -/
theorem obey_cases (i : Interpreter σ) (token : Token) :
    let r := i.state.react token (Instruction.ofToken token)
    -- There is nothing to draw, and the plotter is not called.
    (r.drawing = none ∧ (i.obey token).drawings = [] ∧ (i.obey token).outcome = r.outcome
        ∧ (i.obey token).after = { i with state := r.after })
      -- There is a drawing, and the plotter takes it.
      ∨ (∃ d, r.drawing = some d ∧ (i.answer d).refusal = none
        ∧ (i.obey token).drawings = [d.shift i.offsets] ∧ (i.obey token).outcome = r.outcome
        ∧ (i.obey token).after = { i with plotter := (i.answer d).after, state := r.after })
      -- There is a drawing, and the plotter refuses it.
      ∨ (∃ d fault, r.drawing = some d ∧ (i.answer d).refusal = some fault
        ∧ (i.obey token).drawings = [d.shift i.offsets] ∧ (i.obey token).outcome = .error fault
        ∧ (i.obey token).after
          = { i with plotter := (i.answer d).after, state := r.ifRefused }) := by
  intro r
  have hobey : i.obey token = i.carryOut r := rfl
  rw [hobey]
  cases hd : r.drawing with
  | none => exact .inl ⟨rfl, by simp [carryOut, hd]⟩
  | some d =>
    right
    cases hanswer : (i.answer d).refusal with
    | none =>
      refine .inl ⟨d, rfl, hanswer, ?_⟩
      rw [answer] at hanswer ⊢
      simp [carryOut, hd, hanswer]
    | some fault =>
      refine .inr ⟨d, fault, rfl, hanswer, ?_⟩
      rw [answer] at hanswer ⊢
      simp [carryOut, hd, hanswer]

/-- No token changes the offsets. -/
theorem offsets_obey (i : Interpreter σ) (token : Token) :
    (i.obey token).after.offsets = i.offsets := by
  obtain ⟨-, -, -, hafter⟩ | ⟨d, -, -, -, -, hafter⟩ | ⟨d, fault, -, -, -, -, hafter⟩ :=
    i.obey_cases token
  all_goals rw [hafter]

/-- The plotter hears of nothing but the drawings. -/
theorem plotter_obey (i : Interpreter σ) (token : Token) :
    (i.obey token).after.plotter = Plotter.afterAll i.plotter (i.obey token).drawings := by
  obtain ⟨-, hdrawings, -, hafter⟩ | ⟨d, -, -, hdrawings, -, hafter⟩
    | ⟨d, fault, -, -, hdrawings, -, hafter⟩ := i.obey_cases token
  all_goals
    rw [hafter, hdrawings]
    rfl

end Interpreter

/-! ## 3. Turns and sessions -/

/-- One token of a session, with the interpreter that is about to obey it. -/
structure Turn (σ : Type) where
  before : Interpreter σ
  token : Token

namespace Turn

variable {σ : Type}

/-- What the token asks for. -/
def instruction (turn : Turn σ) : Instruction :=
  Instruction.ofToken turn.token

/-- What the state machine makes of it. -/
def reaction (turn : Turn σ) : Reaction :=
  turn.before.state.react turn.token turn.instruction

/-- The drawings that the state machine asks for in some turns, in the coordinates of the command
file. -/
def asked (turns : List (Turn σ)) : List Drawing :=
  turns.flatMap fun turn => turn.reaction.drawing.toList

variable [Plotter σ]

/-- What comes of it on the plotter. -/
def run (turn : Turn σ) : Run σ :=
  turn.before.obey turn.token

/-- The drawings as they are handed over in these turns, refused ones included. -/
def calls (turns : List (Turn σ)) : List Drawing :=
  turns.flatMap fun turn => turn.run.drawings

/-- The turn hands a path over, and the plotter refuses it. -/
def RefusesPath (turn : Turn σ) : Prop :=
  ∃ tool points fault, turn.run.drawings = [.path tool points]
    ∧ (Plotter.plot turn.before.plotter (.path tool points)).refusal = some fault

/-- What is handed over is the drawing that the state machine asks for. -/
theorem drawings_run (turn : Turn σ) :
    turn.run.drawings
      = turn.reaction.drawing.toList.map (Drawing.shift turn.before.offsets) := by
  rw [run, reaction, instruction]
  obtain ⟨hd, hdrawings, -⟩ | ⟨d, hd, -, hdrawings, -⟩ | ⟨d, fault, hd, -, hdrawings, -⟩ :=
    turn.before.obey_cases turn.token
  all_goals
    rw [hd, hdrawings]
    rfl

/-- **Refused paths.** A refused path has left the state, and nothing else in it has changed. -/
theorem RefusesPath.state {turn : Turn σ} (h : turn.RefusesPath) :
    turn.instruction = .toolUp ∧ turn.before.state.openPath ≠ #[]
      ∧ turn.run.after.state = turn.before.state.clearPath := by
  obtain ⟨tool, points, fault, hcall, hrefused⟩ := h
  rw [run] at hcall ⊢
  obtain ⟨-, hdrawings, -⟩ | ⟨d, -, htaken, hdrawings, -⟩ | ⟨d, _, hd, -, hdrawings, -, hafter⟩ :=
    turn.before.obey_cases turn.token
  · rw [hdrawings] at hcall
    cases hcall
  · -- the drawing is this very path, which cannot be both taken and refused
    rw [hdrawings] at hcall
    rw [Interpreter.answer, List.singleton_inj.1 hcall, hrefused] at htaken
    cases htaken
  · rw [hdrawings] at hcall
    cases d with
    | drill center => cases hcall
    | path tool' points' =>
      obtain ⟨hup, -, -, hopen⟩ := State.react_path hd
      refine ⟨hup, hopen, ?_⟩
      rw [hafter, hup]
      rfl

/-- **All other turns.** The state is the one that the state machine goes on with, even if a drill
mark is refused. -/
theorem state_of_not_refusesPath {turn : Turn σ} (h : ¬turn.RefusesPath) :
    turn.run.after.state = turn.reaction.after := by
  rw [run, reaction, instruction]
  obtain ⟨-, -, -, hafter⟩ | ⟨d, -, -, -, -, hafter⟩ | ⟨d, fault, hd, hrefused, hcall, -, hafter⟩ :=
    turn.before.obey_cases turn.token
  · rw [hafter]
  · rw [hafter]
  · cases d with
    | path tool points => exact absurd ⟨tool, _, fault, hcall, hrefused⟩ h
    | drill center =>
      obtain ⟨hdrill, -, -⟩ := State.react_drill hd
      rw [hafter, hdrill]
      obtain ⟨hkept, hkept'⟩ := State.react_drill_keeps turn.before.state turn.token
      exact hkept'.trans hkept.symm

end Turn

namespace Interpreter

variable {σ : Type} [Plotter σ]

/-- The turns of a session. Whatever comes of a token, the next one is obeyed. -/
def session (i : Interpreter σ) : List Token → List (Turn σ)
  | [] => []
  | token :: rest => ⟨i, token⟩ :: (i.obey token).after.session rest

/-- The interpreter at the end of a session. -/
def feed (i : Interpreter σ) : List Token → Interpreter σ
  | [] => i
  | token :: rest => (i.obey token).after.feed rest

/-- The drawings of a session are shifted one by one, by offsets that no token changes. -/
theorem calls_session (i : Interpreter σ) (tokens : List Token) :
    Turn.calls (i.session tokens)
      = (Turn.asked (i.session tokens)).map (Drawing.shift i.offsets) := by
  induction tokens generalizing i with
  | nil => rfl
  | cons token rest ih =>
    have hrest := ih (i.obey token).after
    rw [offsets_obey] at hrest
    rw [Turn.calls, Turn.asked] at hrest ⊢
    rw [session, List.flatMap_cons, List.flatMap_cons, List.map_append, Turn.drawings_run, hrest]

/-- **Calls.** Every drawing of a session reaches the plotter, moved by the offset of its tool. -/
theorem movedBy_session (i : Interpreter σ) (tokens : List Token) :
    List.Forall₂ (Drawing.MovedBy i.offsets) (Turn.asked (i.session tokens))
      (Turn.calls (i.session tokens)) := by
  rw [calls_session]
  exact Drawing.forall₂_movedBy i.offsets _

/-- A session leaves its plotter as these calls do, one after the other. -/
theorem plotter_feed (i : Interpreter σ) (tokens : List Token) :
    (i.feed tokens).plotter = Plotter.afterAll i.plotter (Turn.calls (i.session tokens)) := by
  induction tokens generalizing i with
  | nil => rfl
  | cons token rest ih =>
    have hcalls : Turn.calls (i.session (token :: rest))
        = (i.obey token).drawings ++ Turn.calls ((i.obey token).after.session rest) :=
      List.flatMap_cons
    rw [feed, ih, hcalls, Plotter.afterAll_append, plotter_obey]

/-- What comes behind a turn of a session is a session of its own, and ends where the whole one
does. -/
theorem session_behind {i : Interpreter σ} {tokens : List Token} {earlier later : List (Turn σ)}
    {turn : Turn σ} (h : i.session tokens = earlier ++ turn :: later) :
    ∃ rest, later = turn.run.after.session rest ∧ turn.run.after.feed rest = i.feed tokens := by
  induction tokens generalizing i earlier with
  | nil =>
    rw [session] at h
    simp at h
  | cons token rest ih =>
    rw [session] at h
    cases earlier with
    | nil =>
      obtain ⟨rfl, hlater⟩ := List.cons_eq_cons.1 h
      exact ⟨rest, hlater.symm, rfl⟩
    | cons first earlier =>
      obtain ⟨-, hrest⟩ := List.cons_eq_cons.1 h
      exact ih hrest

/-! ## 4. Where a run ends -/

/-- A run obeys its first token and goes on with the others, unless it has come to its end. -/
theorem runTokens_cons (i : Interpreter σ) (token : Token) (rest : List Token) :
    i.runTokens (token :: rest) = (i.obey token).andThen fun next => next.runTokens rest := rfl

/-- A run that does not come to the end of its tokens ends at one of them, and has gone on at all
that stand before it. -/
theorem exists_end_of_run {i : Interpreter σ} {tokens : List Token}
    (h : (i.runTokens tokens).outcome ≠ .ok .proceed) :
    ∃ earlier token later, tokens = earlier ++ token :: later
      ∧ (i.runTokens earlier).outcome = .ok .proceed
      ∧ i.runTokens tokens = (i.runTokens earlier).andThen fun next => next.obey token := by
  induction tokens generalizing i with
  | nil => exact absurd rfl h
  | cons token rest ih =>
    rw [runTokens_cons] at h ⊢
    by_cases hflow : (i.obey token).outcome = .ok .proceed
    · -- the run ends behind the first token, where the rest of it ends
      rw [Run.andThen_of_proceed hflow] at h
      obtain ⟨earlier, last, later, rfl, hearlier, hrun⟩ := ih h
      refine ⟨token :: earlier, last, later, rfl, ?_, ?_⟩
      · rw [runTokens_cons, Run.andThen_of_proceed hflow]
        exact hearlier
      · rw [runTokens_cons, Run.andThen_assoc, Run.andThen_of_proceed hflow,
          Run.andThen_of_proceed hflow, hrun]
    · refine ⟨[], token, rest, rfl, rfl, ?_⟩
      rw [Run.andThen_of_end hflow]
      exact (Run.idle_andThen i fun next => next.obey token).symm

end Interpreter

end Photoplot
