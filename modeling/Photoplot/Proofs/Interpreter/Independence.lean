import Photoplot.Proofs.Interpreter.Ending

/-!
What a run does not depend on.

Before its first token an interpreter is given two things, units and offsets, and it hears of
neither until it has to. This file says what a run has in common with the runs of interpreters that
were given something else.

**What is proved, and where the work is.**

* Offsets move a drawing on its way to the plotter and go nowhere else, so runs with different
  offsets have one course (`same_course_of_offsets`). There is little to do: either run is the
  course of the state machine (`Interpreter.Sees`), which knows of no offsets, with its drawings
  moved as `Drawing.MovedBy` says.
* Units are looked at by coordinates alone. Two states that differ in them go on alike up to the
  next unit change, and behind it they are the same state: that is the relation
  `State.SameButUnits`, what one instruction makes of it (`State.SameButUnits.react`), and what a
  course makes of it (`State.SameButUnits.follow`). The last one is where the work is. Its
  hypothesis, that units are declared before the first coordinate, speaks of the tokens that are
  reached, so it has to be handed on from a list of tokens to its rest (`State.reached_cons_iff`).
* Section 3 carries this over from courses to runs on any two accepting plotters, and adds what
  holds wherever two interpreters have come to that differ in their units: they make the same calls
  first, up to a coordinate whose units are not declared (`same_course_of_units`).
-/

set_option autoImplicit false

namespace Photoplot

/-! ## 1. Offsets -/

/-- What can be said of a drawing without its points: the tool that makes it, and how many points
it has if it is a path. -/
def Drawing.figure : Drawing → Tool × Option Nat
  | .path tool points => (tool, some points.length)
  | .drill _ => (.drill, none)

/-- Moving a drawing changes neither its tool nor the number of its points. -/
theorem Drawing.figure_shift (o : Offsets) (d : Drawing) : (d.shift o).figure = d.figure := by
  cases d with
  | path tool points => simp only [shift, figure, List.length_map]
  | drill center => rfl

/-- The figures of moved drawings are those of the drawings. -/
theorem Drawing.map_figure_shift (o : Offsets) (drawings : List Drawing) :
    (drawings.map (Drawing.shift o)).map Drawing.figure = drawings.map Drawing.figure := by
  rw [List.map_map]
  exact List.map_congr_left fun d _ => d.figure_shift o

/-- **Offsets.** Two fresh interpreters on accepting plotters that are given different offsets stand
in the same state after any number of tokens, and end their runs alike. They make the same calls up
to the points. These are the points of one list of drawings that either interpreter knows: in each
of the two runs every point of a path is passed once and in its place, with the offset that this
interpreter has for the tool of the path added to it, and every drill mark with the offset of the
drill. -/
theorem same_course_of_offsets {σ σ' : Type} [Plotter σ] [Plotter σ'] {plotter : σ} {plotter' : σ'}
    (accepting : Plotter.Accepting plotter) (accepting' : Plotter.Accepting plotter')
    (units : Units) (offsets offsets' : Offsets) (tokens : List Token) :
    let i := Interpreter.new plotter units offsets
    let i' := Interpreter.new plotter' units offsets'
    (∀ n, (i'.runTokens (tokens.take n)).after.state = (i.runTokens (tokens.take n)).after.state
        ∧ (i'.runTokens (tokens.take n)).outcome = (i.runTokens (tokens.take n)).outcome)
      ∧ (i'.runTokens tokens).outcome = (i.runTokens tokens).outcome
      ∧ (i'.runTokens tokens).drawings.map Drawing.figure
        = (i.runTokens tokens).drawings.map Drawing.figure
      ∧ ((i.runTokens tokens).after.plotter
          = Plotter.afterAll plotter (i.runTokens tokens).drawings
        ∧ (i'.runTokens tokens).after.plotter
          = Plotter.afterAll plotter' (i'.runTokens tokens).drawings)
      ∧ ∃ drawings : List Drawing,
        List.Forall₂ (Drawing.MovedBy offsets) drawings (i.runTokens tokens).drawings
          ∧ List.Forall₂ (Drawing.MovedBy offsets') drawings (i'.runTokens tokens).drawings := by
  intro i i'
  -- either run is the course of the state machine, which has no offsets
  have hsees : ∀ tokens, i.Sees (i.runTokens tokens) ((State.initial units).follow tokens) :=
    Interpreter.runTokens_of_accepting accepting
  have hsees' : ∀ tokens, i'.Sees (i'.runTokens tokens) ((State.initial units).follow tokens) :=
    Interpreter.runTokens_of_accepting accepting'
  refine ⟨?_, ?_, ?_, ⟨(hsees tokens).plotter, (hsees' tokens).plotter⟩, ?_⟩
  · intro n
    have h := hsees (tokens.take n)
    have h' := hsees' (tokens.take n)
    exact ⟨h'.state.trans h.state.symm, h'.outcome.trans h.outcome.symm⟩
  · exact (hsees' tokens).outcome.trans (hsees tokens).outcome.symm
  · rw [(hsees tokens).drawings, (hsees' tokens).drawings, Drawing.map_figure_shift,
      Drawing.map_figure_shift]
  · exact ⟨((State.initial units).follow tokens).drawings, (hsees tokens).movedBy,
      (hsees' tokens).movedBy⟩

/-- A path that begins as a mark, ends as a cut and is handed over as one, then a drill mark. -/
def retooledTokens : List Token :=
  [.command 'D' (some 1), .coordinate 100 200, .command 'B' none, .command 'A' none,
    .command 'R' none, .command 'M' (some 0)]

/-- Two sets of offsets, and a recorder and a writer to see them. The path is a cut, because a knife
was lowered last, so the offset of the knife is the one that counts for all its points, also for the
one that the marker began with. -/
theorem same_course_of_retooledTokens :
    let offsets : Offsets := ⟨⟨8.0, 16.0⟩, ⟨0.5, -0.25⟩, ⟨-3.0, 4.0⟩⟩
    let offsets' : Offsets := ⟨⟨1.0, 0.0⟩, ⟨0.0, 1.0⟩, ⟨0.5, 0.5⟩⟩
    let i := Interpreter.new Recorder.new .standard offsets
    let i' := Interpreter.new Script.Writer.new .standard offsets'
    (Plotter.Accepting Recorder.new ∧ Plotter.Accepting Script.Writer.new)
      ∧ (i'.runTokens retooledTokens).outcome = .ok .halt
      ∧ (i'.runTokens retooledTokens).drawings.map Drawing.figure
        = [(.cut, some 3), (.drill, none)]
      ∧ (i.runTokens retooledTokens).drawings
        = [.path .cut [⟨0.5, -0.25⟩, ⟨1.5, 1.75⟩, ⟨1.5, 1.75⟩], .drill ⟨-2.0, 6.0⟩]
      ∧ (i'.runTokens retooledTokens).drawings
        = [.path .cut [⟨0.0, 1.0⟩, ⟨1.0, 3.0⟩, ⟨1.0, 3.0⟩], .drill ⟨1.5, 2.5⟩]
      ∧ ∃ drawings : List Drawing,
        List.Forall₂ (Drawing.MovedBy offsets) drawings (i.runTokens retooledTokens).drawings
          ∧ List.Forall₂ (Drawing.MovedBy offsets') drawings
            (i'.runTokens retooledTokens).drawings := by
  intro offsets offsets' i i'
  have hp : Plotter.Accepting Recorder.new := Recorder.accepting fun _ => rfl
  have hp' : Plotter.Accepting Script.Writer.new := Script.Writer.accepting _
  obtain ⟨-, houtcome, hfigures, -, hdrawings⟩ :=
    same_course_of_offsets hp hp' .standard offsets offsets' retooledTokens
  exact ⟨⟨hp, hp'⟩, houtcome.trans rfl, hfigures.trans rfl, by decide +kernel, by decide +kernel,
    hdrawings⟩

/-! ## 2. States that differ in their units -/

/-- A token that is reached: it stands behind `earlier`, and at none of those the run ends. How runs
end is given by `outcome`. -/
structure Reached (outcome : List Token → Except Fault Flow) (tokens earlier : List Token)
    (token : Token) : Prop where
  split : ∃ later, tokens = earlier ++ token :: later
  proceeds : outcome earlier = .ok .proceed

/-- Whether the units of all coordinates are declared: before every coordinate that is reached there
is a token that sets the units. -/
def DeclaresUnits (outcome : List Token → Except Fault Flow) (tokens : List Token) : Prop :=
  ∀ earlier x y, Reached outcome tokens earlier (.coordinate x y) →
    ∃ token ∈ earlier, (Instruction.ofToken token).setsUnits = true

/-- Whether a token that sets the units is reached. -/
def SetsUnits (outcome : List Token → Except Fault Flow) (tokens : List Token) : Prop :=
  ∃ earlier token, Reached outcome tokens earlier token
    ∧ (Instruction.ofToken token).setsUnits = true

/-- Units are declared in particular by a token that stands before all coordinates. -/
theorem declaresUnits_of_first {before : List Token} (hbefore : ∀ x y, .coordinate x y ∉ before)
    {token : Token} (hsets : (Instruction.ofToken token).setsUnits = true) (after : List Token)
    (outcome : List Token → Except Fault Flow) :
    DeclaresUnits outcome (before ++ token :: after) := by
  have hother : ∀ x y, token ≠ .coordinate x y := by
    rintro x y rfl
    cases hsets
  rintro earlier x y ⟨⟨later, hsplit⟩, -⟩
  obtain ⟨between, rfl, hrest⟩ | ⟨between, rfl, hrest⟩ := List.append_eq_append_iff.1 hsplit
  · cases between with
    | nil => exact absurd (List.cons_eq_cons.1 hrest).1 (hother x y)
    | cons first between =>
      obtain ⟨rfl, -⟩ := List.cons_eq_cons.1 hrest
      exact ⟨token, List.mem_append_right before List.mem_cons_self, hsets⟩
  · cases between with
    | nil => exact absurd (List.cons_eq_cons.1 hrest).1.symm (hother x y)
    | cons first between =>
      obtain ⟨rfl, -⟩ := List.cons_eq_cons.1 hrest
      exact absurd (List.mem_append_right earlier List.mem_cons_self) (hbefore x y)

namespace State

/-- How the course of some tokens ends. -/
def outcome (s : State) (tokens : List Token) : Except Fault Flow :=
  (s.follow tokens).outcome

/-- States that agree in everything but the units. -/
def SameButUnits (s s' : State) : Prop :=
  ∃ units, s' = { s with units := units }

variable {s s' : State}

/-- A state differs from itself in nothing. -/
theorem SameButUnits.refl (s : State) : s.SameButUnits s := ⟨s.units, rfl⟩

/-- To be brought somewhere does the same to either state; only a move has to find out where, and
asks for the units. -/
theorem SameButUnits.moveTo (h : s.SameButUnits s') (location : Point) :
    (s.moveTo location).SameButUnits (s'.moveTo location) := by
  obtain ⟨units, rfl⟩ := h
  unfold State.moveTo
  by_cases hdown : s.isDown = true
  · exact ⟨units, by simp [hdown, record]⟩
  · exact ⟨units, by simp [hdown]⟩

/-- **One instruction.** Any instruction but a move does the same in either state, and if it sets
the units the states are the same afterwards. -/
theorem SameButUnits.react (h : s.SameButUnits s') (token : Token) {instruction : Instruction}
    (hmove : ∀ x y, instruction ≠ .move x y) :
    let r := s.react token instruction
    let r' := s'.react token instruction
    r'.drawing = r.drawing ∧ r'.outcome = r.outcome ∧ r.after.SameButUnits r'.after
      ∧ (instruction.setsUnits = true → r'.after = r.after) := by
  have hback := h.moveTo s.origin
  obtain ⟨units, rfl⟩ := h
  cases instruction with
  | move x y => exact absurd rfl (hmove x y)
  | setUnits new => exact ⟨rfl, rfl, SameButUnits.refl _, fun _ => rfl⟩
  | goToOrigin => exact ⟨rfl, rfl, hback, fun h => absurd h Bool.false_ne_true⟩
  | drill =>
    simp only [State.react]
    split
    · exact ⟨rfl, rfl, ⟨units, rfl⟩, fun h => absurd h Bool.false_ne_true⟩
    · exact ⟨rfl, rfl, ⟨units, rfl⟩, fun h => absurd h Bool.false_ne_true⟩
  | _ => exact ⟨rfl, rfl, ⟨units, rfl⟩, fun h => absurd h Bool.false_ne_true⟩

/-- Where a course goes on, it ends as the course of the rest. -/
theorem outcome_cons {token : Token}
    (h : (s.react token (Instruction.ofToken token)).outcome = .ok .proceed) (rest : List Token) :
    s.outcome (token :: rest)
      = (s.react token (Instruction.ofToken token)).after.outcome rest := by
  rw [outcome, follow_cons_of_proceed rest h]
  rfl

/-- A token at which the course ends is the only one that is reached. -/
theorem reached_of_end {token : Token} {rest earlier : List Token} {next : Token}
    (hend : (s.react token (Instruction.ofToken token)).outcome ≠ .ok .proceed)
    (h : Reached s.outcome (token :: rest) earlier next) : next = token := by
  obtain ⟨⟨later, hsplit⟩, hproceeds⟩ := h
  cases earlier with
  | nil => exact (List.cons_eq_cons.1 hsplit).1.symm
  | cons first earlier =>
    obtain ⟨rfl, -⟩ := List.cons_eq_cons.1 hsplit
    rw [outcome, follow_cons_of_end earlier hend] at hproceeds
    exact absurd hproceeds hend

/-- What is reached behind a token at which the course goes on. -/
theorem reached_cons_iff {token : Token} {rest earlier : List Token} {next : Token}
    (hflow : (s.react token (Instruction.ofToken token)).outcome = .ok .proceed) :
    Reached s.outcome (token :: rest) (token :: earlier) next
      ↔ Reached (s.react token (Instruction.ofToken token)).after.outcome rest earlier next := by
  constructor
  · rintro ⟨⟨later, hsplit⟩, hproceeds⟩
    rw [outcome_cons hflow] at hproceeds
    exact ⟨⟨later, (List.cons_eq_cons.1 hsplit).2⟩, hproceeds⟩
  · rintro ⟨⟨later, rfl⟩, hproceeds⟩
    exact ⟨⟨later, rfl⟩, (outcome_cons hflow earlier).trans hproceeds⟩

/-- **Any tokens.** As long as units are declared, the courses of two states that differ in nothing
else have the same drawings and the same end, and are in the same state once the units are set. The
induction is on the tokens: up to a unit change the relation carries it, and behind one there is
only one state left. -/
theorem SameButUnits.follow (h : s.SameButUnits s') {tokens : List Token}
    (hdeclares : DeclaresUnits s.outcome tokens) :
    (s'.follow tokens).drawings = (s.follow tokens).drawings
      ∧ (s'.follow tokens).outcome = (s.follow tokens).outcome
      ∧ (s.follow tokens).after.SameButUnits (s'.follow tokens).after
      ∧ (SetsUnits s.outcome tokens → (s'.follow tokens).after = (s.follow tokens).after) := by
  induction tokens generalizing s s' with
  | nil =>
    refine ⟨rfl, rfl, h, ?_⟩
    rintro ⟨earlier, token, ⟨⟨later, hsplit⟩, -⟩, -⟩
    simp at hsplit
  | cons token rest ih =>
    have hmove : ∀ x y, Instruction.ofToken token ≠ .move x y := by
      intro x y hmove
      obtain rfl := Instruction.coordinate_of_ofToken hmove
      obtain ⟨_, hnone, -⟩ := hdeclares [] x y ⟨⟨rest, rfl⟩, rfl⟩
      cases hnone
    obtain ⟨hdrawing, houtcome, hafter, hset⟩ := h.react token hmove
    by_cases hflow : (s.react token (Instruction.ofToken token)).outcome = .ok .proceed
    · rw [follow_cons_of_proceed rest hflow, follow_cons_of_proceed rest (houtcome.trans hflow)]
      dsimp only
      by_cases hsets : (Instruction.ofToken token).setsUnits = true
      · rw [hset hsets, hdrawing]
        exact ⟨rfl, rfl, SameButUnits.refl _, fun _ => rfl⟩
      · have hrest : DeclaresUnits (s.react token (Instruction.ofToken token)).after.outcome rest := by
          intro earlier x y hreached
          obtain ⟨other, hother, hothers⟩ :=
            hdeclares (token :: earlier) x y ((reached_cons_iff hflow).2 hreached)
          obtain rfl | hother := List.mem_cons.1 hother
          · exact absurd hothers hsets
          · exact ⟨other, hother, hothers⟩
        obtain ⟨hdrawings, hend, hstate, hsame⟩ := ih hafter hrest
        refine ⟨by rw [hdrawing, hdrawings], hend, hstate, ?_⟩
        rintro ⟨earlier, next, hreached, hnext⟩
        apply hsame
        cases earlier with
        | nil =>
          -- the token that sets the units would be the first one
          obtain ⟨later, hsplit⟩ := hreached.split
          obtain ⟨rfl, -⟩ := List.cons_eq_cons.1 hsplit
          exact absurd hnext hsets
        | cons first earlier =>
          obtain ⟨later, hsplit⟩ := hreached.split
          obtain ⟨rfl, -⟩ := List.cons_eq_cons.1 hsplit
          exact ⟨earlier, next, (reached_cons_iff hflow).1 hreached, hnext⟩
    · have hflow' : (s'.react token (Instruction.ofToken token)).outcome ≠ .ok .proceed := by
        rw [houtcome]
        exact hflow
      rw [follow_cons_of_end rest hflow, follow_cons_of_end rest hflow']
      refine ⟨congrArg Option.toList hdrawing, houtcome, hafter, ?_⟩
      rintro ⟨earlier, next, hreached, hnext⟩
      obtain rfl := reached_of_end hflow hreached
      exact hset hnext

end State

/-! ## 3. Runs that differ in their units -/

namespace Interpreter

variable {σ σ' : Type} [Plotter σ] [Plotter σ']

/-- How the run of some tokens ends. -/
def outcome (i : Interpreter σ) (tokens : List Token) : Except Fault Flow :=
  (i.runTokens tokens).outcome

/-- On an accepting plotter runs end as courses do. -/
theorem outcome_of_accepting {i : Interpreter σ} (hp : Plotter.Accepting i.plotter) :
    i.outcome = i.state.outcome :=
  funext fun tokens => (runTokens_of_accepting hp tokens).outcome

/-- What two interpreters that have run on some tokens have in common: all but the units in force,
and these too if a token that sets the units was reached. -/
structure RunAlike (i : Interpreter σ) (i' : Interpreter σ') (tokens : List Token) : Prop where
  drawings : (i'.runTokens tokens).drawings = (i.runTokens tokens).drawings
  outcome : (i'.runTokens tokens).outcome = (i.runTokens tokens).outcome
  state : (i.runTokens tokens).after.state.SameButUnits (i'.runTokens tokens).after.state
  units : SetsUnits i.outcome tokens →
    (i'.runTokens tokens).after.state.units = (i.runTokens tokens).after.state.units

/-- What two courses have in common two runs have in common, on any accepting plotters. -/
theorem runAlike_of_sameButUnits {i : Interpreter σ} {i' : Interpreter σ'}
    (hp : Plotter.Accepting i.plotter) (hp' : Plotter.Accepting i'.plotter)
    (hoffsets : i'.offsets = i.offsets) (hstate : i.state.SameButUnits i'.state)
    {tokens : List Token} (hdeclares : DeclaresUnits i.outcome tokens) : i.RunAlike i' tokens := by
  have hsees := runTokens_of_accepting hp tokens
  have hsees' := runTokens_of_accepting hp' tokens
  rw [outcome_of_accepting hp] at hdeclares
  obtain ⟨hdrawings, houtcome, hafter, hsets⟩ := hstate.follow hdeclares
  refine ⟨?_, ?_, ?_, ?_⟩
  · rw [hsees.drawings, hsees'.drawings, hdrawings, hoffsets]
  · rw [hsees.outcome, hsees'.outcome, houtcome]
  · rw [hsees.state, hsees'.state]
    exact hafter
  · intro h
    rw [outcome_of_accepting hp] at h
    rw [hsees.state, hsees'.state, hsets h]

/-- What is handed over at the first tokens is handed over first. -/
theorem drawings_prefix (i : Interpreter σ) (earlier later : List Token) :
    (i.runTokens earlier).drawings <+: (i.runTokens (earlier ++ later)).drawings := by
  rw [runTokens, runTokens, List.map_append, run_append]
  by_cases hflow : (i.run (earlier.map .token)).outcome = .ok .proceed
  · rw [Run.andThen_of_proceed hflow]
    exact List.prefix_append _ _
  · rw [Run.andThen_of_end hflow]

end Interpreter

/-- **Units.** A file that sets its units before every coordinate that is reached is drawn alike in
whatever units it is begun, and ends alike, in the same units if it sets any. And wherever two
interpreters have come to that differ in their units at most, they make the same calls first, up to
a coordinate whose units are not declared from there on. -/
theorem same_course_of_units {σ σ' : Type} [Plotter σ] [Plotter σ'] :
    (∀ (plotter : σ) (plotter' : σ') (units units' : Units) (offsets : Offsets)
        (tokens : List Token), Plotter.Accepting plotter → Plotter.Accepting plotter' →
        let i := Interpreter.new plotter units offsets
        let i' := Interpreter.new plotter' units' offsets
        DeclaresUnits i.outcome tokens → i.RunAlike i' tokens)
      ∧ ∀ (i : Interpreter σ) (i' : Interpreter σ'), Plotter.Accepting i.plotter →
        Plotter.Accepting i'.plotter → i'.offsets = i.offsets → i.state.SameButUnits i'.state →
        ∀ earlier later, DeclaresUnits i.outcome earlier →
          i.RunAlike i' earlier
            ∧ (i.runTokens earlier).drawings <+: (i.runTokens (earlier ++ later)).drawings
            ∧ (i.runTokens earlier).drawings <+: (i'.runTokens (earlier ++ later)).drawings := by
  constructor
  · intro plotter plotter' units units' offsets tokens hp hp' i i' hdeclares
    have hstate : i.state.SameButUnits i'.state := ⟨units', rfl⟩
    have hplotter : Plotter.Accepting i.plotter := hp
    have hplotter' : Plotter.Accepting i'.plotter := hp'
    exact Interpreter.runAlike_of_sameButUnits hplotter hplotter' rfl hstate hdeclares
  · intro i i' hp hp' hoffsets hstate earlier later hdeclares
    have halike := Interpreter.runAlike_of_sameButUnits hp hp' hoffsets hstate hdeclares
    refine ⟨halike, i.drawings_prefix earlier later, ?_⟩
    rw [← halike.drawings]
    exact i'.drawings_prefix earlier later

/-- A path that sets its units before its first coordinate, and goes back to the origin. -/
def declaringTokens : List Token :=
  [.command 'D' (some 1), .command 'G' (some 70), .coordinate 100 200, .command 'M' (some 70),
    .command 'D' (some 2), .command 'M' (some 0)]

/-- The file is drawn alike in hundredths of inches and in tenths of millimeters. And once the tool
is down, raising it makes the same call in either units, whatever coordinate comes next. -/
theorem same_course_of_declaringTokens :
    let i := Interpreter.new Recorder.new .hundredthsOfInch Offsets.none
    let i' := Interpreter.new Script.Writer.new .tenthsOfMillimeter Offsets.none
    let lowered := (i.obey (.command 'D' (some 1))).after
    let lowered' := (i'.obey (.command 'D' (some 1))).after
    DeclaresUnits i.outcome declaringTokens
      ∧ i.RunAlike i' declaringTokens
      ∧ (i'.runTokens declaringTokens).after.state.units
        = (i.runTokens declaringTokens).after.state.units
      ∧ lowered.state.SameButUnits lowered'.state
      ∧ lowered.RunAlike lowered' [.command 'D' (some 2)]
      ∧ (lowered.runTokens [.command 'D' (some 2)]).drawings
        <+: (lowered'.runTokens [.command 'D' (some 2), .coordinate 5 6]).drawings := by
  intro i i' lowered lowered'
  have hp : Plotter.Accepting Recorder.new := Recorder.accepting fun _ => rfl
  have hp' : Plotter.Accepting Script.Writer.new := Script.Writer.accepting _
  obtain ⟨hfresh, hanywhere⟩ := @same_course_of_units Recorder Script.Writer _ _
  have hlowering : ∀ x y, .coordinate x y ∉ [Token.command 'D' (some 1)] := by simp
  have hdeclares : DeclaresUnits i.outcome declaringTokens :=
    declaresUnits_of_first hlowering rfl _ _
  have halike := hfresh _ _ _ .tenthsOfMillimeter Offsets.none declaringTokens hp hp' hdeclares
  have hsets : SetsUnits i.outcome declaringTokens :=
    ⟨[.command 'D' (some 1)], .command 'G' (some 70), ⟨⟨_, rfl⟩, rfl⟩, rfl⟩
  have hstate : lowered.state.SameButUnits lowered'.state := ⟨.tenthsOfMillimeter, rfl⟩
  have hnone : DeclaresUnits lowered.outcome [.command 'D' (some 2)] := by
    rintro earlier x y ⟨⟨later, hsplit⟩, -⟩
    have hcoordinate : .coordinate x y ∈ [Token.command 'D' (some 2)] := by
      rw [hsplit]
      exact List.mem_append_right earlier List.mem_cons_self
    cases List.mem_singleton.1 hcoordinate
  obtain ⟨hlowered, -, hprefix⟩ := hanywhere lowered lowered' hp hp' rfl hstate
    [.command 'D' (some 2)] [.coordinate 5 6] hnone
  exact ⟨hdeclares, halike, halike.units hsets, hstate, hlowered, hprefix⟩

end Photoplot
