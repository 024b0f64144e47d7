import Photoplot.Proofs.Interpreter.Session

/-!
Codes that are only noted.

File and pattern numbers, the code for normal speed and whatever the dialect does not know draw
nothing, move nothing and end nothing. So they may be taken out of a command file, all of them or
some, wherever they stand: inside a path, before a fault, around a stop code. `Thinned` is what
remains then.

**What is proved, and where the work is.**

* A diagnostic code leaves the state as it is up to the two numbers (`State.react_diagnostic`), and
  states that differ in no more react alike to every instruction (`State.SameButNumbers.react`). All
  instructions are gone through here, and nowhere else.
* The two files cannot be run in step, for one of them has tokens that the other has not. So the
  induction is on what was taken out (`Interpreter.SameButNumbers.runTokens`). A kept token is
  obeyed by both runs, and a dropped one by one of them alone, which is then no further from the
  other one than before. The plotter may refuse what it likes: it is the same plotter, and it is
  called alike.
* The numbers at the end are a law of their own, about one run and not about two: a number is the
  last one that a processed token has set (`Interpreter.number_of_run`). It is proved once, for
  whatever number a state holds and whatever instructions set it, and used for both.

Main statement: `same_drawings_of_thinned`.
-/

set_option autoImplicit false

namespace Photoplot

/-! ## 1. Diagnostic codes -/

namespace Instruction

/-- Whether the instruction is only noted. -/
def isDiagnostic : Instruction → Bool
  | setFileNumber _ | setPatternNumber _ | resumeNormalSpeed | unrecognized => true
  | _ => false

/-- The file number that the instruction sets, if it sets one. -/
def fileNumber? : Instruction → Option (Option Int)
  | setFileNumber number => some number
  | _ => none

/-- The pattern number that the instruction sets, if it sets one. -/
def patternNumber? : Instruction → Option (Option Int)
  | setPatternNumber number => some number
  | _ => none

end Instruction

/-- **Thinning.** Tokens from which some diagnostic codes have been taken out: `Thinned kept tokens`
says that `kept` is what remains of `tokens`. -/
inductive Thinned : List Token → List Token → Prop
  | nil : Thinned [] []
  | keep (token : Token) {kept tokens : List Token} (h : Thinned kept tokens) :
      Thinned (token :: kept) (token :: tokens)
  | drop {token : Token} {kept tokens : List Token}
      (hdiagnostic : (Instruction.ofToken token).isDiagnostic = true) (h : Thinned kept tokens) :
      Thinned kept (token :: tokens)

/-! ## 2. States that differ in their numbers -/

namespace State

/-- States that agree in everything but the file and the pattern number. -/
def SameButNumbers (s s' : State) : Prop :=
  ∃ file pattern, s' = { s with fileNumber := file, patternNumber := pattern }

variable {s s' : State}

/-- A state differs from itself in nothing. -/
theorem SameButNumbers.refl (s : State) : s.SameButNumbers s :=
  ⟨s.fileNumber, s.patternNumber, rfl⟩

/-- A move does the same to either state, for it looks at no number. -/
theorem SameButNumbers.moveTo (h : s.SameButNumbers s') (location : Point) :
    (s.moveTo location).SameButNumbers (s'.moveTo location) := by
  obtain ⟨file, pattern, rfl⟩ := h
  unfold State.moveTo
  by_cases hdown : s.isDown = true
  · exact ⟨file, pattern, by simp [hdown, record]⟩
  · exact ⟨file, pattern, by simp [hdown]⟩

/-- **One instruction.** It does the same in either state, whether its drawing is taken or not. -/
theorem SameButNumbers.react (h : s.SameButNumbers s') (token : Token) (instruction : Instruction) :
    let r := s.react token instruction
    let r' := s'.react token instruction
    r'.drawing = r.drawing ∧ r'.outcome = r.outcome ∧ r.after.SameButNumbers r'.after
      ∧ r.ifRefused.SameButNumbers r'.ifRefused := by
  have hmove := h.moveTo
  obtain ⟨file, pattern, rfl⟩ := h
  cases instruction with
  | move x y => exact ⟨rfl, rfl, hmove _, hmove _⟩
  | goToOrigin => exact ⟨rfl, rfl, hmove _, hmove _⟩
  | drill =>
    simp only [State.react]
    split
    · exact ⟨rfl, rfl, ⟨file, pattern, rfl⟩, ⟨file, pattern, rfl⟩⟩
    · exact ⟨rfl, rfl, ⟨file, pattern, rfl⟩, ⟨file, pattern, rfl⟩⟩
  | setFileNumber number => exact ⟨rfl, rfl, ⟨number, pattern, rfl⟩, ⟨number, pattern, rfl⟩⟩
  | setPatternNumber number => exact ⟨rfl, rfl, ⟨file, number, rfl⟩, ⟨file, number, rfl⟩⟩
  | _ => exact ⟨rfl, rfl, ⟨file, pattern, rfl⟩, ⟨file, pattern, rfl⟩⟩

/-- A diagnostic code changes at most the numbers. -/
theorem react_diagnostic (s : State) (token : Token) {instruction : Instruction}
    (h : instruction.isDiagnostic = true) :
    let r := s.react token instruction
    r.drawing = none ∧ r.outcome = .ok .proceed ∧ s.SameButNumbers r.after := by
  cases instruction with
  | setFileNumber number => exact ⟨rfl, rfl, ⟨number, s.patternNumber, rfl⟩⟩
  | setPatternNumber number => exact ⟨rfl, rfl, ⟨s.fileNumber, number, rfl⟩⟩
  | resumeNormalSpeed => exact ⟨rfl, rfl, .refl s⟩
  | unrecognized => exact ⟨rfl, rfl, .refl s⟩
  | _ => cases h

/-- **Numbers.** A number of the state is the one that the instruction sets, and otherwise as
before, whether its drawing is taken or not. -/
theorem react_numbers (s : State) (token : Token) (instruction : Instruction) :
    let r := s.react token instruction
    (r.after.fileNumber = instruction.fileNumber?.getD s.fileNumber
        ∧ r.ifRefused.fileNumber = instruction.fileNumber?.getD s.fileNumber)
      ∧ r.after.patternNumber = instruction.patternNumber?.getD s.patternNumber
      ∧ r.ifRefused.patternNumber = instruction.patternNumber?.getD s.patternNumber := by
  have hmove : ∀ location, (s.moveTo location).fileNumber = s.fileNumber
      ∧ (s.moveTo location).patternNumber = s.patternNumber := by
    intro location
    by_cases hdown : s.isDown = true
    · simp [moveTo, hdown, record]
    · simp [moveTo, hdown]
  cases instruction with
  | move x y => exact ⟨⟨(hmove _).1, (hmove _).1⟩, (hmove _).2, (hmove _).2⟩
  | goToOrigin => exact ⟨⟨(hmove _).1, (hmove _).1⟩, (hmove _).2, (hmove _).2⟩
  | drill =>
    simp only [react]
    split <;> exact ⟨⟨rfl, rfl⟩, rfl, rfl⟩
  | _ => exact ⟨⟨rfl, rfl⟩, rfl, rfl⟩

end State

/-! ## 3. Runs of thinned tokens -/

namespace Interpreter

variable {σ : Type} [Plotter σ]

/-- The tokens that a run processes: all of them, or those up to the one at which it ends. -/
def processed (i : Interpreter σ) : List Token → List Token
  | [] => []
  | token :: rest =>
    match (i.obey token).outcome with
    | .ok .proceed => token :: (i.obey token).after.processed rest
    | _ => [token]

/-- A token at which the run goes on is processed, and so is what is processed behind it. -/
theorem processed_cons_of_proceed {i : Interpreter σ} {token : Token} (rest : List Token)
    (h : (i.obey token).outcome = .ok .proceed) :
    i.processed (token :: rest) = token :: (i.obey token).after.processed rest := by
  simp only [processed, h]

/-- The token at which a run ends is the last one that is processed. -/
theorem processed_cons_of_end {i : Interpreter σ} {token : Token} (rest : List Token)
    (h : (i.obey token).outcome ≠ .ok .proceed) : i.processed (token :: rest) = [token] := by
  rw [processed]
  split
  · contradiction
  · rfl

/-- Interpreters that agree in everything but the two numbers. -/
structure SameButNumbers (i i' : Interpreter σ) : Prop where
  plotter : i'.plotter = i.plotter
  offsets : i'.offsets = i.offsets
  state : i.state.SameButNumbers i'.state

variable {i i' : Interpreter σ}

/-- Any token does the same to either of them. -/
theorem SameButNumbers.obey (h : i.SameButNumbers i') (token : Token) :
    (i'.obey token).drawings = (i.obey token).drawings
      ∧ (i'.obey token).outcome = (i.obey token).outcome
      ∧ (i.obey token).after.SameButNumbers (i'.obey token).after := by
  obtain ⟨hdrawing, houtcome, hafter, hrefused⟩ :=
    h.state.react token (Instruction.ofToken token)
  simp only [Interpreter.obey, carryOut, hdrawing, houtcome, h.plotter, h.offsets]
  split
  · exact ⟨rfl, rfl, rfl, rfl, hafter⟩
  · split
    · exact ⟨rfl, rfl, rfl, rfl, hafter⟩
    · exact ⟨rfl, rfl, rfl, rfl, hrefused⟩

/-- A diagnostic code calls no plotter, ends no run and changes at most the numbers. -/
theorem obey_diagnostic (i : Interpreter σ) {token : Token}
    (h : (Instruction.ofToken token).isDiagnostic = true) :
    (i.obey token).drawings = [] ∧ (i.obey token).outcome = .ok .proceed
      ∧ i.SameButNumbers (i.obey token).after := by
  obtain ⟨hdrawing, houtcome, hafter⟩ := i.state.react_diagnostic token h
  obtain ⟨-, hdrawings, hend, hi⟩ | ⟨d, hd, -⟩ | ⟨d, fault, hd, -⟩ := i.obey_cases token
  · refine ⟨hdrawings, hend.trans houtcome, ?_⟩
    rw [hi]
    exact ⟨rfl, rfl, hafter⟩
  · rw [hdrawing] at hd
    cases hd
  · rw [hdrawing] at hd
    cases hd

/-- **Thinned runs.** The induction is on what was taken out. A kept token is obeyed by both, and a
dropped one by the longer run alone, which is then no further than the numbers from the shorter. -/
theorem SameButNumbers.runTokens (h : i.SameButNumbers i') {kept tokens : List Token}
    (hthinned : Thinned kept tokens) :
    (i'.runTokens kept).drawings = (i.runTokens tokens).drawings
      ∧ (i'.runTokens kept).outcome = (i.runTokens tokens).outcome
      ∧ (i.runTokens tokens).after.SameButNumbers (i'.runTokens kept).after
      ∧ Thinned (i'.processed kept) (i.processed tokens) := by
  induction hthinned generalizing i i' with
  | nil => exact ⟨rfl, rfl, h, .nil⟩
  | @keep token kept tokens _ ih =>
    obtain ⟨hdrawings, houtcome, hafter⟩ := h.obey token
    rw [runTokens_cons, runTokens_cons]
    by_cases hflow : (i.obey token).outcome = .ok .proceed
    · have hflow' := houtcome.trans hflow
      obtain ⟨hdrawings', houtcome', hafter', hprocessed⟩ := ih hafter
      rw [Run.andThen_of_proceed hflow, Run.andThen_of_proceed hflow',
        processed_cons_of_proceed _ hflow, processed_cons_of_proceed _ hflow']
      exact ⟨by rw [hdrawings, hdrawings'], houtcome', hafter', .keep token hprocessed⟩
    · have hflow' : (i'.obey token).outcome ≠ .ok .proceed := by
        rw [houtcome]
        exact hflow
      rw [Run.andThen_of_end hflow, Run.andThen_of_end hflow', processed_cons_of_end _ hflow,
        processed_cons_of_end _ hflow']
      exact ⟨hdrawings, houtcome, hafter, .keep token .nil⟩
  | @drop token kept tokens hdiagnostic _ ih =>
    obtain ⟨hdrawings, hflow, hpassed⟩ := i.obey_diagnostic hdiagnostic
    -- what the longer run has come to differs from the shorter one in numbers still
    have hbehind : (i.obey token).after.SameButNumbers i' := by
      obtain ⟨hplotter, hoffsets, file, pattern, hstate⟩ := hpassed
      obtain ⟨hplotter', hoffsets', file', pattern', hstate'⟩ := h
      refine ⟨hplotter'.trans hplotter.symm, hoffsets'.trans hoffsets.symm, file', pattern', ?_⟩
      rw [hstate', hstate]
    obtain ⟨hdrawings', houtcome', hafter', hprocessed⟩ := ih hbehind
    rw [runTokens_cons, Run.andThen_of_proceed hflow, processed_cons_of_proceed _ hflow]
    refine ⟨?_, houtcome', hafter', .drop hdiagnostic hprocessed⟩
    rw [hdrawings, List.nil_append]
    exact hdrawings'

/-! ## 4. The numbers of a run -/

/-- **Numbers of a run.** Let `number` be a number of the state and `set?` tell which instructions
set it. After a run it is the last one that a processed token has set, and if there was none it is
what it was. -/
theorem number_of_run (number : State → Option Int) (set? : Instruction → Option (Option Int))
    (hreact : ∀ (s : State) (token : Token) (instruction : Instruction),
      let r := s.react token instruction
      number r.after = (set? instruction).getD (number s)
        ∧ number r.ifRefused = (set? instruction).getD (number s))
    (i : Interpreter σ) (tokens : List Token) :
    number (i.runTokens tokens).after.state
      = ((i.processed tokens).filterMap fun token => set? (Instruction.ofToken token)).getLastD
          (number i.state) := by
  induction tokens generalizing i with
  | nil => rfl
  | cons token rest ih =>
    have hobey : number (i.obey token).after.state
        = (set? (Instruction.ofToken token)).getD (number i.state) := by
      obtain ⟨-, -, -, hafter⟩ | ⟨d, -, -, -, -, hafter⟩ | ⟨d, fault, -, -, -, -, hafter⟩ :=
        i.obey_cases token
      · rw [hafter]
        exact (hreact _ _ _).1
      · rw [hafter]
        exact (hreact _ _ _).1
      · rw [hafter]
        exact (hreact _ _ _).2
    -- what the first token sets is what the others start from
    have hfirst : ∀ later : List Token,
        ((token :: later).filterMap fun token => set? (Instruction.ofToken token)).getLastD
            (number i.state)
          = (later.filterMap fun token => set? (Instruction.ofToken token)).getLastD
              (number (i.obey token).after.state) := by
      intro later
      rw [hobey, List.filterMap_cons]
      cases set? (Instruction.ofToken token) with
      | none => rfl
      | some n => exact List.getLastD_cons
    rw [runTokens_cons]
    by_cases hflow : (i.obey token).outcome = .ok .proceed
    · rw [Run.andThen_of_proceed hflow, processed_cons_of_proceed _ hflow, hfirst]
      exact ih _
    · rw [Run.andThen_of_end hflow, processed_cons_of_end _ hflow]
      exact (hfirst []).symm

end Interpreter

/-- The file numbers that some tokens set, in order. -/
def fileNumbers (tokens : List Token) : List (Option Int) :=
  tokens.filterMap fun token => (Instruction.ofToken token).fileNumber?

/-- The pattern numbers that some tokens set, in order. -/
def patternNumbers (tokens : List Token) : List (Option Int) :=
  tokens.filterMap fun token => (Instruction.ofToken token).patternNumber?

/-- **Diagnostic codes.** On any plotter and from any state, tokens from which diagnostic codes have
been taken out make the same calls as all of them, to which the plotter answers alike, and end in
the same way and in the same state, but for the file and the pattern number. What is processed of
them is what remains of the tokens processed otherwise; and either number is the last one set among
these, or the one at the start. -/
theorem same_drawings_of_thinned {σ : Type} [Plotter σ] (i : Interpreter σ)
    {kept tokens : List Token} (h : Thinned kept tokens) :
    let run := i.runTokens tokens
    let thinned := i.runTokens kept
    thinned.drawings = run.drawings
      ∧ thinned.outcome = run.outcome
      ∧ thinned.after.plotter = run.after.plotter
      ∧ run.after.state.SameButNumbers thinned.after.state
      ∧ Thinned (i.processed kept) (i.processed tokens)
      ∧ thinned.after.state.fileNumber
        = (fileNumbers (i.processed kept)).getLastD i.state.fileNumber
      ∧ thinned.after.state.patternNumber
        = (patternNumbers (i.processed kept)).getLastD i.state.patternNumber := by
  intro run thinned
  have hsame : i.SameButNumbers i := ⟨rfl, rfl, .refl _⟩
  obtain ⟨hdrawings, houtcome, hafter, hprocessed⟩ := hsame.runTokens h
  refine ⟨hdrawings, houtcome, hafter.plotter, hafter.state, hprocessed, ?_, ?_⟩
  · exact Interpreter.number_of_run State.fileNumber Instruction.fileNumber?
      (fun s token instruction => (s.react_numbers token instruction).1) i kept
  · exact Interpreter.number_of_run State.patternNumber Instruction.patternNumber?
      (fun s token instruction => (s.react_numbers token instruction).2) i kept

/-- A path with an unknown code in it, then a file number, a pattern number, and a drill code
between two more pattern numbers. -/
def annotatedTokens : List Token :=
  [.command 'D' (some 1), .command 'Q' none, .coordinate 100 200, .command 'H' (some 5),
    .command 'N' (some 7), .command 'O' none, .command 'D' (some 2), .command 'N' (some 8),
    .command 'R' none, .command 'N' (some 9)]

/-- The recorder takes the path and refuses the drill mark, with or without the unknown code, the
speed code and the second pattern number. The third one stands behind the end of the run. -/
theorem same_drawings_of_annotatedTokens :
    let i := Interpreter.new { Recorder.new with refuses := fun call => call == 1 } .standard
      Offsets.none
    let kept := [.command 'D' (some 1), .coordinate 100 200, .command 'H' (some 5),
      .command 'N' (some 7), .command 'D' (some 2), .command 'R' none, .command 'N' (some 9)]
    Thinned kept annotatedTokens
      ∧ (i.runTokens kept).drawings = (i.runTokens annotatedTokens).drawings
      ∧ (i.runTokens kept).drawings.length = 2
      ∧ (i.runTokens kept).outcome = .error .refused
      ∧ (i.runTokens annotatedTokens).after.state.SameButNumbers (i.runTokens kept).after.state
      ∧ (i.runTokens kept).after.state.fileNumber = some 5
      ∧ (i.runTokens kept).after.state.patternNumber = some 7
      ∧ (i.runTokens annotatedTokens).after.state.patternNumber = some 8 := by
  intro i kept
  have hthinned : Thinned kept annotatedTokens :=
    .keep _ (.drop rfl (.keep _ (.keep _ (.keep _ (.drop rfl (.keep _ (.drop rfl
      (.keep _ (.keep _ .nil)))))))))
  obtain ⟨hdrawings, houtcome, -, hstate, -, hfile, hpattern⟩ := same_drawings_of_thinned i hthinned
  exact ⟨hthinned, hdrawings, rfl, houtcome.trans rfl, hstate, hfile.trans rfl, hpattern.trans rfl,
    rfl⟩

end Photoplot
