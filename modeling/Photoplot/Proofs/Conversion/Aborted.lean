import Photoplot.Proofs.Conversion.Inputs
import Photoplot.Proofs.Interpreter.Session

/-!
What a fault leaves behind.

A token at which an interpreter fails changes as little as it can. If the state machine objects, the
plotter does not hear of it and nothing changes at all; if a drawing is refused, the state loses the
path that was handed over, and nothing else. A writer takes whatever an interpreter hands over, so
on a writer only the first can happen: a run that faults leaves the script of the tokens before the
fault, and a conversion that is given up leaves that script as it stands, without a trailer.

**What is proved, and where the work is.**

* One token, any plotter: the faults by where they come from, each with all that it leaves
  (`FaultAt`, `Interpreter.faultAt_of_error`). It is read off the three cases of an obeyed token.
* On an accepting plotter the two cases of a refusal fall away (`kept_of_error`), so a run that
  faults has done what the run of the tokens before the fault does, and no more
  (`exists_fault_of_run`). For the accepting plotter behind that run one has to know that plotting
  does not make it less accepting.
* Conversions run the readings of a text, warnings included, and not its tokens. To an accepting
  plotter that is no difference in what is left (`runText_of_accepting`).
* Section 3 spells the script out. A run writes the waves of all that it hands over
  (`Writer.wrote_run`), behind whatever the writer has been asked for before
  (`Interpreter.text_run`); the trailer is only written by a conversion that came to its end.

Main statement: `script_of_fault`, one part for each of these.
-/

set_option autoImplicit false

namespace Photoplot

open Script (Writer Call preamble body render)

/-! ## 1. One token -/

namespace Interpreter

variable {σ : Type} [Plotter σ]

/-- The fault of a token, by where it comes from, with all that it leaves behind. -/
inductive FaultAt (i : Interpreter σ) (token : Token) (fault : Fault) : Prop where
  /-- The state machine objects. The plotter is not called, and nothing changes. -/
  | objected (objects : i.state.Objects (Instruction.ofToken token) fault)
      (calls : (i.obey token).drawings = [])
      (after : (i.obey token).after = i)
  /-- A drill mark is refused. The state is as before. -/
  | drillRefused (center : Point)
      (calls : (i.obey token).drawings = [.drill center])
      (refusal : (Plotter.plot i.plotter (.drill center)).refusal = some fault)
      (after : (i.obey token).after
        = { i with plotter := (Plotter.plot i.plotter (.drill center)).after })
  /-- A path is refused. The state has lost it and is otherwise as before. -/
  | pathRefused (tool : Tool) (points : List Point)
      (calls : (i.obey token).drawings = [.path tool points])
      (refusal : (Plotter.plot i.plotter (.path tool points)).refusal = some fault)
      (after : (i.obey token).after
        = { i with
            plotter := (Plotter.plot i.plotter (.path tool points)).after
            state := { i.state with openPath := #[] } })

/-- **One token.** There is no other way to fail. -/
theorem faultAt_of_error {i : Interpreter σ} {token : Token} {fault : Fault}
    (h : (i.obey token).outcome = .error fault) : i.FaultAt token fault := by
  obtain ⟨-, hcalls, houtcome, hafter⟩ | ⟨d, hd, -, -, houtcome, -⟩
    | ⟨d, f, hd, hrefused, hcalls, houtcome, hafter⟩ := i.obey_cases token
  · obtain ⟨hobjects, -, hkept⟩ := State.react_error (houtcome.symm.trans h)
    rw [hkept] at hafter
    exact .objected hobjects hcalls hafter
  · -- an instruction that draws and is taken has no fault
    obtain ⟨-, hnone, -⟩ := State.react_error (houtcome.symm.trans h)
    rw [hnone] at hd
    cases hd
  · rw [houtcome] at h
    obtain rfl := Except.error.inj h
    cases d with
    | drill center =>
      obtain ⟨hdrill, -, -⟩ := State.react_drill hd
      rw [hdrill, (i.state.react_drill_keeps token).2] at hafter
      exact .drillRefused _ hcalls hrefused hafter
    | path tool points =>
      obtain ⟨hup, -, -, -⟩ := State.react_path hd
      rw [hup] at hafter
      exact .pathRefused tool _ hcalls hrefused hafter

/-- On an accepting plotter a fault leaves everything as it was. -/
theorem kept_of_error {i : Interpreter σ} (hp : Plotter.Accepting i.plotter) {token : Token}
    {fault : Fault} (h : (i.obey token).outcome = .error fault) :
    (i.obey token).drawings = [] ∧ (i.obey token).after = i := by
  have htaken := carryOut_of_accepting hp (r := i.state.react token (Instruction.ofToken token))
    fun d hd => State.react_visible hd
  obtain ⟨-, hnone, hkept⟩ := State.react_error (htaken.2.2.2.2.symm.trans h)
  obtain ⟨-, hcalls, -, hafter⟩ | ⟨d, hd, -⟩ | ⟨d, f, hd, -⟩ := i.obey_cases token
  · rw [hkept] at hafter
    exact ⟨hcalls, hafter⟩
  all_goals
    rw [hnone] at hd
    cases hd

/-! ## 2. Runs -/

/-- The run of some tokens goes on at all of those in `earlier` and faults at the one behind them.
-/
structure FaultsBehind (i : Interpreter σ) (tokens earlier : List Token) (fault : Fault) : Prop where
  proceeds : (i.runTokens earlier).outcome = .ok .proceed
  next : ∃ token later, tokens = earlier ++ token :: later
    ∧ ((i.runTokens earlier).after.obey token).outcome = .error fault

/-- **The run law.** On an accepting plotter a run that faults has done what the run of the tokens
before the fault does, and no more. -/
theorem exists_fault_of_run {i : Interpreter σ} (hp : Plotter.Accepting i.plotter)
    {tokens : List Token} {fault : Fault} (h : (i.runTokens tokens).outcome = .error fault) :
    ∃ earlier, i.FaultsBehind tokens earlier fault
      ∧ (i.runTokens tokens).after = (i.runTokens earlier).after
      ∧ (i.runTokens tokens).drawings = (i.runTokens earlier).drawings := by
  have hend : (i.runTokens tokens).outcome ≠ .ok .proceed := by
    rw [h]
    nofun
  obtain ⟨earlier, token, later, hsplit, hproceed, hrun⟩ := exists_end_of_run hend
  rw [Run.andThen_of_proceed hproceed] at hrun
  have hfault : ((i.runTokens earlier).after.obey token).outcome = .error fault := by
    rw [hrun] at h
    exact h
  -- the plotter has taken what stands before the fault, so it is accepting still
  have hp' : Plotter.Accepting (i.runTokens earlier).after.plotter := by
    rw [(runTokens_of_accepting hp earlier).plotter]
    exact hp.afterAll _
  obtain ⟨hcalls, hkept⟩ := kept_of_error hp' hfault
  refine ⟨earlier, ⟨hproceed, token, later, hsplit, hfault⟩, ?_, ?_⟩
  · rw [hrun]
    exact hkept
  · rw [hrun, hcalls]
    exact List.append_nil _

/-- Two runs that see the same course come to the same. -/
theorem Sees.agree {i : Interpreter σ} {run run' : Run σ} {c : Course} (h : i.Sees run c)
    (h' : i.Sees run' c) : run.after = run'.after ∧ run.outcome = run'.outcome := by
  refine ⟨?_, h.outcome.trans h'.outcome.symm⟩
  have hplotter : run.after.plotter = run'.after.plotter := by
    rw [h.plotter, h'.plotter, h.drawings, h'.drawings]
  have hoffsets := h.offsets.trans h'.offsets.symm
  have hstate := h.state.trans h'.state.symm
  cases hr : run.after
  cases hr' : run'.after
  simp only [hr, hr'] at hplotter hoffsets hstate
  rw [hplotter, hoffsets, hstate]

/-- To an accepting plotter a text is its tokens. -/
theorem runText_of_accepting {i : Interpreter σ} (hp : Plotter.Accepting i.plotter) (text : String) :
    (i.runText text).after = (i.runTokens (tokens text)).after
      ∧ (i.runText text).outcome = (i.runTokens (tokens text)).outcome := by
  have htext : i.Sees (i.runText text) (i.state.follow (tokens text)) := by
    rw [tokens, Scanner.tokens_eq_filterMap]
    exact run_of_accepting hp (readings text)
  exact htext.agree (runTokens_of_accepting hp (tokens text))

end Interpreter

/-! ## 3. Scripts -/

namespace Script.Writer

/-- A run writes the waves of all that is handed over in it. -/
theorem wrote_run {i : Interpreter Writer} (hl : i.plotter.Latched) (tokens : List Token) :
    i.plotter.Wrote (i.runTokens tokens).drawings (i.runTokens tokens).after.plotter := by
  have hsees := Interpreter.runTokens_of_accepting (accepting i.plotter) tokens
  have hvisible : ∀ d ∈ (i.runTokens tokens).drawings, d.Visible := by
    rw [hsees.drawings]
    intro shifted hshifted
    obtain ⟨d, hd, rfl⟩ := List.mem_map.1 hshifted
    exact (Drawing.visible_shift i.offsets d).2 (i.state.follow_visible tokens d hd)
  have hcalls : ((i.runTokens tokens).drawings.map Call.draw).filterMap Call.visible?
      = (i.runTokens tokens).drawings := by
    rw [List.filterMap_map]
    calc (i.runTokens tokens).drawings.filterMap (Call.visible? ∘ Call.draw)
        = (i.runTokens tokens).drawings.filterMap some :=
          List.filterMap_congr fun d hd => if_pos (hvisible d hd)
      _ = (i.runTokens tokens).drawings := List.filterMap_some
  have hwrote := performAll_wrote hl ((i.runTokens tokens).drawings.map Call.draw)
  rw [hcalls, performAll, List.foldl_map] at hwrote
  rw [hsees.plotter]
  exact hwrote

end Script.Writer

/-- The text of a writer that has been asked for some calls, and then has taken what a run of tokens
draws: the preamble and the waves of all of that. -/
theorem Interpreter.text_run {i : Interpreter Writer} {calls : List Call}
    (hi : i.plotter = Writer.new.performAll calls) (tokens : List Token) :
    (i.runTokens tokens).after.plotter.text
      = render (preamble ++ body 0 (Writer.new.taken calls ++ (i.runTokens tokens).drawings)) := by
  have hcalls := Writer.performAll_wrote Writer.latched_new calls
  rw [← Writer.taken_eq Writer.new, ← hi] at hcalls
  have hwrote := hcalls.trans (Writer.wrote_run hcalls.latched tokens)
  rw [Writer.text, hwrote.blocks_of_new]

namespace Conversion

/-- A conversion faults when the run of its text does, and leaves what the run leaves. -/
theorem runTokens_of_ofText {name text : String} {settings : Settings} {w : Writer} {fault : Fault}
    (h : (ofText name text settings w).fault = some fault) :
    let run := (Interpreter.new w settings.units settings.offsets).runTokens (tokens text)
    run.outcome = .error fault ∧ (ofText name text settings w).state = run.after.plotter
      ∧ scriptText (ofText name text settings w) = run.after.plotter.text := by
  obtain ⟨hafter, houtcome⟩ := Interpreter.runText_of_accepting
    (i := Interpreter.new w settings.units settings.offsets) (Writer.accepting w) text
  intro run
  have hscript : scriptText (ofText name text settings w)
      = (ofText name text settings w).state.text := by
    rw [scriptText, h]
  rw [hscript]
  rw [ofText] at h ⊢
  cases hrun : ((Interpreter.new w settings.units settings.offsets).runText text).outcome with
  | ok flow =>
    rw [hrun] at h
    cases h
  | error fault' =>
    simp only [hrun] at h
    obtain rfl := Option.some.inj h
    rw [hrun] at houtcome
    exact ⟨houtcome.symm, congrArg Interpreter.plotter hafter,
      congrArg (fun i => i.plotter.text) hafter⟩

/-- **What a fault leaves.** A token that faults changes nothing, or loses the path that was
refused. A run on a writer that faults leaves the interpreter as the tokens before the fault do, and
the writer with it: text, count, box, latch and graph starts. So a conversion that is given up,
whatever its writer has been asked for before, leaves the preamble and the waves that were complete
by then, and no trailer. -/
theorem script_of_fault :
    (∀ {σ : Type} [Plotter σ] (i : Interpreter σ) (token : Token) (fault : Fault),
        (i.obey token).outcome = .error fault → i.FaultAt token fault)
      ∧ (∀ (i : Interpreter Writer) (tokens : List Token) (fault : Fault),
        (i.runTokens tokens).outcome = .error fault →
        ∃ earlier, i.FaultsBehind tokens earlier fault
          ∧ (i.runTokens tokens).after = (i.runTokens earlier).after
          ∧ (i.runTokens tokens).drawings = (i.runTokens earlier).drawings
          ∧ ∀ calls, i.plotter = Writer.new.performAll calls →
            (i.runTokens tokens).after.plotter.text = render (preamble
              ++ body 0 (Writer.new.taken calls ++ (i.runTokens earlier).drawings)))
      ∧ ∀ (calls : List Call) (settings : Settings) (name text : String) (fault : Fault),
        let w := Writer.new.performAll calls
        let i := Interpreter.new w settings.units settings.offsets
        (ofText name text settings w).fault = some fault →
        ∃ earlier, i.FaultsBehind (tokens text) earlier fault
          ∧ (ofText name text settings w).state = (i.runTokens earlier).after.plotter
          ∧ scriptText (ofText name text settings w) = render (preamble
            ++ body 0 (Writer.new.taken calls ++ (i.runTokens earlier).drawings)) := by
  refine ⟨fun i token fault h => Interpreter.faultAt_of_error h, ?_, ?_⟩
  · intro i tokens fault h
    obtain ⟨earlier, hfaults, hafter, hdrawings⟩ :=
      Interpreter.exists_fault_of_run (Writer.accepting i.plotter) h
    refine ⟨earlier, hfaults, hafter, hdrawings, ?_⟩
    intro calls hi
    rw [hafter]
    exact Interpreter.text_run hi earlier
  · intro calls settings name text fault w i h
    obtain ⟨hrun, hstate, hscript⟩ := runTokens_of_ofText h
    obtain ⟨earlier, hfaults, hafter, -⟩ :=
      Interpreter.exists_fault_of_run (i := i) (Writer.accepting w) hrun
    have htext := Interpreter.text_run (i := i) rfl earlier
    rw [← hafter] at htext
    have hplotter := congrArg Interpreter.plotter hafter
    exact ⟨earlier, hfaults, hstate.trans hplotter, hscript.trans htext⟩

/-- A path, a drill mark, and a second path that is still open at the second drill code. -/
def faultyText : String := "D1D2RD1R"

/-- The tokens of that text. -/
def faultyTokens : List Token :=
  [.command 'D' (some 1), .command 'D' (some 2), .command 'R' none, .command 'D' (some 1),
    .command 'R' none]

/-- A plotter that refuses the path leaves a fault at its raising; a writer takes path and drill
mark, and its script is left as it was before the second drill code. -/
theorem script_of_faultyText :
    let refused := (Interpreter.new Recorder.new.refuseNext .standard Offsets.none).feed
      [.command 'D' (some 1)]
    let i := Interpreter.new Writer.new .standard Offsets.none
    let c := ofText "input" faultyText standardSettings Writer.new
    ((refused.obey (.command 'D' (some 2))).outcome = .error .refused
        ∧ refused.FaultAt (.command 'D' (some 2)) .refused)
      ∧ ((i.runTokens faultyTokens).outcome = .error (.pathOpenAtDrill 1)
        ∧ ∃ earlier, i.FaultsBehind faultyTokens earlier (.pathOpenAtDrill 1)
          ∧ (i.runTokens faultyTokens).after = (i.runTokens earlier).after)
      ∧ c.fault = some (.pathOpenAtDrill 1)
      ∧ ∃ earlier, i.FaultsBehind (tokens faultyText) earlier (.pathOpenAtDrill 1)
        ∧ scriptText c
          = render (preamble ++ body 0 (Writer.new.taken [] ++ (i.runTokens earlier).drawings)) := by
  intro refused i c
  obtain ⟨htoken, hrun, htext⟩ := script_of_fault
  have hrefused : (refused.obey (.command 'D' (some 2))).outcome = .error .refused := rfl
  have hfault : (i.runTokens faultyTokens).outcome = .error (.pathOpenAtDrill 1) := rfl
  have hreadings : readings faultyText = faultyTokens.map .token := by
    have hscanner : Scanner.ofText faultyText
        = ⟨['D', '1', 'D', '2', 'R', 'D', '1', 'R'], 0⟩ := rfl
    rw [readings, hscanner, Scanner.readings_of_some rfl, Scanner.readings_of_some rfl,
      Scanner.readings_of_some rfl, Scanner.readings_of_some rfl, Scanner.readings_of_some rfl,
      Scanner.readings_of_none rfl]
    rfl
  have hc : c.fault = some (.pathOpenAtDrill 1) := by
    rw [(ofText_eq "input" faultyText standardSettings Writer.new).2, course, hreadings]
    rfl
  obtain ⟨earlier, hfaults, hafter, -, -⟩ := hrun i faultyTokens _ hfault
  obtain ⟨earlier', hfaults', -, hscript⟩ := htext [] standardSettings "input" faultyText _ hc
  exact ⟨⟨hrefused, htoken refused _ _ hrefused⟩, ⟨hfault, earlier, hfaults, hafter⟩, hc, earlier',
    hfaults', hscript⟩

end Conversion

end Photoplot
