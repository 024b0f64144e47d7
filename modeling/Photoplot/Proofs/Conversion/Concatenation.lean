import Photoplot.Conversion
import Photoplot.Proofs.Command.Seams

/-!
Command files that are put together.

An interpreter takes readings one after the other and stops at the first stop code or fault, and the
readings of a text do not change when the text goes on.

**What is proved, and where the work is.**

* About runs there is little to prove: what comes behind the end of a run is not run
  (`run_append_of_end`), and a run that proceeds is taken up where it has come to
  (`run_append_of_proceed`). Both hold of any readings, any state and any plotter.
* About readings there is more, and it is proved in `Command.Seams`: a text that is cut at a
  separator has the readings of its parts, one behind the other, while a text that goes on with
  anything but a digit has its own readings first and then some more. What these are is not known,
  and need not be.
* Put together: a command file that is cut at a separator does the same in two runs as in one
  (`runText_separated`), with its calls, its events, its outcome and the state it leaves; and what
  stands behind a stop code or a fault is as good as not there (`ofText_beyond_end`), on any plotter
  and in any conversion.

A digit is the exception in the second case, and a needed one: behind `M0`, it would make another
code of the last one.
-/

set_option autoImplicit false

namespace Photoplot

/-! ## 1. Readings that go on -/

namespace Interpreter

variable {σ : Type} [Plotter σ]

/-- A run that does not proceed has come to its end, whatever further readings there are. -/
theorem run_append_of_end {i : Interpreter σ} {first : List Reading}
    (h : (i.run first).outcome ≠ .ok .proceed) (further : List Reading) :
    i.run (first ++ further) = i.run first := by
  rw [run_append]
  cases hout : (i.run first).outcome with
  | error fault => exact Run.andThen_of_error hout _
  | ok flow =>
    cases flow with
    | halt => exact Run.andThen_of_halt hout _
    | proceed => exact absurd hout h

/-- A run that proceeds is taken up where it has come to. -/
theorem run_append_of_proceed {i : Interpreter σ} {first : List Reading}
    (h : (i.run first).outcome = .ok .proceed) (further : List Reading) :
    let second := (i.run first).after.run further
    i.run (first ++ further) = ⟨second.after, (i.run first).drawings ++ second.drawings,
      (i.run first).events ++ second.events, second.outcome⟩ := by
  intro second
  rw [run_append]
  exact Run.andThen_of_proceed h _

end Interpreter

/-! ## 2. A text that is cut at a separator -/

/-- The text of a stop code is one lexeme. -/
theorem readings_stop : readings "M0" = [.token (.command 'M' (some 0))] := by
  have hformed : (Lexeme.command 'M' ['0']).Formed := .command (Lexeme.isCode_iff.1 rfl) (by simp)
  exact readings_lexeme hformed rfl

namespace Interpreter

/-- **The cut.** A text with a separator in it has the tokens and the warnings of what stands before
the separator, and then those of what stands behind it. So any interpreter does in one run of the
whole text what it does in two runs of the parts, one after the other: the same calls, the same
events and the same end. If the first part halts or fails, the whole text does so in the same way,
and the second part is not run. -/
theorem runText_separated (s t : String) {c : Char} (hc : IsSeparator c) :
    let whole := s ++ String.singleton c ++ t
    tokens whole = tokens s ++ tokens t
      ∧ readings whole = readings s ++ readings t
      ∧ ∀ {σ : Type} [Plotter σ] (i : Interpreter σ),
        ((i.runText s).outcome = .ok .proceed →
          let second := (i.runText s).after.runText t
          (i.runText whole).drawings = (i.runText s).drawings ++ second.drawings
            ∧ (i.runText whole).events = (i.runText s).events ++ second.events
            ∧ (i.runText whole).outcome = second.outcome
            ∧ (i.runText whole).after = second.after)
        ∧ ((i.runText s).outcome ≠ .ok .proceed → i.runText whole = i.runText s) := by
  intro whole
  have hreadings : readings whole = readings s ++ readings t := readings_separated s t hc
  refine ⟨?_, hreadings, ?_⟩
  · rw [tokens_eq_filterMap, tokens_eq_filterMap, tokens_eq_filterMap, hreadings,
      List.filterMap_append]
  · intro σ _ i
    have hwhole : i.runText whole = i.run (readings s ++ readings t) := by
      rw [runText, hreadings]
    constructor
    · intro hproceed
      rw [hwhole, run_append_of_proceed hproceed]
      exact ⟨rfl, rfl, rfl, rfl⟩
    · intro hend
      rw [hwhole]
      exact run_append_of_end hend _

/-- A path whose second coordinate is broken off at a blank, and a stop code before another blank.
-/
theorem runText_separated_at_blank :
    let i := Interpreter.new Recorder.new .standard Offsets.none
    let broken := "D1X5" ++ String.singleton ' ' ++ "Y6D2"
    let stopped := "M0" ++ String.singleton ' ' ++ "R"
    IsSeparator ' '
      ∧ (tokens broken = tokens "D1X5" ++ tokens "Y6D2"
        ∧ (i.runText "D1X5").outcome = .ok .proceed
        ∧ (i.runText broken).outcome = ((i.runText "D1X5").after.runText "Y6D2").outcome)
      ∧ (i.runText "M0").outcome = .ok .halt
      ∧ i.runText stopped = i.runText "M0" := by
  intro i broken stopped
  have hblank : IsSeparator ' ' := by decide
  -- the first coordinate is no lexeme while the second one is missing
  have hbroken : readings "D1X5" = [.token (.command 'D' (some 1))] := by
    have htext : Scanner.ofText "D1X5" = ⟨['D', '1', 'X', '5'], 0⟩ := rfl
    rw [readings, htext, Scanner.readings_of_some rfl, Scanner.readings_of_none rfl]
    rfl
  have hproceed : (i.runText "D1X5").outcome = .ok .proceed := by
    rw [runText, hbroken]
    rfl
  have hhalt : (i.runText "M0").outcome = .ok .halt := by
    rw [runText, readings_stop]
    rfl
  obtain ⟨htokens, -, hrun⟩ := runText_separated "D1X5" "Y6D2" hblank
  obtain ⟨-, -, hrun'⟩ := runText_separated "M0" "R" hblank
  refine ⟨hblank, ⟨htokens, hproceed, ((hrun i).1 hproceed).2.2.1⟩, hhalt, (hrun' i).2 ?_⟩
  rw [hhalt]
  intro h
  cases h

end Interpreter

/-! ## 3. A text that goes on behind its end -/

namespace Interpreter

variable {σ : Type} [Plotter σ]

/-- A run that has come to its end is not changed by text behind it, unless that begins with a
digit. -/
theorem runText_append_of_end {i : Interpreter σ} {s t : String} (ht : NoDigitAhead t.toList)
    (h : (i.runText s).outcome ≠ .ok .proceed) : i.runText (s ++ t) = i.runText s := by
  obtain ⟨further, hreadings⟩ := readings_prefix s ht
  rw [runText, ← hreadings]
  exact run_append_of_end h further

end Interpreter

namespace Conversion

open Script (Writer)

/-- **Behind the end.** When the run of a text ends with a stop code or a fault, text behind it that
does not begin with a digit makes no difference, whatever it holds: the run is the same on every
plotter, with its calls, its events, its outcome and the state it leaves, and so is the conversion
with any settings and any writer, with the script and all that is logged. -/
theorem ofText_beyond_end (s t : String) (ht : ∀ c ∈ t.toList.head?, c.isDigit = false) :
    (∀ {σ : Type} [Plotter σ] (i : Interpreter σ),
        (i.runText s).outcome ≠ .ok .proceed → i.runText (s ++ t) = i.runText s)
      ∧ ∀ (name : String) (settings : Settings) (w : Writer),
        ((Interpreter.new w settings.units settings.offsets).runText s).outcome ≠ .ok .proceed →
        ofText name (s ++ t) settings w = ofText name s settings w
          ∧ scriptText (ofText name (s ++ t) settings w)
            = scriptText (ofText name s settings w) := by
  refine ⟨fun i h => Interpreter.runText_append_of_end ht h, ?_⟩
  intro name settings w h
  have hconverted : ofText name (s ++ t) settings w = ofText name s settings w := by
    rw [ofText, Interpreter.runText_append_of_end ht h]
    rfl
  exact ⟨hconverted, congrArg scriptText hconverted⟩

/-- A drill code, and a conveyor bite that faults; a stop code, and a number out of range. -/
theorem ofText_beyond_end_samples :
    let settings : Settings := ⟨.standard, Offsets.none, false⟩
    let i := Interpreter.new Writer.new settings.units settings.offsets
    ((i.runText "M69").outcome = .error (.unsupported .conveyorBite)
        ∧ ofText "input" ("M69" ++ "R") settings Writer.new
          = ofText "input" "M69" settings Writer.new)
      ∧ (i.runText "M0").outcome = .ok .halt
      ∧ i.runText ("M0" ++ "D99999999999") = i.runText "M0" := by
  intro settings i
  have hformed : (Lexeme.command 'M' ['6', '9']).Formed :=
    .command (Lexeme.isCode_iff.1 rfl) (by simp)
  have hbite : readings "M69" = [.token (.command 'M' (some 69))] := readings_lexeme hformed rfl
  have hfault : (i.runText "M69").outcome = .error (.unsupported .conveyorBite) := by
    rw [Interpreter.runText, hbite]
    rfl
  have hhalt : (i.runText "M0").outcome = .ok .halt := by
    rw [Interpreter.runText, readings_stop]
    rfl
  have hfaulted :=
    (ofText_beyond_end "M69" "R" (noDigitAhead_cons rfl _)).2 "input" settings Writer.new
  have hhalted := (ofText_beyond_end "M0" "D99999999999" (noDigitAhead_cons rfl _)).1 i
  refine ⟨⟨hfault, (hfaulted ?_).1⟩, hhalt, hhalted ?_⟩
  · show (i.runText "M69").outcome ≠ _
    rw [hfault]
    intro h
    cases h
  · rw [hhalt]
    intro h
    cases h

end Conversion

end Photoplot
