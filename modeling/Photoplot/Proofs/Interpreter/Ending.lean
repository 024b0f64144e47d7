import Photoplot.Proofs.Interpreter.Timeline
import Photoplot.Proofs.Script.Waves

/-!
How a run ends, read off the positions of its instructions.

A run goes on until the first instruction that ends it, and three kinds do: a stop code, a feature
that cannot be drawn, and a drill code under an open path. The last is the one that depends on what
came before. The state machine asks how many points are open; `endingAt` counts the instructions
that recorded them, from the first lowering since the tool was last raised.

Positions are counted as in `Timeline`, and the invariant that carries the proof is the one from
there.

**What is proved, and where the work is.**

* A position ends the data if and only if it has an ending (`isSome_endingAt`), so the extent of
  `Timeline` is the first position with one.
* The open path has as many points as instructions have recorded (`length_openPathAfter`), and at
  least one, that of the lowering (`recordings_pos`). So the number in the fault of a drill code is
  never zero, and the only faults are the two that `fault_of_endingAt` names.
* What one instruction does to the outcome is `Tracks.outcome`, and the rest is an induction on the
  tokens as in `Timeline`, which finds the first ending with `findSome?`.

Main statement: `outcome_eq_ending`, on an accepting plotter a run ends as its first ending position
says, and there is no other way for it to fail.
-/

set_option autoImplicit false

namespace Photoplot.Timeline

open Instruction

section Positions

/-! ## 1. Endings -/

variable (program : List Instruction)

/-- How many of the instructions from the position `first` up to `n` lower a tool, move it or bring
it back to the origin. While a path is open each of them records a point. -/
def recordings (first n : Nat) : Nat :=
  ((List.range' first (n - first)).filter (isAt program records)).length

/-- How the data end at a position, if they end there. -/
def endingAt (i : Nat) : Option (Except Fault Flow) :=
  match program[i]? with
  | some .stop => some (.ok .halt)
  | some (.unsupported feature) => some (.error (.unsupported feature))
  | some .drill =>
    (firstDown program i).map fun first => .error (.pathOpenAtDrill (recordings program first i))
  | _ => none

/-- How a file ends: as it does at the first position at which it ends at all. -/
def ending : Except Fault Flow :=
  ((List.range program.length).findSome? (endingAt program)).getD (.ok .proceed)

variable {program} {initial : Units} {n : Nat} {instruction : Instruction}

/-- A position has an ending if and only if the data end there. -/
theorem isSome_endingAt (program : List Instruction) (i : Nat) :
    (endingAt program i).isSome = endsAt program i := by
  unfold endingAt endsAt
  cases program[i]? with
  | none => rfl
  | some instruction => cases instruction <;> simp

/-- An open path has as many points as instructions have recorded. -/
theorem length_openPathAfter (initial : Units) {first : Nat} (h : firstDown program n = some first) :
    (openPathAfter program initial n).length = recordings program first n := by
  simp only [openPathAfter, h, List.length_map, recordings]

/-- The lowering that opens a path records its first point. -/
theorem recordings_pos {first : Nat} (h : firstDown program n = some first) :
    1 ≤ recordings program first n := by
  have hne : openPathAfter program .standard n ≠ [] := by
    rw [Ne, openPathAfter_eq_nil_iff, h]
    exact Option.some_ne_none first
  rw [← length_openPathAfter .standard h]
  exact List.length_pos_iff.2 hne

/-- No position ends the data with any other fault. -/
theorem fault_of_endingAt {i : Nat} {fault : Fault}
    (h : endingAt program i = some (.error fault)) :
    (∃ feature, fault = .unsupported feature) ∨ ∃ count, 1 ≤ count ∧ fault = .pathOpenAtDrill count := by
  unfold endingAt at h
  split at h
  · cases h
  · rename_i feature _
    cases h
    exact .inl ⟨feature, rfl⟩
  · obtain ⟨first, hfirst, hfault⟩ := Option.map_eq_some_iff.1 h
    cases hfault
    exact .inr ⟨_, recordings_pos hfirst, rfl⟩
  · cases h

/-! ## 2. One instruction -/

/-- **The step law.** How the state machine answers an instruction is how the data end at its
position, and it goes on where they do not end. -/
theorem Tracks.outcome {s : State} (hs : Tracks program initial n s) (token : Token)
    (h : program[n]? = some instruction) :
    (s.react token instruction).outcome = (endingAt program n).getD (.ok .proceed) := by
  cases instruction with
  | drill =>
    simp only [endingAt, h, State.react, hs.openPath_isEmpty]
    cases hd : firstDown program n with
    | none => rfl
    | some first =>
      have hsize : s.openPath.size = recordings program first n := by
        rw [← Array.length_toList, hs.openPath, length_openPathAfter initial hd]
      simp [Reaction.finish, hsize]
  | _ => simp [endingAt, h, State.react, Reaction.change, Reaction.finish]

/-! ## 3. The whole course -/

/-- How the rest of the data ends after `n` instructions is decided by the positions from `n` on.
The induction is on the tokens that are left. -/
theorem follow_outcome (tokens : List Token) (hprogram : program = tokens.map Instruction.ofToken)
    (rest : List Token) (n : Nat) (s : State) (hs : Tracks program initial n s)
    (hrest : tokens.drop n = rest) (hn : n ≤ program.length) :
    (s.follow rest).outcome
      = ((List.range' n (program.length - n)).findSome? (endingAt program)).getD (.ok .proceed) := by
  induction rest generalizing n s with
  | nil =>
    have hlen : program.length = n := by
      have := List.drop_eq_nil_iff.1 hrest
      rw [hprogram, List.length_map] at hn ⊢
      omega
    rw [hlen, Nat.sub_self]
    rfl
  | cons token rest ih =>
    obtain ⟨hat, hrest⟩ := getElem?_of_drop hprogram hrest
    have hlt : n < program.length := (List.getElem?_eq_some_iff.1 hat).1
    have hrange : program.length - n = (program.length - (n + 1)) + 1 := by omega
    have hends := isSome_endingAt program n
    have houtcome := hs.outcome token hat
    rw [hrange, List.range'_succ, List.findSome?_cons]
    cases hat' : endingAt program n with
    | some ending =>
      rw [hat', Option.isSome_some] at hends
      rw [State.follow_cons_of_end rest (hs.ending token hat hends.symm).1]
      rw [hat'] at houtcome
      exact houtcome
    | none =>
      rw [hat', Option.isSome_none] at hends
      obtain ⟨hgo, -, hnext⟩ := hs.step token Offsets.none hat hends.symm
      rw [State.follow_cons_of_proceed rest hgo]
      exact ih (n + 1) _ hnext hrest hlt

end Positions

/-- **How a run ends.** On an accepting plotter, such as any writer, a fresh interpreter ends a run
as the first ending position says: with the halt of a stop code, with the fault of a feature that
cannot be drawn, or with the count of the points that are open at a drill code. If there is no such
position it comes to the end of the data. -/
theorem outcome_eq_ending {σ : Type} [Plotter σ] {plotter : σ}
    (accepting : Plotter.Accepting plotter) (units : Units) (offsets : Offsets)
    (tokens : List Token) :
    let run := (Interpreter.new plotter units offsets).runTokens tokens
    let program := tokens.map Instruction.ofToken
    run.outcome = ending program
      ∧ ∀ fault, run.outcome = .error fault →
        (∃ feature, fault = .unsupported feature)
          ∨ ∃ count, 1 ≤ count ∧ fault = .pathOpenAtDrill count := by
  intro run program
  have hsees := Interpreter.runTokens_of_accepting
    (i := Interpreter.new plotter units offsets) accepting tokens
  have houtcome : run.outcome = ending program := by
    have hcourse := follow_outcome tokens rfl tokens 0 _ (tracks_initial program units) rfl
      (Nat.zero_le _)
    rw [Nat.sub_zero, ← List.range_eq_range'] at hcourse
    exact hsees.outcome.trans hcourse
  refine ⟨houtcome, ?_⟩
  intro fault hfault
  rw [houtcome, ending] at hfault
  -- a fault is no end of the data, so it belongs to a position
  cases hfirst : (List.range program.length).findSome? (endingAt program) with
  | none =>
    rw [hfirst] at hfault
    cases hfault
  | some ending =>
    rw [hfirst, Option.getD_some] at hfault
    obtain ⟨i, -, hi⟩ := List.exists_of_findSome?_eq_some hfirst
    rw [hfault] at hi
    exact fault_of_endingAt hi

/-- A path that changes its tool on the way, under a drill code that comes before the stop code. -/
def undrillableTokens : List Token :=
  [.command 'D' (some 1), .command 'A' none, .command 'D' (some 1), .coordinate 100 100,
    .command 'G' (some 70), .command 'B' none, .command 'M' (some 70), .command 'R' none,
    .command 'M' (some 0)]

/-- A writer has taken one path by then, and finds four points open. -/
theorem outcome_of_undrillableTokens :
    Plotter.Accepting Script.Writer.new
      ∧ ((Interpreter.new Script.Writer.new .hundredthsOfInch Offsets.none).runTokens
          undrillableTokens).outcome = .error (.pathOpenAtDrill 4)
      ∧ ((∃ feature, Fault.pathOpenAtDrill 4 = .unsupported feature)
        ∨ ∃ count, 1 ≤ count ∧ Fault.pathOpenAtDrill 4 = .pathOpenAtDrill count) := by
  have haccepting := Script.Writer.accepting Script.Writer.new
  obtain ⟨houtcome, hfault⟩ :=
    outcome_eq_ending haccepting .hundredthsOfInch Offsets.none undrillableTokens
  have hending : ending (undrillableTokens.map ofToken) = .error (.pathOpenAtDrill 4) := rfl
  exact ⟨haccepting, houtcome.trans hending, hfault _ (houtcome.trans hending)⟩

end Photoplot.Timeline
