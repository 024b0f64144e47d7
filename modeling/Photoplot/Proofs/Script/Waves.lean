import Photoplot.Proofs.Interpreter.Coordinates
import Photoplot.Script.Writer

/-!
What a sequence of calls leaves in a script.

A writer numbers the drawings that it takes, and what it writes for a drawing depends on the number
alone. So the blocks after any calls are determined by the list of the drawings taken: `body` puts
them together without a writer, whichever calls are refused in between.

**What is proved, and where the work is.**

* One drawing is refused without a trace (`plot_of_not_visible`), or becomes the next wave
  (`plot_of_visible`), with what that means for every part of the writer in a structure, `Took`.
  This is the only place where the writer is taken apart.
* The directives of the first wave are guarded by a flag of the writer, while `body` writes them for
  the wave with the number one. The two agree as long as the flag is up if and only if there is a
  wave; that is the invariant `Latched`.
* What any calls leave is a structure of the same kind, `Wrote`, which can be composed
  (`Wrote.trans`) and holds of one call (`perform_wrote`); so it holds of all calls
  (`performAll_wrote`). Conversions are composed in the same way later, and it is always this
  structure that is handed on.
-/

set_option autoImplicit false

namespace Photoplot.Script

/-! ## 1. Calls -/

/-- What can be asked of a writer. -/
inductive Call where
  | draw (d : Drawing)
  | beginGraph

instance (d : Drawing) : Decidable d.Visible :=
  match d with
  | .path _ [] => isFalse fun h => h rfl
  | .path _ (_ :: _) => isTrue (List.cons_ne_nil _ _)
  | .drill _ => isTrue trivial

/-- The drawing of a call, if it asks for something visible. -/
def Call.visible? : Call → Option Drawing
  | draw d => if d.Visible then some d else none
  | beginGraph => none

/-- What a call asks to be drawn is visible when it is taken. -/
theorem Call.visible_of_visible? {call : Call} {d : Drawing} (h : call.visible? = some d) :
    d.Visible := by
  cases call with
  | beginGraph => cases h
  | draw d' =>
    rw [visible?] at h
    split at h
    · cases h
      assumption
    · cases h

namespace Writer

/-- The writer after a call. -/
def perform (w : Writer) : Call → Writer
  | .draw d => (w.plot d).after
  | .beginGraph => w.beginGraph

/-- The writer after some calls. -/
def performAll (w : Writer) (calls : List Call) : Writer :=
  calls.foldl perform w

/-- Whether a call draws something that the writer takes. -/
def takes (w : Writer) : Call → Option Drawing
  | .draw d => if (w.plot d).refusal.isNone then some d else none
  | .beginGraph => none

/-- The drawings that are taken in the course of some calls. -/
def taken (w : Writer) : List Call → List Drawing
  | [] => []
  | call :: rest => (w.takes call).toList ++ (w.perform call).taken rest

end Writer

/-! ## 2. The blocks of the waves -/

/-- The tables of the wave that a drawing becomes. -/
def waveTables (wave : Nat) : Drawing → List Block
  | .path tool points => pathTables wave tool points
  | .drill center => drillTables wave center

/-- The directives that are written once, when a drawing becomes the first wave. -/
def openingDirectives (wave : Nat) : Drawing → List Block
  | .path _ points =>
    match points.head?, points.getLast? with
    | some start, some stop => attachment wave true ++ firstPathNote start stop
    | _, _ => []
  | .drill _ => attachment wave false

/-- The blocks of the wave with a number. -/
def waveBlocks (wave : Nat) (d : Drawing) : List Block :=
  waveTables wave d ++ if wave = 1 then openingDirectives wave d else []

/-- The blocks of some drawings, behind so many earlier waves. -/
def body (before : Nat) : List Drawing → List Block
  | [] => []
  | d :: rest => waveBlocks (before + 1) d ++ body (before + 1) rest

/-- The blocks of some drawings and some more: the numbers go on. -/
theorem body_append (before : Nat) (first second : List Drawing) :
    body before (first ++ second) = body before first ++ body (before + first.length) second := by
  induction first generalizing before with
  | nil => rfl
  | cons d first ih =>
    rw [List.cons_append, body, body, ih, List.append_assoc, List.length_cons, Nat.add_right_comm,
      Nat.add_assoc]

/-- The points of the paths, which are what the bounding box counts. -/
def inkedPoints (drawings : List Drawing) : List Point :=
  drawings.flatMap fun
    | .path _ points => points
    | .drill _ => []

/-- What holds of all points holds of those of the paths. -/
theorem forall_mem_inkedPoints {P : Point → Prop} {drawings : List Drawing}
    (h : ∀ d ∈ drawings, d.All P) : ∀ p ∈ inkedPoints drawings, P p := by
  intro p hp
  obtain ⟨d, hd, hpd⟩ := List.mem_flatMap.1 hp
  cases d with
  | path tool points => exact h _ hd p hpd
  | drill center => cases hpd

theorem inkedPoints_append (first second : List Drawing) :
    inkedPoints (first ++ second) = inkedPoints first ++ inkedPoints second :=
  List.flatMap_append

namespace Writer

/-! ## 3. One call -/

/-- **The latch.** The directives of the first wave have been written if and only if there is a
wave. -/
def Latched (w : Writer) : Prop :=
  w.graphed = decide (0 < w.waves)

theorem latched_new : new.Latched := rfl

/-- **Refusals.** A path without points leaves the writer as it was. -/
theorem plot_of_not_visible {w : Writer} {d : Drawing} (h : ¬d.Visible) :
    w.plot d = ⟨w, [], some .emptyPath⟩ := by
  cases d with
  | path tool points =>
    obtain rfl : points = [] := Classical.not_not.1 h
    rfl
  | drill center => exact absurd trivial h

/-- What a writer looks like once it has taken a drawing. -/
structure Took (w : Writer) (d : Drawing) (after : Writer) : Prop where
  blocks : after.blocks.toList = w.blocks.toList ++ (waveTables (w.waves + 1) d
    ++ if w.graphed then [] else openingDirectives (w.waves + 1) d)
  waves : after.waves = w.waves + 1
  graphed : after.graphed = true
  bounds : after.bounds = w.bounds.growAll (inkedPoints [d])
  graphStarts : after.graphStarts = w.graphStarts

/-- **One drawing.** Everything visible is taken, and becomes the next wave. -/
theorem plot_of_visible {w : Writer} {d : Drawing} (h : d.Visible) :
    (w.plot d).refusal = none ∧ w.Took d (w.plot d).after := by
  cases d with
  | path tool points =>
    have hstart : points.head? = some (points.head h) := List.head?_eq_some_head h
    have hstop : points.getLast? = some (points.getLast h) := List.getLast?_eq_some_getLast h
    have hplot : w.plot (.path tool points) = ⟨w.addPath tool points (points.head h) (points.getLast h),
        [.pathPlotted (w.waves + 1) tool points.length], none⟩ := by
      simp only [plot, hstart, hstop]
    rw [hplot]
    refine ⟨rfl, ?_, rfl, rfl, ?_, rfl⟩
    · simp [addPath, addWave, waveTables, openingDirectives, hstart, hstop]
    · simp [addPath, inkedPoints]
  | drill center =>
    refine ⟨rfl, ?_, rfl, rfl, rfl, rfl⟩
    simp [plot, addDrill, addWave, waveTables, openingDirectives]

/-- Writers accept: an interpreter never sees one of them refuse. -/
theorem accepting (w : Writer) : Plotter.Accepting w :=
  fun _ _ hd => (plot_of_visible hd).1

/-! ## 4. Any calls -/

/-- What a writer looks like once it has taken some drawings. -/
structure Wrote (w : Writer) (drawings : List Drawing) (after : Writer) : Prop where
  blocks : after.blocks.toList = w.blocks.toList ++ body w.waves drawings
  waves : after.waves = w.waves + drawings.length
  latched : after.Latched
  bounds : after.bounds = w.bounds.growAll (inkedPoints drawings)

/-- What was written in two steps was written. -/
theorem Wrote.trans {w middle last : Writer} {first second : List Drawing}
    (h : w.Wrote first middle) (h' : middle.Wrote second last) : w.Wrote (first ++ second) last where
  blocks := by
    rw [h'.blocks, h.blocks, h.waves, body_append, List.append_assoc]
  waves := by
    rw [h'.waves, h.waves, List.length_append, Nat.add_assoc]
  latched := h'.latched
  bounds := by
    rw [h'.bounds, h.bounds, inkedPoints_append, Bounds.growAll_append]

theorem Wrote.refl {w : Writer} (hl : w.Latched) : w.Wrote [] w :=
  ⟨(List.append_nil _).symm, rfl, hl, rfl⟩

/-- The first waves of a script stand right behind the preamble. -/
theorem Wrote.blocks_of_new {w : Writer} {drawings : List Drawing} (h : new.Wrote drawings w) :
    w.blocks.toList = preamble ++ body 0 drawings :=
  h.blocks

theorem Wrote.waves_of_new {w : Writer} {drawings : List Drawing} (h : new.Wrote drawings w) :
    w.waves = drawings.length :=
  h.waves.trans (Nat.zero_add _)

theorem Wrote.bounds_of_new {w : Writer} {drawings : List Drawing} (h : new.Wrote drawings w) :
    w.bounds = Bounds.empty.growAll (inkedPoints drawings) :=
  h.bounds

/-- **The step law.** A call writes the wave of what it shows, and nothing if it shows nothing. -/
theorem perform_wrote {w : Writer} (hl : w.Latched) (call : Call) :
    w.Wrote call.visible?.toList (w.perform call) := by
  cases call with
  | beginGraph => exact ⟨(List.append_nil _).symm, rfl, hl, rfl⟩
  | draw d =>
    by_cases hd : d.Visible
    · have htook := (plot_of_visible (w := w) hd).2
      have hvisible : (Call.draw d).visible?.toList = [d] := by simp [Call.visible?, hd]
      -- the latch is set if and only if this is not the first wave
      have hfirst : (w.graphed = true) = ¬w.waves + 1 = 1 := by
        rw [hl]
        simp
        omega
      rw [hvisible]
      refine ⟨?_, htook.waves, ?_, htook.bounds⟩
      · rw [perform, htook.blocks, body, body, waveBlocks]
        simp only [hfirst, ite_not, List.append_nil]
      · show (w.plot d).after.graphed = decide (0 < (w.plot d).after.waves)
        rw [htook.graphed, htook.waves]
        simp
    · have hvisible : (Call.draw d).visible?.toList = [] := by simp [Call.visible?, hd]
      rw [hvisible, perform, plot_of_not_visible hd]
      exact Wrote.refl hl

/-- **The run law.** Whatever is asked of a writer, it writes the waves of what is shown, one after
the other. -/
theorem performAll_wrote {w : Writer} (hl : w.Latched) (calls : List Call) :
    w.Wrote (calls.filterMap Call.visible?) (w.performAll calls) := by
  induction calls generalizing w with
  | nil => exact Wrote.refl hl
  | cons call rest ih =>
    -- the latch is what the step law needs, and it holds again behind the step
    have hstep := perform_wrote hl call
    have hsplit : (call :: rest).filterMap Call.visible?
        = call.visible?.toList ++ rest.filterMap Call.visible? := by
      cases h : call.visible? <;> simp [h]
    rw [hsplit]
    exact hstep.trans (ih hstep.latched)

/-- What is taken does not depend on the writer: it is all that is visible. -/
theorem taken_eq (w : Writer) (calls : List Call) :
    w.taken calls = calls.filterMap Call.visible? := by
  induction calls generalizing w with
  | nil => rfl
  | cons call rest ih =>
    have htakes : w.takes call = call.visible? := by
      cases call with
      | beginGraph => rfl
      | draw d =>
        by_cases hd : d.Visible
        · simp [takes, Call.visible?, hd, (plot_of_visible (w := w) hd).1]
        · simp [takes, Call.visible?, hd, plot_of_not_visible hd]
    rw [taken, ih, htakes]
    cases h : call.visible? <;> simp [h]

/-- Nothing invisible is taken. -/
theorem visible_of_mem_taken {w : Writer} {calls : List Call} :
    ∀ d ∈ w.taken calls, d.Visible := by
  intro d hd
  rw [taken_eq] at hd
  obtain ⟨call, -, hcall⟩ := List.mem_filterMap.1 hd
  exact Call.visible_of_visible? hcall

/-- **Any calls.** A new writer has written the drawings that it took. -/
theorem performAll_new_wrote (calls : List Call) :
    new.Wrote (new.taken calls) (new.performAll calls) := by
  rw [taken_eq]
  exact performAll_wrote latched_new calls

end Writer

end Photoplot.Script
