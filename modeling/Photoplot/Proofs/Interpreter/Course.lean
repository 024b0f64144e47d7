import Mathlib.Data.List.Forall2
import Photoplot.Interpreter.Run

/-!
The course of a command file on a plotter that takes everything.

What an interpreter does depends on its plotter only through refusals. Where there are none, the
state machine alone says what happens: `State.follow` runs it without any plotter, and
`Interpreter.run_of_accepting` says that every accepting plotter sees exactly that course, moved by
the offsets. Whatever is proved of a course holds of all of them at once.

**What is proved, and where the work is.**

* How a drawing is moved on its way to a plotter is spelled out as a relation, `Drawing.MovedBy`. It
  is what theorems about calls are stated with; that the interpreter computes it is a lemma of two
  cases.
* A plotter is accepting when it refuses nothing visible, whatever it was given before
  (`Plotter.Accepting`). The recorder is, if it is told to refuse nothing, and so is the writer of a
  script, which refuses empty paths and nothing else. So it matters that an interpreter never hands
  an empty path over (`State.react_visible`).
* The run law is an induction on the readings, in which four things go along with the state: the
  offsets, the calls, the plotter after these calls, and the outcome (`Interpreter.Sees`). The
  plotter has to be carried because it is accepting only as the plotter that it has become.
* What holds of the drawing of every instruction holds of all drawings of a course
  (`State.forall_follow`). This is the induction that later modules use, so that none of them has
  another one on the tokens of a course.
-/

set_option autoImplicit false

namespace Photoplot

/-! ## 1. Drawings on their way to a plotter -/

/-- **Moved drawings.** How a drawing of the command file reaches a plotter: with the same tool, and
with the offset of that tool added once to each of its points, in the same order; a drill mark with
the offset of the drill. The relation is spelled out, so that it can be held against
`Drawing.shift`, which is what the interpreter computes. -/
inductive Drawing.MovedBy (offsets : Offsets) : Drawing → Drawing → Prop
  | path (tool : Tool) (points : List Point) :
      MovedBy offsets (.path tool points) (.path tool (points.map (· + offsets.of tool)))
  | drill (center : Point) : MovedBy offsets (.drill center) (.drill (center + offsets.drill))

/-- The interpreter moves a drawing as it should. -/
theorem Drawing.movedBy_shift (o : Offsets) (d : Drawing) : MovedBy o d (d.shift o) := by
  cases d with
  | path tool points => exact .path tool points
  | drill center => exact .drill center

/-- Drawings that are shifted one by one are moved one by one, and none of them is left out. -/
theorem Drawing.forall₂_movedBy (o : Offsets) (drawings : List Drawing) :
    List.Forall₂ (MovedBy o) drawings (drawings.map (Drawing.shift o)) :=
  List.forall₂_map_right_iff.2 (List.forall₂_same.2 fun d _ => d.movedBy_shift o)

/-! ## 2. Plotters that accept -/

/-- Whether there is anything to draw: a drill mark, or a path with at least one point. -/
def Drawing.Visible : Drawing → Prop
  | .path _ points => points ≠ []
  | .drill _ => True

/-- Moving a drawing makes nothing of it appear or vanish. -/
theorem Drawing.visible_shift (o : Offsets) (d : Drawing) : (d.shift o).Visible ↔ d.Visible := by
  cases d <;> simp [shift, Visible]

namespace Plotter

variable {σ : Type} [Plotter σ]

/-- The plotter after some drawings have been handed over. -/
def afterAll (p : σ) (drawings : List Drawing) : σ :=
  drawings.foldl (fun p d => (plot p d).after) p

/-- Drawings that are handed over in two parts are handed over one after the other. -/
theorem afterAll_append (p : σ) (first second : List Drawing) :
    afterAll p (first ++ second) = afterAll (afterAll p first) second :=
  List.foldl_append

/-- **Accepting plotters.** Whatever has been handed over before, nothing visible is refused. -/
def Accepting (p : σ) : Prop :=
  ∀ (before : List Drawing) (d : Drawing), d.Visible → (plot (afterAll p before) d).refusal = none

/-- In particular an accepting plotter takes the next visible drawing. -/
theorem Accepting.refusal {p : σ} (h : Accepting p) {d : Drawing} (hd : d.Visible) :
    (plot p d).refusal = none :=
  h [] d hd

/-- An accepting plotter is one still when it has been given something. -/
theorem Accepting.afterAll {p : σ} (h : Accepting p) (drawings : List Drawing) :
    Accepting (afterAll p drawings) := by
  intro before d hd
  rw [← afterAll_append]
  exact h (drawings ++ before) d hd

end Plotter

/-- A recorder that refuses no call is accepting. -/
theorem Recorder.accepting {r : Recorder} (h : ∀ call, r.refuses call = false) :
    Plotter.Accepting r := by
  -- the pattern of refusals is the one part of a recorder that no drawing changes
  have hkept : ∀ before (r : Recorder), (∀ call, r.refuses call = false) →
      ∀ call, (Plotter.afterAll r before).refuses call = false := by
    intro before
    induction before with
    | nil => exact fun _ h => h
    | cons d before ih =>
      intro r h
      refine ih _ ?_
      intro call
      simp [Plotter.plot, Recorder.plot, h]
  intro before d _
  simp [Plotter.plot, Recorder.plot, hkept before r h]

/-! ## 3. The course of the state machine -/

/-- What the state machine makes of some tokens. The drawings are in the coordinates of the command
file. -/
structure Course where
  after : State
  drawings : List Drawing
  outcome : Except Fault Flow

/-- Runs the state machine on its own: every drawing counts as taken. -/
def State.follow (s : State) : List Token → Course
  | [] => ⟨s, [], .ok .proceed⟩
  | token :: rest =>
    let r := s.react token (Instruction.ofToken token)
    match r.outcome with
    | .ok .proceed =>
      let next := r.after.follow rest
      ⟨next.after, r.drawing.toList ++ next.drawings, next.outcome⟩
    | _ => ⟨r.after, r.drawing.toList, r.outcome⟩

/-- A token at which the course goes on: its drawing comes first, and then those of the rest. -/
theorem State.follow_cons_of_proceed {s : State} {token : Token} (rest : List Token)
    (h : (s.react token (Instruction.ofToken token)).outcome = .ok .proceed) :
    s.follow (token :: rest) =
      let r := s.react token (Instruction.ofToken token)
      ⟨(r.after.follow rest).after, r.drawing.toList ++ (r.after.follow rest).drawings,
        (r.after.follow rest).outcome⟩ := by
  simp only [follow, h]

/-- A token at which the course ends: nothing behind it is looked at. -/
theorem State.follow_cons_of_end {s : State} {token : Token} (rest : List Token)
    (h : (s.react token (Instruction.ofToken token)).outcome ≠ .ok .proceed) :
    s.follow (token :: rest) =
      let r := s.react token (Instruction.ofToken token)
      ⟨r.after, r.drawing.toList, r.outcome⟩ := by
  rw [follow]
  split
  · contradiction
  · rfl

/-- **Drawings of a course.** What holds of the drawing of every instruction, as long as something
holds of the state, holds of all drawings. -/
theorem State.forall_follow {P : State → Prop} {Q : Drawing → Prop} {tokens : List Token}
    (hstep : ∀ (s : State), ∀ token ∈ tokens, P s →
      let r := s.react token (Instruction.ofToken token)
      P r.after ∧ ∀ d, r.drawing = some d → Q d)
    {s : State} (hs : P s) : ∀ d ∈ (s.follow tokens).drawings, Q d := by
  induction tokens generalizing s with
  | nil => nofun
  | cons token rest ih =>
    obtain ⟨hafter, hdrawing⟩ := hstep s token List.mem_cons_self hs
    intro d hd
    by_cases hflow : (s.react token (Instruction.ofToken token)).outcome = .ok .proceed
    · rw [follow_cons_of_proceed rest hflow] at hd
      obtain hd | hd := List.mem_append.1 hd
      · exact hdrawing d (Option.mem_toList.1 hd)
      · have hrest := fun s later hlater => hstep s later (List.mem_cons_of_mem token hlater)
        exact ih hrest hafter d hd
    · rw [follow_cons_of_end rest hflow] at hd
      exact hdrawing d (Option.mem_toList.1 hd)

/-- An instruction asks only for visible drawings: the open path is handed over when it has a
point. -/
theorem State.react_visible {s : State} {token : Token} {instruction : Instruction} {d : Drawing}
    (h : (s.react token instruction).drawing = some d) : d.Visible := by
  cases instruction with
  | toolUp =>
    simp only [react, openDrawing] at h
    split at h
    · cases h
    · rename_i hne
      obtain rfl := Option.some.inj h
      simpa [Drawing.Visible] using hne
  | drill =>
    simp only [react] at h
    split at h
    · obtain rfl := Option.some.inj h
      trivial
    · simp [Reaction.finish] at h
  | _ => simp [react, Reaction.change, Reaction.finish] at h

/-- A course has no drawing without a point. -/
theorem State.follow_visible (s : State) (tokens : List Token) :
    ∀ d ∈ (s.follow tokens).drawings, d.Visible :=
  forall_follow (P := fun _ => True) (fun _ _ _ _ => ⟨trivial, fun _ hd => react_visible hd⟩) trivial

/-! ## 4. Accepting plotters see the course -/

/-- A run that does not proceed is the last one, however it ended. -/
theorem Run.andThen_of_end {σ : Type} {r : Run σ} (h : r.outcome ≠ .ok .proceed)
    (more : Interpreter σ → Run σ) : r.andThen more = r := by
  rw [andThen]
  split
  · contradiction
  · rfl

namespace Interpreter

variable {σ : Type} [Plotter σ]

/-- **One token.** On an accepting plotter a reaction is carried out as it stands. -/
theorem carryOut_of_accepting {i : Interpreter σ} (hp : Plotter.Accepting i.plotter) {r : Reaction}
    (hr : ∀ d, r.drawing = some d → d.Visible) :
    (i.carryOut r).after.state = r.after
      ∧ (i.carryOut r).after.offsets = i.offsets
      ∧ (i.carryOut r).drawings = r.drawing.toList.map (Drawing.shift i.offsets)
      ∧ (i.carryOut r).after.plotter = Plotter.afterAll i.plotter (i.carryOut r).drawings
      ∧ (i.carryOut r).outcome = r.outcome := by
  cases hd : r.drawing with
  | none => simp [carryOut, hd, Plotter.afterAll]
  | some d =>
    have htaken := hp.refusal ((Drawing.visible_shift i.offsets d).2 (hr d hd))
    simp [carryOut, hd, htaken, Plotter.afterAll]

/-- What an interpreter has come to, as the course `c` says it: its state, its outcome, and the
drawings of the course, each moved by its offset and handed over in order. -/
structure Sees (i : Interpreter σ) (run : Run σ) (c : Course) : Prop where
  state : run.after.state = c.after
  offsets : run.after.offsets = i.offsets
  drawings : run.drawings = c.drawings.map (Drawing.shift i.offsets)
  plotter : run.after.plotter = Plotter.afterAll i.plotter run.drawings
  outcome : run.outcome = c.outcome

/-- The calls of a run are the drawings of the course, in order and each of them moved. -/
theorem Sees.movedBy {i : Interpreter σ} {run : Run σ} {c : Course} (h : i.Sees run c) :
    List.Forall₂ (Drawing.MovedBy i.offsets) c.drawings run.drawings := by
  rw [h.drawings]
  exact Drawing.forall₂_movedBy i.offsets _

/-- **The run law.** Every accepting plotter sees the course of the tokens; what is out of range
leaves no trace in it. -/
theorem run_of_accepting {i : Interpreter σ} (hp : Plotter.Accepting i.plotter)
    (readings : List Reading) :
    i.Sees (i.run readings) (i.state.follow (readings.filterMap Reading.token?)) := by
  induction readings generalizing i with
  | nil => exact ⟨rfl, rfl, rfl, rfl, rfl⟩
  | cons reading rest ih =>
    rw [run_cons]
    cases reading with
    | outOfRange m =>
      -- it is noted and passed over, and the course does not know of it
      rw [Run.andThen_of_proceed rfl]
      obtain ⟨hs, ho, hd, hq, hout⟩ := ih hp
      exact ⟨hs, ho, hd, hq, hout⟩
    | token t =>
      have htokens : (Reading.token t :: rest).filterMap Reading.token?
          = t :: rest.filterMap Reading.token? := rfl
      have htake : i.take (.token t) = i.carryOut (i.state.react t (Instruction.ofToken t)) := rfl
      obtain ⟨hs, ho, hd, hq, hout⟩ := carryOut_of_accepting hp
        (r := i.state.react t (Instruction.ofToken t)) fun d hd => State.react_visible hd
      rw [htokens, htake]
      by_cases hflow : (i.state.react t (Instruction.ofToken t)).outcome = .ok .proceed
      -- the plotter has taken the drawing, so it is accepting still
      · rw [Run.andThen_of_proceed (hout.trans hflow), State.follow_cons_of_proceed _ hflow]
        have hp' := hp.afterAll (i.carryOut (i.state.react t (Instruction.ofToken t))).drawings
        rw [← hq] at hp'
        obtain ⟨hs', ho', hd', hq', hout'⟩ := ih hp'
        rw [hs] at hs' hd' hout'
        refine ⟨hs', ho'.trans ho, ?_, ?_, hout'⟩
        · show _ ++ _ = _
          rw [hd', ho, hd, List.map_append]
        · show _ = Plotter.afterAll i.plotter (_ ++ _)
          rw [Plotter.afterAll_append, ← hq, hq']
      · rw [State.follow_cons_of_end _ hflow, Run.andThen_of_end (by rwa [hout])]
        exact ⟨hs, ho, hd, hq, hout⟩

/-- A run on tokens passes nothing over, so its course is that of all the tokens. -/
theorem runTokens_of_accepting {i : Interpreter σ} (hp : Plotter.Accepting i.plotter)
    (tokens : List Token) : i.Sees (i.runTokens tokens) (i.state.follow tokens) := by
  have hsees := run_of_accepting hp (tokens.map Reading.token)
  have htokens : (tokens.map Reading.token).filterMap Reading.token? = tokens := by
    rw [List.filterMap_map]
    exact List.filterMap_some
  rw [htokens] at hsees
  exact hsees

end Interpreter

end Photoplot
