import Photoplot.Proofs.Interpreter.Session
import Photoplot.Proofs.Interpreter.Timeline
import Photoplot.Proofs.Script.Joining

/-!
How tool, tool position and open path hang together.

A state says in three places whether something is being drawn: by the tool, by whether it is down,
and by the path that is open. Instructions write them one by one, and a raising whose path is
refused writes only the last of them. `State.Coherent` is what they have in common all the same, in
every state of every session; a lowered tool without a path, `State.Stranded`, is left by a refused
path and by nothing else.

**What is proved, and where the work is.**

* Section 1 is about the state machine. Each way of changing a state keeps it coherent, and either
  leaves a tool that is not stranded or does not touch tool and path at all; so one instruction does
  (`Coherent.react`, `stranded_react_iff`).
* Section 2 is about turns of a session, where a path may be refused. A turn that refuses a path
  leaves what `Session` says it leaves, and any other turn does what the state machine does, so the
  two lemmas of section 1 are all that is needed. Whether the tool is stranded at the end of a
  session is then found by induction on the tokens (`stranded_feed_iff`).
* Section 3 turns this into what it means for a script: a path comes with a tool that draws, and a
  visible drawing of such a tool has a colour of the palette in all its rows.

Main statement: `coherent_of_session`. So whatever an interpreter hands over, a writer takes it and
finds a colour for it.
-/

set_option autoImplicit false

namespace Photoplot

/-! ## 1. Coherent states -/

/-- Whether a tool is lowered, raised or brought to a location. -/
def Instruction.handlesTool (instruction : Instruction) : Bool :=
  instruction.raises || instruction.records

/-- A tool code lowers one of the two tools that draw paths. -/
theorem Instruction.tool_of_ofToken {token : Token} {tool : Tool}
    (h : ofToken token = .toolDown tool) : tool = .mark ∨ tool = .cut := by
  cases token with
  | coordinate x y => cases h
  | command code value =>
    simp only [ofToken] at h
    split at h <;> cases h <;> simp

namespace State

/-- **The invariant.** A tool is named exactly while it is down, the drill is never lowered, and
only a lowered tool has a path. -/
structure Coherent (s : State) : Prop where
  isDown_iff : s.isDown = true ↔ s.tool ≠ .idle
  tool_ne_drill : s.tool ≠ .drill
  isDown_of_open : s.openPath ≠ #[] → s.isDown = true

/-- A tool is down and has no path. -/
def Stranded (s : State) : Prop :=
  s.isDown = true ∧ s.openPath = #[]

variable {s : State}

/-- At the beginning no tool is down and no path is open. -/
theorem coherent_initial (units : Units) : (initial units).Coherent := by
  refine ⟨?_, ?_, ?_⟩ <;> simp [initial]

/-- A move records a point only where a tool is down, so a path is open only there. -/
theorem Coherent.moveTo (h : s.Coherent) (location : Point) : (s.moveTo location).Coherent := by
  unfold State.moveTo
  by_cases hdown : s.isDown = true
  · rw [if_pos hdown]
    exact ⟨h.isDown_iff, h.tool_ne_drill, fun _ => hdown⟩
  · rw [if_neg hdown]
    exact ⟨h.isDown_iff, h.tool_ne_drill, h.isDown_of_open⟩

/-- A lowered tool has a point of its path, wherever it was lowered. -/
theorem coherent_lower (s : State) {tool : Tool} (h : tool = .mark ∨ tool = .cut) :
    (s.lower tool).Coherent := by
  refine ⟨?_, ?_, fun _ => rfl⟩
  all_goals obtain rfl | rfl := h <;> simp [lower]

/-- A raised tool has no path. -/
theorem coherent_raise (s : State) : s.clearPath.raise.Coherent := by
  refine ⟨?_, ?_, ?_⟩ <;> simp [raise, clearPath]

/-- The tool stays down under a path that is taken away. -/
theorem Coherent.clearPath (h : s.Coherent) : s.clearPath.Coherent :=
  ⟨h.isDown_iff, h.tool_ne_drill, fun hopen => absurd rfl hopen⟩

/-- **One instruction.** It leads from a coherent state to a coherent one. -/
theorem Coherent.react (h : s.Coherent) (token : Token) :
    (s.react token (Instruction.ofToken token)).after.Coherent := by
  generalize hi : Instruction.ofToken token = instruction
  cases instruction with
  | move x y => exact h.moveTo _
  | goToOrigin => exact h.moveTo _
  | toolUp => exact coherent_raise s
  | toolDown tool => exact coherent_lower s (Instruction.tool_of_ofToken hi)
  | drill =>
    rw [(s.react_drill_keeps token).1]
    exact h
  | setOrigin | setUnits | setFileNumber | setPatternNumber =>
    exact ⟨h.isDown_iff, h.tool_ne_drill, h.isDown_of_open⟩
  | stop | resumeNormalSpeed | unsupported | unrecognized => exact h

/-- A coherent state under whose tool something is drawn has one of the two tools that draw
paths. -/
theorem Coherent.tool_of_isDown (h : s.Coherent) (hdown : s.isDown = true) :
    s.tool = .mark ∨ s.tool = .cut := by
  have hidle := h.isDown_iff.1 hdown
  have hdrill := h.tool_ne_drill
  cases htool : s.tool with
  | idle => exact absurd htool hidle
  | drill => exact absurd htool hdrill
  | mark => exact .inl rfl
  | cut => exact .inr rfl

/-- A move with a lowered tool leaves a path behind. -/
theorem not_stranded_moveTo (s : State) (location : Point) : ¬(s.moveTo location).Stranded := by
  unfold moveTo Stranded
  by_cases hdown : s.isDown = true
  · simp [hdown, record]
  · simp [hdown]

/-- So does a lowering. -/
theorem not_stranded_lower (s : State) (tool : Tool) : ¬(s.lower tool).Stranded := by
  simp [Stranded, lower, record]

/-- A raised tool is not stranded, for it is not down. -/
theorem not_stranded_raise (s : State) : ¬s.clearPath.raise.Stranded := by
  simp [Stranded, raise]

/-- Unless a path is refused, no instruction strands a tool, and every one that handles the tool
helps it out. -/
theorem stranded_react_iff (token : Token) (instruction : Instruction) :
    (s.react token instruction).after.Stranded
      ↔ s.Stranded ∧ instruction.handlesTool = false := by
  cases instruction with
  | move x y => exact iff_of_false (s.not_stranded_moveTo _) fun h => Bool.noConfusion h.2
  | goToOrigin => exact iff_of_false (s.not_stranded_moveTo _) fun h => Bool.noConfusion h.2
  | toolUp => exact iff_of_false s.not_stranded_raise fun h => Bool.noConfusion h.2
  | toolDown tool => exact iff_of_false (s.not_stranded_lower tool) fun h => Bool.noConfusion h.2
  | drill =>
    rw [(s.react_drill_keeps token).1]
    exact (and_iff_left rfl).symm
  | _ => exact (and_iff_left rfl).symm

end State

/-! ## 2. Turns and sessions -/

namespace Turn

variable {σ : Type} [Plotter σ]

/-- **The step law.** A turn keeps the invariant, whatever the plotter says. -/
theorem coherent_after (turn : Turn σ) (h : turn.before.state.Coherent) :
    turn.run.after.state.Coherent := by
  by_cases hrefuses : turn.RefusesPath
  · rw [hrefuses.state.2.2]
    exact h.clearPath
  · rw [state_of_not_refusesPath hrefuses]
    exact h.react turn.token

/-- **The step law of stranded tools.** A tool is stranded by a refused path, and stays so as long
as nothing handles it. -/
theorem stranded_after_iff (turn : Turn σ) (h : turn.before.state.Coherent) :
    turn.run.after.state.Stranded
      ↔ turn.RefusesPath
        ∨ (turn.before.state.Stranded ∧ turn.instruction.handlesTool = false) := by
  by_cases hrefuses : turn.RefusesPath
  · -- there was a path, so by the invariant the tool is down, and now it has none
    obtain ⟨-, hopen, hafter⟩ := hrefuses.state
    rw [hafter]
    constructor
    · intro _
      exact .inl hrefuses
    · intro _
      exact ⟨h.isDown_of_open hopen, rfl⟩
  · rw [state_of_not_refusesPath hrefuses, or_iff_right hrefuses]
    exact State.stranded_react_iff turn.token turn.instruction

/-- What a coherent state hands over as a path has points, and a tool that draws paths. -/
theorem path_of_mem_drawings {turn : Turn σ} (h : turn.before.state.Coherent) {tool : Tool}
    {points : List Point} (hd : Drawing.path tool points ∈ turn.run.drawings) :
    points ≠ [] ∧ (tool = .mark ∨ tool = .cut) := by
  rw [drawings_run] at hd
  obtain ⟨d, hdrawing, hshift⟩ := List.mem_map.1 hd
  cases d with
  | drill center => cases hshift
  | path tool' points' =>
    obtain ⟨-, htool, hpoints, hopen⟩ := State.react_path (Option.mem_toList.1 hdrawing)
    cases hshift
    constructor
    · intro hnil
      rw [List.map_eq_nil_iff, hpoints, Array.toList_eq_nil_iff] at hnil
      exact hopen hnil
    · rw [htool]
      exact h.tool_of_isDown (h.isDown_of_open hopen)

/-- A path has been refused, and the tool has been neither lowered nor raised nor moved since. -/
def RefusedSince (turns : List (Turn σ)) : Prop :=
  ∃ earlier refused later, turns = earlier ++ refused :: later
    ∧ refused.RefusesPath ∧ ∀ turn ∈ later, turn.instruction.handlesTool = false

/-- It is the first turn that refused the path, or one of the others. -/
theorem refusedSince_cons (first : Turn σ) (turns : List (Turn σ)) :
    RefusedSince (first :: turns)
      ↔ (first.RefusesPath ∧ ∀ turn ∈ turns, turn.instruction.handlesTool = false)
        ∨ RefusedSince turns := by
  constructor
  · rintro ⟨earlier, refused, later, hsplit, hrefuses, hlater⟩
    cases earlier with
    | nil =>
      obtain ⟨rfl, rfl⟩ := List.cons_eq_cons.1 hsplit
      exact .inl ⟨hrefuses, hlater⟩
    | cons _ earlier =>
      obtain ⟨-, hsplit⟩ := List.cons_eq_cons.1 hsplit
      exact .inr ⟨earlier, refused, later, hsplit, hrefuses, hlater⟩
  · rintro (⟨hrefuses, hlater⟩ | ⟨earlier, refused, later, rfl, hrefuses, hlater⟩)
    · exact ⟨[], first, turns, rfl, hrefuses, hlater⟩
    · exact ⟨first :: earlier, refused, later, rfl, hrefuses, hlater⟩

end Turn

namespace Interpreter

variable {σ : Type} [Plotter σ] {i : Interpreter σ}

/-- Every turn of a session finds a coherent state, and so does whatever comes behind it. -/
theorem coherent_session (h : i.state.Coherent) (tokens : List Token) :
    (∀ turn ∈ i.session tokens, turn.before.state.Coherent)
      ∧ (i.feed tokens).state.Coherent := by
  induction tokens generalizing i with
  | nil =>
    rw [session]
    exact ⟨List.forall_mem_nil _, h⟩
  | cons token rest ih =>
    have hafter : (i.obey token).after.state.Coherent := Turn.coherent_after ⟨i, token⟩ h
    obtain ⟨hturns, hfeed⟩ := ih hafter
    refine ⟨?_, hfeed⟩
    rw [session]
    intro turn hturn
    obtain rfl | hturn := List.mem_cons.1 hturn
    · exact h
    · exact hturns turn hturn

/-- **The run law of stranded tools.** At the end of a session the tool is stranded if the last turn
that handled it refused its path, or if it has been stranded all along. -/
theorem stranded_feed_iff (h : i.state.Coherent) (tokens : List Token) :
    (i.feed tokens).state.Stranded
      ↔ Turn.RefusedSince (i.session tokens)
        ∨ (i.state.Stranded
          ∧ ∀ turn ∈ i.session tokens, turn.instruction.handlesTool = false) := by
  induction tokens generalizing i with
  | nil =>
    have hnone : ¬Turn.RefusedSince ([] : List (Turn σ)) := by
      rintro ⟨earlier, refused, later, hsplit, -⟩
      simp at hsplit
    simp [feed, session, hnone]
  | cons token rest ih =>
    have hstep := Turn.stranded_after_iff ⟨i, token⟩ h
    have hrest := ih (Turn.coherent_after ⟨i, token⟩ h)
    rw [hstep] at hrest
    rw [session, Turn.refusedSince_cons, List.forall_mem_cons]
    refine hrest.trans ?_
    -- both sides name the same three places of the last turn that handled the tool
    constructor
    · rintro (hrefused | ⟨hfirst | ⟨hstranded, hkeeps⟩, hlater⟩)
      · exact .inl (.inr hrefused)
      · exact .inl (.inl ⟨hfirst, hlater⟩)
      · exact .inr ⟨hstranded, hkeeps, hlater⟩
    · rintro ((⟨hfirst, hlater⟩ | hrefused) | ⟨hstranded, hkeeps, hlater⟩)
      · exact .inr ⟨.inl hfirst, hlater⟩
      · exact .inl hrefused
      · exact .inr ⟨.inr ⟨hstranded, hkeeps⟩, hlater⟩

end Interpreter

/-! ## 3. What a writer makes of it -/

namespace Script

/-- A colour table keeps to the first rows of the palette. -/
def Block.ColorsBelow (bound : Nat) : Block → Prop
  | table t => ∀ index, t.name = .color index → ∀ row ∈ t.rows, ∃ n < bound, row = [.whole n]
  | _ => True

/-- A column of one value is below every bound that the value is below. -/
theorem colorsBelow_ofColumn {name : TableName} {count value bound : Nat} (h : value < bound) :
    (Block.table (.ofColumn name (List.replicate count value))).ColorsBelow bound := by
  intro index _ row hrow
  obtain ⟨n, hn, rfl⟩ := List.mem_map.1 hrow
  rw [List.eq_of_mem_replicate hn]
  exact ⟨value, h, rfl⟩

/-- A table of another kind holds no colours. -/
theorem colorsBelow_of_uncolored {t : Table} (h : ∀ index, t.name ≠ .color index) (bound : Nat) :
    (Block.table t).ColorsBelow bound :=
  fun index hname => absurd hname (h index)

/-- Tools that draw have the first three rows of the palette to themselves: the row behind them is
kept free, and the last one belongs to no tool. -/
theorem colorsBelow_waveTables {d : Drawing} (wave : Nat)
    (h : ∀ tool points, d = .path tool points → tool = .mark ∨ tool = .cut) :
    ∀ b ∈ waveTables wave d, b.ColorsBelow 3 := by
  cases d with
  | path tool points =>
    have hrow : tool.colorRow < 3 := by
      obtain rfl | rfl := h tool points rfl <;> decide
    rw [waveTables, pathTables, List.forall_mem_cons, List.forall_mem_cons, List.forall_mem_singleton]
    refine ⟨colorsBelow_of_uncolored ?_ _, colorsBelow_of_uncolored ?_ _, colorsBelow_ofColumn hrow⟩
    · intro index hname
      cases hname
    · intro index hname
      cases hname
  | drill center =>
    have hrow : Tool.drill.colorRow < 3 := by decide
    rw [waveTables, drillTables, List.forall_mem_cons, List.forall_mem_singleton]
    refine ⟨colorsBelow_of_uncolored ?_ _, colorsBelow_ofColumn hrow⟩
    intro index hname
    cases hname

/-- A writer takes what such a tool draws, and adds no block that colours in other rows. -/
theorem Writer.plot_colorsBelow {d : Drawing} (w : Writer) (hd : d.Visible)
    (h : ∀ tool points, d = .path tool points → tool = .mark ∨ tool = .cut) :
    (w.plot d).refusal = none
      ∧ ∃ added, (w.plot d).after.blocks.toList = w.blocks.toList ++ added
        ∧ ∀ b ∈ added, b.ColorsBelow 3 := by
  obtain ⟨htaken, htook⟩ := plot_of_visible (w := w) hd
  refine ⟨htaken, _, htook.blocks, ?_⟩
  intro b hb
  obtain hb | hb := List.mem_append.1 hb
  · exact colorsBelow_waveTables _ h b hb
  · -- behind the tables of the first wave stand directives, which colour nothing
    split at hb
    · cases hb
    · obtain ⟨directive, rfl⟩ := exists_directive b hb
      trivial

end Script

/-! ## 4. Every state of every session -/

open Script (Writer)

/-- **The tool state.** Whatever tokens are fed to a fresh interpreter, and whatever its plotter
refuses, the tool is named exactly while it is down, the drill is never down, and an open path has a
lowered tool. A lowered tool without a path means that a path was refused, and that the tool has not
been handled since. So every path that is handed over has points and is drawn by mark or cut: no
writer refuses it as empty, and none colours it in a row of the palette that belongs to no drawing
tool. -/
theorem coherent_of_session {σ : Type} [Plotter σ] (plotter : σ) (units : Units)
    (offsets : Offsets) (tokens : List Token) :
    let i := Interpreter.new plotter units offsets
    let s := (i.feed tokens).state
    let calls := Turn.calls (i.session tokens)
    (s.isDown = true ↔ s.tool ≠ .idle)
      ∧ s.tool ≠ .drill
      ∧ (s.openPath ≠ #[] → s.isDown = true)
      ∧ (s.isDown = true ∧ s.openPath = #[] ↔ Turn.RefusedSince (i.session tokens))
      ∧ (∀ tool points, .path tool points ∈ calls → points ≠ [] ∧ (tool = .mark ∨ tool = .cut))
      ∧ ∀ d ∈ calls, ∀ w : Writer, (w.plot d).refusal = none
        ∧ ∃ added, (w.plot d).after.blocks.toList = w.blocks.toList ++ added
          ∧ ∀ b ∈ added, b.ColorsBelow 3 := by
  intro i s calls
  have hinitial : i.state.Coherent := State.coherent_initial units
  obtain ⟨hturns, hs⟩ := Interpreter.coherent_session hinitial tokens
  have hpath : ∀ tool points, .path tool points ∈ calls →
      points ≠ [] ∧ (tool = .mark ∨ tool = .cut) := by
    intro tool points hd
    obtain ⟨turn, hturn, hd⟩ := List.mem_flatMap.1 hd
    exact Turn.path_of_mem_drawings (hturns turn hturn) hd
  refine ⟨hs.isDown_iff, hs.tool_ne_drill, hs.isDown_of_open, ?_, hpath, ?_⟩
  · -- the first state has no tool that could be stranded
    have hup : ¬(i.state.Stranded
        ∧ ∀ turn ∈ i.session tokens, turn.instruction.handlesTool = false) := by
      rintro ⟨⟨hdown, -⟩, -⟩
      cases hdown
    exact (Interpreter.stranded_feed_iff hinitial tokens).trans (or_iff_left hup)
  · intro d hd w
    refine w.plot_colorsBelow ?_ ?_
    · cases d with
      | path tool points => exact (hpath tool points hd).1
      | drill center => trivial
    · rintro tool points rfl
      exact (hpath tool points hd).2

/-- A path, its raising, and an instruction that leaves the tool alone. -/
def strandingTokens : List Token :=
  [.command 'D' (some 1), .coordinate 100 100, .command 'D' (some 2), .command 'G' (some 4)]

/-- If the path is refused, the tool is stranded; any writer would have taken it. -/
theorem stranded_of_strandingTokens :
    let i := Interpreter.new Recorder.new.refuseNext .hundredthsOfInch Offsets.none
    let s := (i.feed strandingTokens).state
    let points := [Point.zero + Point.zero, Units.hundredthsOfInch.pointAt 100 100 + Point.zero]
    (s.isDown = true ∧ s.tool ≠ .idle)
      ∧ (s.isDown = true ∧ s.openPath = #[])
      ∧ Turn.RefusedSince (i.session strandingTokens)
      ∧ .path .mark points ∈ Turn.calls (i.session strandingTokens)
      ∧ points ≠ []
      ∧ ∀ w : Writer, (w.plot (.path .mark points)).refusal = none := by
  intro i s points
  have hdown : s.isDown = true := rfl
  have hstranded : s.isDown = true ∧ s.openPath = #[] := ⟨hdown, rfl⟩
  have hcall : .path .mark points ∈ Turn.calls (i.session strandingTokens) :=
    List.mem_singleton_self _
  obtain ⟨htool, -, -, hrefused, hpath, hwriter⟩ :=
    coherent_of_session Recorder.new.refuseNext .hundredthsOfInch Offsets.none strandingTokens
  exact ⟨⟨hdown, htool.1 hdown⟩, hstranded, hrefused.1 hstranded, hcall, (hpath _ _ hcall).1,
    fun w => (hwriter _ hcall w).1⟩

end Photoplot
