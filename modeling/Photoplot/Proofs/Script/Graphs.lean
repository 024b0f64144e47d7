import Photoplot.Proofs.Script.Joining
import Photoplot.Proofs.Script.Trailer

/-!
The graphs of a script and their first waves.

A writer keeps a list of numbers, one for each graph, and the only thing that is ever done to it is
that a boundary puts the number of the next wave behind the others. So the list is in order, and
what stands at a place is decided by the calls before that boundary.

**What is proved, and where the work is.**

* Which numbers are waves of a script is read off its blocks: they are those from one to the count
  of the drawings (`Writer.Wrote.declares_iff`). A number in the list of the graphs need not be one
  of them, because a boundary is not taken back when nothing is drawn behind it.
* A call changes the list only if it is a boundary, and never takes anything off, so the list after
  the first calls is a beginning of the list after all calls (`Writer.graphStarts_prefix`). What a
  boundary adds stands where the count of the boundaries before it says
  (`Writer.getElem?_graphStarts`).
* That the list is in order is an invariant (`Writer.Bounded`): no number is beyond the next wave,
  so the next boundary cannot be smaller than those before it.

Main statement: `Writer.divides`, all of this together, and the line of the trailer in which a
finished script says it.
-/

set_option autoImplicit false

namespace Photoplot.Script

/-! ## 1. The waves that a script declares -/

/-- Whether there is a table of points with the name of a wave among some blocks. -/
def Declared (wave : Nat) (blocks : List Block) : Prop :=
  ∃ t, Block.table t ∈ blocks ∧ t.name = .wave wave

theorem declared_append (wave : Nat) (first second : List Block) :
    Declared wave (first ++ second) ↔ Declared wave first ∨ Declared wave second := by
  unfold Declared
  simp only [List.mem_append, or_and_right, exists_or]

/-- The preamble declares no wave. -/
theorem not_declared_preamble (wave : Nat) : ¬Declared wave preamble := by
  rintro ⟨t, ht, hname⟩
  simp only [preamble, List.mem_cons, List.not_mem_nil, or_false, reduceCtorEq, false_or,
    Block.table.injEq] at ht
  rcases ht with rfl | rfl <;> cases hname

/-- The blocks of a wave declare this wave and no other. -/
theorem declared_waveBlocks (wave number : Nat) (d : Drawing) :
    Declared wave (waveBlocks number d) ↔ wave = number := by
  rw [waveBlocks, declared_append]
  -- the directives behind the first wave are no tables
  have hopening : ¬Declared wave (if number = 1 then openingDirectives number d else []) := by
    rintro ⟨t, ht, -⟩
    split at ht
    · obtain ⟨directive, hdirective⟩ := exists_directive _ ht
      cases hdirective
    · cases ht
  have htables : Declared wave (waveTables number d) ↔ wave = number := by
    cases d <;> simp [Declared, waveTables, pathTables, drillTables, Table.ofPoints, Table.ofColumn,
      eq_comm]
  rw [htables, or_iff_left hopening]

/-- The blocks of some drawings declare as many waves as there are drawings, counted from where they
begin. -/
theorem declared_body (wave before : Nat) (drawings : List Drawing) :
    Declared wave (body before drawings) ↔ before < wave ∧ wave ≤ before + drawings.length := by
  induction drawings generalizing before with
  | nil =>
    simp only [body, Declared, List.not_mem_nil, false_and, exists_false, List.length_nil, false_iff]
    omega
  | cons d rest ih =>
    rw [body, declared_append, declared_waveBlocks, ih, List.length_cons]
    omega

/-! ## 2. Calls that begin a graph -/

/-- Whether a call begins a graph. -/
def Call.beginsGraph : Call → Bool
  | draw _ => false
  | beginGraph => true

namespace Writer

/-- Whether a script has the table of a wave. -/
def Declares (w : Writer) (wave : Nat) : Prop :=
  Declared wave w.blocks.toList

/-- **Declared waves.** The waves that a script declares are those up to their count. -/
theorem Wrote.declares_iff {w : Writer} {drawings : List Drawing} (h : new.Wrote drawings w)
    (wave : Nat) : w.Declares wave ↔ 1 ≤ wave ∧ wave ≤ w.waves := by
  rw [Declares, h.blocks_of_new, declared_append, declared_body, h.waves_of_new,
    or_iff_right (not_declared_preamble wave)]
  omega

theorem performAll_append (w : Writer) (first second : List Call) :
    w.performAll (first ++ second) = (w.performAll first).performAll second :=
  List.foldl_append

/-- Drawing something is no boundary, whether it is taken or refused. -/
theorem graphStarts_draw (w : Writer) (d : Drawing) :
    (w.perform (.draw d)).graphStarts = w.graphStarts := by
  by_cases hd : d.Visible
  · exact (plot_of_visible hd).2.graphStarts
  · rw [perform, plot_of_not_visible hd]

/-- A boundary puts the number of the next wave behind the others. -/
theorem graphStarts_beginGraph (w : Writer) :
    (w.perform .beginGraph).graphStarts = w.graphStarts ++ [w.waves + 1] := rfl

/-- A call adds a wave or none. -/
theorem waves_le_perform (w : Writer) (call : Call) : w.waves ≤ (w.perform call).waves := by
  cases call with
  | beginGraph => exact Nat.le_refl _
  | draw d =>
    by_cases hd : d.Visible
    · have htook := (plot_of_visible (w := w) hd).2
      rw [perform, htook.waves]
      exact Nat.le_succ _
    · rw [perform, plot_of_not_visible hd]

/-- So the count of the waves never falls. -/
theorem waves_le_performAll (w : Writer) (calls : List Call) :
    w.waves ≤ (w.performAll calls).waves := by
  induction calls generalizing w with
  | nil => exact Nat.le_refl _
  | cons call rest ih => exact (waves_le_perform w call).trans (ih (w.perform call))

/-- Boundaries are only ever added behind the others. -/
theorem graphStarts_prefix (w : Writer) (calls : List Call) :
    w.graphStarts <+: (w.performAll calls).graphStarts := by
  induction calls generalizing w with
  | nil => exact List.prefix_rfl
  | cons call rest ih =>
    have hstep : w.graphStarts <+: (w.perform call).graphStarts := by
      cases call with
      | beginGraph => exact List.prefix_append _ _
      | draw d => rw [graphStarts_draw]
    exact hstep.trans (ih (w.perform call))

/-- There are as many graphs as boundaries, besides those that were there. -/
theorem length_graphStarts (w : Writer) (calls : List Call) :
    (w.performAll calls).graphStarts.length
      = w.graphStarts.length + calls.countP Call.beginsGraph := by
  induction calls generalizing w with
  | nil => rfl
  | cons call rest ih =>
    have hrest : (w.performAll (call :: rest)).graphStarts.length
        = (w.perform call).graphStarts.length + rest.countP Call.beginsGraph := ih (w.perform call)
    rw [hrest]
    cases call with
    | beginGraph =>
      rw [graphStarts_beginGraph, List.length_append, List.countP_cons_of_pos rfl,
        List.length_singleton]
      omega
    | draw d => rw [graphStarts_draw, List.countP_cons_of_neg Bool.false_ne_true]

/-! ## 3. The order of the boundaries -/

/-- Boundaries in order, none of them beyond the next wave. -/
structure Bounded (w : Writer) : Prop where
  sorted : w.graphStarts.Pairwise (· ≤ ·)
  below : ∀ start ∈ w.graphStarts, start ≤ w.waves + 1

theorem bounded_new : new.Bounded where
  sorted := List.pairwise_singleton _ 1
  below := by decide

/-- **The step law.** A boundary is the number of the next wave, and a drawing only moves that
number on. -/
theorem Bounded.perform {w : Writer} (h : w.Bounded) (call : Call) : (w.perform call).Bounded := by
  cases call with
  | draw d =>
    have hmore := waves_le_perform w (.draw d)
    constructor
    · rw [graphStarts_draw]
      exact h.sorted
    · intro start hstart
      rw [graphStarts_draw] at hstart
      have := h.below start hstart
      omega
  | beginGraph =>
    constructor
    · rw [graphStarts_beginGraph]
      apply List.pairwise_append.2
      refine ⟨h.sorted, List.pairwise_singleton _ _, ?_⟩
      intro start hstart next hnext
      rw [List.mem_singleton.1 hnext]
      exact h.below start hstart
    · intro start hstart
      rw [graphStarts_beginGraph] at hstart
      obtain hearlier | hlast := List.mem_append.1 hstart
      · exact h.below start hearlier
      · exact (List.mem_singleton.1 hlast).le

/-- Any calls keep the boundaries in order. -/
theorem Bounded.performAll {w : Writer} (h : w.Bounded) (calls : List Call) :
    (w.performAll calls).Bounded := by
  induction calls generalizing w with
  | nil => exact h
  | cons call rest ih => exact ih (h.perform call)

/-! ## 4. The boundaries of a finished script -/

/-- What a finished script says about its graphs: a row for the first graph and one for each that
was begun, in order, each the number that the next wave had at the time; and the counts of both. -/
structure Divided (w : Writer) (calls : List Call) : Prop where
  text : w.finishedText
    = w.text ++ unlines (trailerLines w.bounds (new.taken calls).length w.graphStarts)
  waves : w.waves = (new.taken calls).length
  rows : w.graphStarts.length = calls.countP Call.beginsGraph + 1
  first : w.graphStarts.head? = some 1
  sorted : w.graphStarts.Pairwise (· ≤ ·)
  boundary : ∀ before after, calls = before ++ Call.beginGraph :: after →
    w.graphStarts[before.countP Call.beginsGraph + 1]? = some ((new.taken before).length + 1)

/-- A boundary stands behind those that were there before it. -/
theorem getElem?_graphStarts (before after : List Call) :
    (new.performAll (before ++ Call.beginGraph :: after)).graphStarts[
        before.countP Call.beginsGraph + 1]?
      = some ((new.performAll before).waves + 1) := by
  have hsplit : new.performAll (before ++ Call.beginGraph :: after)
      = ((new.performAll before).perform .beginGraph).performAll after :=
    performAll_append new before (.beginGraph :: after)
  have hlength : (new.performAll before).graphStarts.length
      = before.countP Call.beginsGraph + 1 := by
    rw [length_graphStarts, Nat.add_comm]
    rfl
  obtain ⟨more, hmore⟩ := graphStarts_prefix ((new.performAll before).perform .beginGraph) after
  rw [hsplit, ← hmore, graphStarts_beginGraph, List.append_assoc, ← hlength,
    List.getElem?_append_right (Nat.le_refl _), Nat.sub_self]
  rfl

/-- There is a trailer if and only if the box is not empty. -/
theorem trailer_ne_nil_iff (w : Writer) : w.trailer ≠ [] ↔ w.bounds.isEmpty = false := by
  unfold trailer
  cases w.bounds.isEmpty <;> simp

/-- **Boundaries.** Whatever is drawn and however often a graph is begun, the boundaries of a script
divide its waves in the order in which they came. -/
theorem divides {calls : List Call} (h : (new.performAll calls).trailer ≠ []) :
    (new.performAll calls).Divided calls := by
  have hwrote := performAll_new_wrote calls
  have hfull := (trailer_ne_nil_iff _).1 h
  refine ⟨?_, hwrote.waves_of_new, ?_, ?_, (bounded_new.performAll calls).sorted, ?_⟩
  · rw [finishedText_eq, lines_trailer hfull, hwrote.waves_of_new]
  · rw [length_graphStarts, Nat.add_comm]
    rfl
  · obtain ⟨more, hmore⟩ := graphStarts_prefix new calls
    rw [← hmore]
    rfl
  · rintro before after rfl
    rw [getElem?_graphStarts, (performAll_new_wrote before).waves_of_new]

end Writer

end Photoplot.Script
