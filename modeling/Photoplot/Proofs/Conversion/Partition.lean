import Photoplot.Proofs.Conversion.Inputs
import Photoplot.Proofs.Script.Graphs

/-!
Which input plotted which wave.

The inputs of a joint script are converted one after the other, and between two of them a graph is
begun. So the first wave of a graph is the one behind all waves of the earlier inputs, whether or
not the input of the graph plots anything.

**What is proved, and where the work is.**

* Converting a list of inputs is defined from the front, and what is said about positions in it goes
  from the back: one more input is converted behind a boundary (`ofInputs_concat`). Section 1 has
  the laws of activities that this takes.
* `writerAfter` is the writer once so many of the inputs have been converted. In its terms the rows
  are a closed formula (`graphStarts_ofInputs`), by induction on the inputs from the back: the rows
  of the earlier inputs stay, and the boundary adds one.
* Which input plotted a wave is said by the script itself: the wave is declared after the input and
  was not before (`PlottedBy`). Since a writer declares the waves up to its count, this is an
  interval (`plottedBy_iff`), and the rows are where the intervals begin.
* From that follow the two main statements: the graphs divide the waves by their inputs
  (`plottedBy_iff_inGraph`), and a graph starts with a wave of its own if and only if its input
  plots one (`startsOwn_iff_plots`). The last graph has no row behind it, so there it takes that
  nothing is plotted behind the last input.
-/

set_option autoImplicit false

namespace Photoplot

open Script

namespace Activity

/-! ## 1. One activity after the other -/

variable {α β : Type}

theorem andThen_start (first : Activity α) : first.andThen start = first := by
  cases h : first.fault with
  | some fault => exact andThen_of_fault h
  | none =>
    rw [andThen_of_no_fault h, start, List.append_nil, ← h]

/-- Activities one after the other, in whatever way they are put together: the first fault ends all
of them. -/
theorem andThen_assoc (first : Activity α) (second third : α → Activity α) :
    (first.andThen second).andThen third = first.andThen fun a => (second a).andThen third := by
  cases h : first.fault with
  | some fault => rw [andThen_of_fault h, andThen_of_fault h, andThen_of_fault h]
  | none =>
    rw [andThen_of_no_fault h, andThen_of_no_fault h]
    cases h' : (second first.state).fault with
    | some fault => rw [andThen_of_fault h', andThen_of_fault rfl, h']
    | none => rw [andThen_of_no_fault h', andThen_of_no_fault rfl, List.append_assoc]

/-- Some items and then others. -/
theorem forEach_append (work : β → α → Activity α) (first second : List β) (a : α) :
    forEach work (first ++ second) a = (forEach work first a).andThen (forEach work second) := by
  induction first generalizing a with
  | nil => rw [List.nil_append, forEach, start_andThen]
  | cons b rest ih =>
    rw [List.cons_append, forEach, forEach, andThen_assoc]
    congr 1
    exact funext ih

/-- What an activity that reached its end says about its parts. -/
theorem parts_of_andThen {first : Activity α} {more : α → Activity α}
    (h : (first.andThen more).fault = none) :
    first.fault = none ∧ (more first.state).fault = none
      ∧ (first.andThen more).state = (more first.state).state := by
  cases hfirst : first.fault with
  | some fault =>
    rw [andThen_of_fault hfirst, hfirst] at h
    cases h
  | none =>
    rw [andThen_of_no_fault hfirst] at h ⊢
    exact ⟨rfl, h, rfl⟩

end Activity

namespace Conversion

variable {settings : Settings} {source : Source} {names : List String}

/-! ## 2. One input after the other -/

/-- An input draws, and begins no graph. -/
theorem exists_draws_ofInput (settings : Settings) (source : Source) (name : String) (w : Writer) :
    ∃ drawings : List Drawing,
      (ofInput settings source name w).state = w.performAll (drawings.map Call.draw) := by
  unfold ofInput
  cases source w name with
  | error cause => exact ⟨[], rfl⟩
  | ok text =>
    refine ⟨(course settings text).drawings.map fun d => d.shift settings.offsets, ?_⟩
    rw [List.map_map]
    exact (ofText_eq name text settings w).1

theorem ofInputs_singleton (settings : Settings) (source : Source) (name : String) (w : Writer) :
    ofInputs settings source [name] w = ofInput settings source name w :=
  Activity.andThen_start _

/-- A further input is converted behind a boundary. -/
theorem ofInputs_concat (hne : names ≠ []) (name : String) (w : Writer) :
    ofInputs settings source (names ++ [name]) w
      = (ofInputs settings source names w).andThen
          fun w => ofInput settings source name w.beginGraph := by
  cases names with
  | nil => exact absurd rfl hne
  | cons first further =>
    rw [List.cons_append, ofInputs, ofInputs, Activity.andThen_assoc]
    congr 1
    funext w'
    rw [Activity.forEach_append]
    congr 1
    funext w''
    exact Activity.andThen_start _

/-- The writer once so many of the inputs have been converted. -/
def writerAfter (settings : Settings) (source : Source) (names : List String) (count : Nat) :
    Writer :=
  (ofInputs settings source (names.take count) Writer.new).state

theorem writerAfter_length :
    writerAfter settings source names names.length
      = (ofInputs settings source names Writer.new).state := by
  rw [writerAfter, List.take_length]

/-- What comes behind some inputs makes no difference to them. -/
theorem writerAfter_append {count : Nat} (h : count ≤ names.length) (more : List String) :
    writerAfter settings source (names ++ more) count = writerAfter settings source names count := by
  rw [writerAfter, writerAfter, List.take_append_of_le_length h]

/-- Converting inputs is a matter of calls. -/
theorem exists_calls_ofInputs (settings : Settings) (source : Source) (names : List String) :
    ∃ calls, (ofInputs settings source names Writer.new).state = Writer.new.performAll calls := by
  induction names using List.reverseRecOn with
  | nil => exact ⟨[], rfl⟩
  | append_singleton names name ih =>
    by_cases hne : names = []
    · subst hne
      obtain ⟨drawings, hdrawings⟩ := exists_draws_ofInput settings source name Writer.new
      exact ⟨_, (congrArg Activity.state (ofInputs_singleton settings source name _)).trans hdrawings⟩
    · obtain ⟨calls, hcalls⟩ := ih
      rw [ofInputs_concat hne]
      cases hfault : (ofInputs settings source names Writer.new).fault with
      | some fault =>
        rw [Activity.andThen_of_fault hfault]
        exact ⟨calls, hcalls⟩
      | none =>
        rw [Activity.andThen_of_no_fault hfault, hcalls]
        obtain ⟨drawings, hdrawings⟩ := exists_draws_ofInput settings source name
          (Writer.new.performAll calls).beginGraph
        refine ⟨calls ++ Call.beginGraph :: drawings.map Call.draw, ?_⟩
        rw [Writer.performAll_append]
        exact hdrawings

/-! ## 3. The boundaries of a joint script -/

theorem graphStarts_draws (w : Writer) (drawings : List Drawing) :
    (w.performAll (drawings.map Call.draw)).graphStarts = w.graphStarts := by
  induction drawings generalizing w with
  | nil => rfl
  | cons d rest ih => exact (ih (w.perform (.draw d))).trans (Writer.graphStarts_draw w d)

theorem graphStarts_ofInput (name : String) (w : Writer) :
    (ofInput settings source name w).state.graphStarts = w.graphStarts := by
  obtain ⟨drawings, hdrawings⟩ := exists_draws_ofInput settings source name w
  rw [hdrawings, graphStarts_draws]

/-- **The rows.** A joint script has a row for each input, with the number that the next wave had
when the input was reached. -/
theorem graphStarts_ofInputs (hne : names ≠ [])
    (hfault : (ofInputs settings source names Writer.new).fault = none) :
    (ofInputs settings source names Writer.new).state.graphStarts
      = (List.range names.length).map fun k => (writerAfter settings source names k).waves + 1 := by
  induction names using List.reverseRecOn with
  | nil => exact absurd rfl hne
  | append_singleton names name ih =>
    by_cases hfirst : names = []
    · subst hfirst
      rw [List.nil_append, ofInputs_singleton, graphStarts_ofInput]
      rfl
    · rw [ofInputs_concat hfirst] at hfault ⊢
      obtain ⟨hbefore, -, hstate⟩ := Activity.parts_of_andThen hfault
      -- the rows of the earlier inputs stay, and the boundary adds one
      have hrows : (Writer.beginGraph (ofInputs settings source names Writer.new).state).graphStarts
          = (List.range names.length).map
              (fun k => (writerAfter settings source names k).waves + 1)
            ++ [(writerAfter settings source names names.length).waves + 1] := by
        rw [writerAfter_length, ← ih hfirst hbefore]
        rfl
      rw [hstate, graphStarts_ofInput, hrows, List.length_append, List.length_singleton,
        List.range_succ, List.map_append, List.map_singleton, writerAfter_append (Nat.le_refl _)]
      congr 1
      apply List.map_congr_left
      intro k hk
      rw [writerAfter_append (List.mem_range.1 hk).le]

theorem length_graphStarts_ofInputs (hne : names ≠ [])
    (hfault : (ofInputs settings source names Writer.new).fault = none) :
    (ofInputs settings source names Writer.new).state.graphStarts.length = names.length := by
  rw [graphStarts_ofInputs hne hfault, List.length_map, List.length_range]

theorem getElem?_graphStarts_ofInputs (hne : names ≠ [])
    (hfault : (ofInputs settings source names Writer.new).fault = none) {k : Nat}
    (hk : k < names.length) :
    (ofInputs settings source names Writer.new).state.graphStarts[k]?
      = some ((writerAfter settings source names k).waves + 1) := by
  rw [graphStarts_ofInputs hne hfault, List.getElem?_map, List.getElem?_range hk, Option.map_some]

/-! ## 4. The waves of an input -/

/-- Whether the input at a position plotted a wave: the script declares the wave once the input has
been converted, and did not before. -/
def PlottedBy (settings : Settings) (source : Source) (names : List String) (k wave : Nat) : Prop :=
  ¬(writerAfter settings source names k).Declares wave
    ∧ (writerAfter settings source names (k + 1)).Declares wave

/-- Whether the input at a position plotted anything. -/
def Plots (settings : Settings) (source : Source) (names : List String) (k : Nat) : Prop :=
  ∃ wave, PlottedBy settings source names k wave

/-- The waves declared are those up to the count. -/
theorem declares_writerAfter (count wave : Nat) :
    (writerAfter settings source names count).Declares wave
      ↔ 1 ≤ wave ∧ wave ≤ (writerAfter settings source names count).waves := by
  obtain ⟨calls, hcalls⟩ := exists_calls_ofInputs settings source (names.take count)
  rw [writerAfter, hcalls]
  exact (Writer.performAll_new_wrote calls).declares_iff wave

/-- The waves of an input come behind those of the earlier inputs. -/
theorem plottedBy_iff (k wave : Nat) :
    PlottedBy settings source names k wave
      ↔ (writerAfter settings source names k).waves < wave
        ∧ wave ≤ (writerAfter settings source names (k + 1)).waves := by
  rw [PlottedBy, declares_writerAfter, declares_writerAfter]
  omega

/-- An input plots something when the count has grown by it. -/
theorem plots_iff (k : Nat) :
    Plots settings source names k
      ↔ (writerAfter settings source names k).waves
        < (writerAfter settings source names (k + 1)).waves := by
  constructor
  · rintro ⟨wave, hwave⟩
    obtain ⟨hlow, hhigh⟩ := (plottedBy_iff k wave).1 hwave
    exact Nat.lt_of_lt_of_le hlow hhigh
  · intro h
    exact ⟨_, (plottedBy_iff k _).2 ⟨h, Nat.le_refl _⟩⟩

/-- Whether a wave lies within a graph: not before the first wave of the graph, and before that of
the next graph if there is one. -/
def InGraph (starts : List Nat) (k wave : Nat) : Prop :=
  (∃ start, starts[k]? = some start ∧ start ≤ wave)
    ∧ (k + 1 = starts.length ∨ ∃ next, starts[k + 1]? = some next ∧ wave < next)

/-- **The graphs divide the waves by their inputs.** -/
theorem plottedBy_iff_inGraph (hne : names ≠ [])
    (hfault : (ofInputs settings source names Writer.new).fault = none) {k wave : Nat}
    (hk : k < names.length)
    (hwave : (ofInputs settings source names Writer.new).state.Declares wave) :
    PlottedBy settings source names k wave
      ↔ InGraph (ofInputs settings source names Writer.new).state.graphStarts k wave := by
  have hrow := getElem?_graphStarts_ofInputs hne hfault hk
  rw [plottedBy_iff, InGraph, length_graphStarts_ofInputs hne hfault, hrow]
  simp only [Option.some.injEq, exists_eq_left']
  refine and_congr Nat.lt_iff_add_one_le ?_
  by_cases hlast : k + 1 = names.length
  · -- nothing is plotted behind the last input
    have hall : wave ≤ (writerAfter settings source names (k + 1)).waves := by
      rw [← writerAfter_length, declares_writerAfter, ← hlast] at hwave
      exact hwave.2
    simp only [hlast, true_or, iff_true]
    rw [← hlast]
    exact hall
  · have hnext := getElem?_graphStarts_ofInputs (k := k + 1) hne hfault (by omega)
    rw [hnext]
    simp only [hlast, false_or, Option.some.injEq, exists_eq_left', Nat.lt_succ_iff]

/-! ## 5. First waves -/

theorem waves_le_ofInput (name : String) (w : Writer) :
    w.waves ≤ (ofInput settings source name w).state.waves := by
  obtain ⟨drawings, hdrawings⟩ := exists_draws_ofInput settings source name w
  rw [hdrawings]
  exact Writer.waves_le_performAll w _

/-- The count never falls. An input that fails may have drawn before, and beyond the last input
nothing changes. -/
theorem waves_writerAfter_step (k : Nat) :
    (writerAfter settings source names k).waves
      ≤ (writerAfter settings source names (k + 1)).waves := by
  by_cases hk : k < names.length
  · rw [writerAfter, writerAfter, List.take_succ_eq_append_getElem hk]
    by_cases hnil : names.take k = []
    · rw [hnil]
      exact Nat.zero_le _
    · rw [ofInputs_concat hnil]
      cases hfault : (ofInputs settings source (names.take k) Writer.new).fault with
      | some fault => rw [Activity.andThen_of_fault hfault]
      | none =>
        rw [Activity.andThen_of_no_fault hfault]
        exact waves_le_ofInput _ (Writer.beginGraph _)
  · -- beyond the last input nothing changes
    have hlast : names.take (k + 1) = names.take k := by
      rw [List.take_of_length_le (by omega), List.take_of_length_le (by omega)]
    rw [writerAfter, writerAfter, hlast]

theorem waves_writerAfter_mono (settings : Settings) (source : Source) (names : List String) :
    Monotone fun k => (writerAfter settings source names k).waves :=
  monotone_nat_of_le_succ waves_writerAfter_step

/-- Whether a graph starts with a wave of its own: its row is the number of a wave that the script
declares and that the input of the graph plotted. -/
def StartsOwn (settings : Settings) (source : Source) (names : List String) (k : Nat) : Prop :=
  ∃ start, (ofInputs settings source names Writer.new).state.graphStarts[k]? = some start
    ∧ (ofInputs settings source names Writer.new).state.Declares start
    ∧ PlottedBy settings source names k start

/-- **First waves.** A graph starts with a wave of its own if and only if its input plots
anything. -/
theorem startsOwn_iff_plots (hne : names ≠ [])
    (hfault : (ofInputs settings source names Writer.new).fault = none) {k : Nat}
    (hk : k < names.length) :
    StartsOwn settings source names k ↔ Plots settings source names k := by
  constructor
  · rintro ⟨start, -, -, hplotted⟩
    exact ⟨start, hplotted⟩
  · intro hplots
    have hmore := (plots_iff k).1 hplots
    have hall := waves_writerAfter_mono settings source names (Nat.succ_le_of_lt hk)
    refine ⟨_, getElem?_graphStarts_ofInputs hne hfault hk, ?_, ?_⟩
    · rw [← writerAfter_length, declares_writerAfter]
      exact ⟨Nat.le_add_left 1 _, Nat.le_trans hmore hall⟩
    · exact (plottedBy_iff k _).2 ⟨Nat.lt_succ_self _, hmore⟩

/-- Graphs start with different waves if and only if every input but the last plots anything. -/
theorem nodup_graphStarts_iff (hne : names ≠ [])
    (hfault : (ofInputs settings source names Writer.new).fault = none) :
    (ofInputs settings source names Writer.new).state.graphStarts.Nodup
      ↔ ∀ k, k + 1 < names.length → Plots settings source names k := by
  have hmono := waves_writerAfter_mono settings source names
  rw [graphStarts_ofInputs hne hfault]
  constructor
  · intro hnodup k hk
    rw [plots_iff]
    refine lt_of_le_of_ne (waves_writerAfter_step k) ?_
    intro hsame
    have hk' : k = k + 1 := by
      apply List.inj_on_of_nodup_map hnodup (List.mem_range.2 (Nat.lt_of_succ_lt hk))
        (List.mem_range.2 hk)
      rw [hsame]
    omega
  · intro hplots
    apply List.Nodup.map_on ?_ List.nodup_range
    -- between two positions an input plots, so the counts differ
    have hless : ∀ j k, j < k → k < names.length →
        (writerAfter settings source names j).waves
          < (writerAfter settings source names k).waves := by
      intro j k hjk hk
      have hstep := (plots_iff j).1 (hplots j (by omega))
      exact hstep.trans_le (hmono hjk)
    intro j hj k hk hsame
    have hj' := List.mem_range.1 hj
    have hk' := List.mem_range.1 hk
    rcases Nat.lt_trichotomy j k with hjk | rfl | hkj
    · have := hless j k hjk hk'
      omega
    · rfl
    · have := hless k j hkj hj'
      omega

end Conversion

end Photoplot
