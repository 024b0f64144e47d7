import Photoplot.Proofs.CommandLine.Runs

/-!
The graphs of a joint script, as a command line gets it.

**What is proved, and where the work is.**

* `graphs_divide_waves` follows the boundaries from the calls on a writer to the script that a run
  leaves: every wave of the script lies within the graph of the input that plotted it, and in no
  other. The first half is about calls and holds of any of them (`Writer.divides`), the second about
  inputs, and there it takes that the conversion came to its end (`graphsByInput_of_fault`).
* A graph whose input plots nothing has no wave, and still it has a row. `graphs_start_own` says
  which rows name a wave of their graph, and when all rows are different; `row_without_wave` shows a
  run that succeeds and leaves a row for a wave that is not there.
* The work is done in `Conversion.Partition`, on lists of inputs and a source of texts. Here these
  are the inputs of a command line and the files beside the script, as `joined_of_execute` gives
  them, so all statements are about what lies in the directory once a run has succeeded.
-/

set_option autoImplicit false

namespace Photoplot

open Script (Writer Call)
open Conversion

section Graphs

variable {arguments : List String} {d : Directory} {job : Job} {path : String}

/-- What a joint script says about its graphs: a row for each input, and each wave within the graph
of the input that plotted it. -/
structure GraphsByInput (settings : Settings) (source : Source) (names : List String) : Prop where
  divided : ∃ calls, (ofInputs settings source names Writer.new).state = Writer.new.performAll calls
    ∧ (Writer.new.performAll calls).Divided calls
  rows : (ofInputs settings source names Writer.new).state.graphStarts.length = names.length
  byInput : ∀ k < names.length, ∀ wave,
    (ofInputs settings source names Writer.new).state.Declares wave →
      (PlottedBy settings source names k wave
        ↔ InGraph (ofInputs settings source names Writer.new).state.graphStarts k wave)

/-- A conversion of all inputs that came to its end leaves the graphs that its script describes, if
it describes any. -/
theorem graphsByInput_of_fault {settings : Settings} {source : Source} {names : List String}
    (hne : names ≠ []) (hfault : (ofInputs settings source names Writer.new).fault = none)
    (htrailer : (ofInputs settings source names Writer.new).state.trailer ≠ []) :
    GraphsByInput settings source names := by
  obtain ⟨calls, hcalls⟩ := exists_calls_ofInputs settings source names
  refine ⟨⟨calls, hcalls, ?_⟩, length_graphStarts_ofInputs hne hfault, ?_⟩
  · rw [hcalls] at htrailer
    exact Writer.divides htrailer
  · intro k hk wave hwave
    exact plottedBy_iff_inGraph hne hfault hk hwave

/-- **Graphs and inputs.** After any calls that leave a script with a trailer, the rows of the
graphs are the boundaries between the waves: the first is 1, each further one is the number that the
next wave had when its graph was begun, they are in order, and the counts are those of the graphs
and of the drawings that were taken. So when a run with a joint script succeeds, a wave of the
script was plotted by an input if and only if it lies within the graph of that input. -/
theorem graphs_divide_waves :
    (∀ calls : List Call, (Writer.new.performAll calls).trailer ≠ [] →
        (Writer.new.performAll calls).Divided calls)
      ∧ ∀ (arguments : List String) (d : Directory) (job : Job) (path : String),
        Request.ofArguments arguments = .ok (.convert job) → job.output = some path →
        (execute arguments d).succeeded = true →
        ∃ settings source, Joined job path d (execute arguments d).directory settings source
          ∧ ((ofInputs settings source job.inputs Writer.new).state.trailer ≠ [] →
            GraphsByInput settings source job.inputs) := by
  refine ⟨fun calls => Writer.divides, ?_⟩
  intro arguments d job path hrequest houtput hsucceeded
  obtain ⟨settings, source, hjoined⟩ := joined_of_execute hrequest houtput hsucceeded
  exact ⟨settings, source, hjoined,
    graphsByInput_of_fault (Request.inputs_ne_nil hrequest) hjoined.fault⟩

/-- **Own first waves.** When a run with a joint script succeeds, the row of a graph names a wave
that the script declares and the input of the graph plotted, if and only if that input plotted
anything. All rows are different if and only if every input but the last did. -/
theorem graphs_start_own (hrequest : Request.ofArguments arguments = .ok (.convert job))
    (houtput : job.output = some path) (hsucceeded : (execute arguments d).succeeded = true) :
    ∃ settings source, Joined job path d (execute arguments d).directory settings source
      ∧ (∀ k < job.inputs.length,
        StartsOwn settings source job.inputs k ↔ Plots settings source job.inputs k)
      ∧ ((ofInputs settings source job.inputs Writer.new).state.graphStarts.Nodup
        ↔ ∀ k, k + 1 < job.inputs.length → Plots settings source job.inputs k) := by
  obtain ⟨settings, source, hjoined⟩ := joined_of_execute hrequest houtput hsucceeded
  have hne := Request.inputs_ne_nil hrequest
  refine ⟨settings, source, hjoined, ?_, nodup_graphStarts_iff hne hjoined.fault⟩
  intro k hk
  exact startsOwn_iff_plots hne hjoined.fault hk

end Graphs

/-- A file with a path, one with a drill mark and one without anything to plot. -/
def sampleDirectory : Directory :=
  ⟨[(["plate"], "D1X5Y6D2M0".toUTF8), (["hole"], "RM0".toUTF8), (["blank"], "M0".toUTF8)], []⟩

/-- The job to put some inputs together. -/
def joiningJob (inputs : List String) : Job :=
  ⟨⟨none, none, none, none, some false⟩, none, some "o", inputs⟩

/-- The inputs beside the script of the sample. -/
def sampleSource : Source :=
  Job.inputsBeside ["o"] (sampleDirectory.put ["o"] ⟨#[]⟩)

theorem source_of_joined {inputs : List String} {after : Directory} {settings : Settings}
    {source : Source} (h : Joined (joiningJob inputs) "o" sampleDirectory after settings source) :
    settings = standardSettings ∧ source = sampleSource := by
  have hsettings : (joiningJob inputs).settings sampleDirectory = .ok standardSettings := rfl
  have hcreate : sampleDirectory.create "o" = .ok (["o"], sampleDirectory.put ["o"] ⟨#[]⟩) := rfl
  obtain ⟨place, created, hcreated, hsource⟩ := h.beside
  constructor
  · have hsettled := h.settled
    rw [hsettings] at hsettled
    cases hsettled
    rfl
  · rw [hcreate] at hcreated
    cases hcreated
    exact hsource

/-- The path is wave 1 and lies within the first graph, the drill mark is wave 2 and lies within the
second one. -/
theorem graphs_divide_waves_sample :
    (Writer.new.performAll Writer.sampleCalls).Divided Writer.sampleCalls
      ∧ (execute ["--output", "o", "plate", "hole"] sampleDirectory).succeeded = true
      ∧ GraphsByInput standardSettings sampleSource ["plate", "hole"]
      ∧ (ofInputs standardSettings sampleSource ["plate", "hole"] Writer.new).state.graphStarts
        = [1, 2] := by
  have hrequest : Request.ofArguments ["--output", "o", "plate", "hole"]
      = .ok (.convert (joiningJob ["plate", "hole"])) := rfl
  have hsucceeded : (execute ["--output", "o", "plate", "hole"] sampleDirectory).succeeded = true := by
    decide +kernel
  obtain ⟨hcalls, hrun⟩ := graphs_divide_waves
  obtain ⟨settings, source, hjoined, hgraphs⟩ := hrun _ sampleDirectory _ "o" hrequest rfl hsucceeded
  obtain ⟨rfl, rfl⟩ := source_of_joined hjoined
  refine ⟨hcalls Writer.sampleCalls ?_, hsucceeded, hgraphs ?_, ?_⟩
  · apply (Writer.trailer_ne_nil_iff _).2
    decide +kernel
  · apply (Writer.trailer_ne_nil_iff _).2
    decide +kernel
  · decide +kernel

/-- Both graphs of this script start with waves of their own. -/
theorem graphs_start_own_sample :
    (execute ["--output", "o", "plate", "hole"] sampleDirectory).succeeded = true
      ∧ (∀ k < 2, StartsOwn standardSettings sampleSource ["plate", "hole"] k)
      ∧ (ofInputs standardSettings sampleSource ["plate", "hole"]
        Writer.new).state.graphStarts.Nodup := by
  have hrequest : Request.ofArguments ["--output", "o", "plate", "hole"]
      = .ok (.convert (joiningJob ["plate", "hole"])) := rfl
  have hsucceeded : (execute ["--output", "o", "plate", "hole"] sampleDirectory).succeeded = true := by
    decide +kernel
  have hplots : ∀ k < 2, Plots standardSettings sampleSource ["plate", "hole"] k := by
    intro k hk
    rw [plots_iff]
    interval_cases k <;> decide +kernel
  obtain ⟨settings, source, hjoined, hown, hnodup⟩ :=
    graphs_start_own (d := sampleDirectory) hrequest rfl hsucceeded
  obtain ⟨rfl, rfl⟩ := source_of_joined hjoined
  refine ⟨hsucceeded, ?_, hnodup.2 ?_⟩
  · intro k hk
    exact (hown k hk).2 (hplots k hk)
  · intro k hk
    exact hplots k (Nat.lt_of_succ_lt hk)

/-- **A row without a wave.** The second input plots nothing, and the row of its graph says 2 where
the script has only wave 1. -/
theorem row_without_wave :
    ∃ settings source,
      Joined (joiningJob ["plate", "blank"]) "o" sampleDirectory
          (execute ["--output", "o", "plate", "blank"] sampleDirectory).directory settings source
        ∧ (ofInputs settings source ["plate", "blank"] Writer.new).state.trailer ≠ []
        ∧ (ofInputs settings source ["plate", "blank"] Writer.new).state.graphStarts = [1, 2]
        ∧ ¬(ofInputs settings source ["plate", "blank"] Writer.new).state.Declares 2
        ∧ ¬StartsOwn settings source ["plate", "blank"] 1 := by
  have hrequest : Request.ofArguments ["--output", "o", "plate", "blank"]
      = .ok (.convert (joiningJob ["plate", "blank"])) := rfl
  obtain ⟨settings, source, hjoined⟩ :=
    joined_of_execute (d := sampleDirectory) hrequest rfl (by decide +kernel)
  refine ⟨settings, source, hjoined, ?_⟩
  obtain ⟨rfl, rfl⟩ := source_of_joined hjoined
  refine ⟨?_, ?_, ?_, ?_⟩
  · apply (Writer.trailer_ne_nil_iff _).2
    decide +kernel
  · decide +kernel
  · have hwaves : (writerAfter standardSettings sampleSource ["plate", "blank"] 2).waves = 1 := by
      decide +kernel
    intro hdeclares
    have hdeclares' : (writerAfter standardSettings sampleSource ["plate", "blank"] 2).Declares 2 :=
      hdeclares
    rw [declares_writerAfter, hwaves] at hdeclares'
    omega
  · have hnone : ¬Plots standardSettings sampleSource ["plate", "blank"] 1 := by
      rw [plots_iff]
      decide +kernel
    intro hown
    exact hnone ((startsOwn_iff_plots (List.cons_ne_nil _ _) hjoined.fault (by decide)).1 hown)

end Photoplot
