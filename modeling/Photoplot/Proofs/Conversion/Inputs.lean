import Photoplot.Conversion
import Photoplot.Proofs.Script.Joining

/-!
Converting several inputs into one script.

What an interpreter hands over depends on the text and the settings alone: `shown` are the drawings,
and they are written behind whatever a writer has written before. So the joint script of some inputs
is made of the scripts that the inputs have on their own, and nothing passes from one input to the
next but the count of the waves and the box around them.

**What is proved, and where the work is.**

* One input: a conversion asks the writer for the calls of its text, and ends as the course of its
  text does (`ofText_eq`). Neither depends on the writer, because a writer takes whatever an
  interpreter hands over. What is written is then a case of `performAll_wrote` (`ofText_wrote`).
* All inputs: an induction on the inputs (`forEach_wrote`). It carries the latch of the writer from
  one input to the next, and between two of them a graph is begun, which writes nothing.
* The joint script and the scripts of their own are both determined by the drawings shown, so that
  the former joins the latter is a fact about scripts (`joins_of_wrote`, in `Script.Joining`).
* In another order the waves are others, but the box is the same, since boxes do not depend on the
  order of the points. That is where it matters that coordinates that a run hands over are plain:
  the order could tell one zero from the other.

Main statement: `together_joins`, for all settings, texts and lists of inputs that convert on their
own.
-/

set_option autoImplicit false

namespace Photoplot.Conversion

open Script

/-! ## 1. One input -/

/-- What comes of the text of an input without any writer. -/
def course (settings : Settings) (text : String) : Course :=
  (State.initial settings.units).follow ((readings text).filterMap Reading.token?)

/-- The calls by which the text of an input is drawn. -/
def calls (settings : Settings) (text : String) : List Call :=
  (course settings text).drawings.map fun d => .draw (d.shift settings.offsets)

/-- What is to be seen of the text of an input. -/
def shown (settings : Settings) (text : String) : List Drawing :=
  (calls settings text).filterMap Call.visible?

/-- The fault that a run ends with, if it ends with one. -/
def faultOf (outcome : Except Fault Flow) : Option Fault :=
  match outcome with
  | .ok _ => none
  | .error fault => some fault

/-- **One input.** A writer is asked to draw the text, and whatever it has written before makes no
difference to that. -/
theorem ofText_eq (name text : String) (settings : Settings) (w : Writer) :
    (ofText name text settings w).state = w.performAll (calls settings text)
      ∧ (ofText name text settings w).fault = faultOf (course settings text).outcome := by
  have hrun := Interpreter.run_of_accepting
    (i := Interpreter.new w settings.units settings.offsets) (Writer.accepting w) (readings text)
  have hplotter : ((Interpreter.new w settings.units settings.offsets).runText text).after.plotter
      = w.performAll (calls settings text) := by
    -- to a plotter and to a writer handing a drawing over is the same call
    rw [Writer.performAll, calls, List.foldl_map]
    have hafter := hrun.plotter
    rw [hrun.drawings, Plotter.afterAll, List.foldl_map] at hafter
    exact hafter
  have houtcome : ((Interpreter.new w settings.units settings.offsets).runText text).outcome
      = (course settings text).outcome := hrun.outcome
  rw [ofText]
  cases h : (course settings text).outcome with
  | ok flow =>
    rw [h] at houtcome
    simp only [houtcome]
    exact ⟨hplotter, rfl⟩
  | error fault =>
    rw [h] at houtcome
    simp only [houtcome]
    exact ⟨hplotter, rfl⟩

/-- What is shown of a text is written behind what has been written before. -/
theorem ofText_wrote (name text : String) (settings : Settings) {w : Writer} (hl : w.Latched) :
    w.Wrote (shown settings text) (ofText name text settings w).state := by
  rw [(ofText_eq name text settings w).1]
  exact Writer.performAll_wrote hl (calls settings text)

/-- The points of what is shown come out of a sum, and so are plain. -/
theorem plain_of_mem_shown {settings : Settings} {text : String} {d : Drawing}
    (hd : d ∈ shown settings text) : d.All Point.Plain := by
  obtain ⟨call, hcall, hvisible⟩ := List.mem_filterMap.1 hd
  obtain ⟨d', hd', rfl⟩ := List.mem_map.1 hcall
  rw [Call.visible?] at hvisible
  split at hvisible
  · obtain rfl := Option.some.inj hvisible
    exact Drawing.plain_of_follow hd'
  · cases hvisible

/-! ## 2. All inputs -/

/-- Inputs of given texts, whatever has been written. -/
def fixed (contents : String → String) : Source := fun _ name => .ok (contents name)

/-- The conversion of one input into a script of its own. -/
def alone (settings : Settings) (contents : String → String) (name : String) : Activity Writer :=
  ofText name (contents name) settings Writer.new

/-- The conversion of all inputs into one script. -/
def together (settings : Settings) (contents : String → String) (names : List String) :
    Activity Writer :=
  ofInputs settings (fixed contents) names Writer.new

section Inputs

variable {settings : Settings} {contents : String → String} {names : List String}

/-- An input that converts without a fault on its own does so behind any other. -/
theorem ofInput_fault {name : String} (h : (alone settings contents name).fault = none)
    (w : Writer) : (ofInput settings (fixed contents) name w).fault = none := by
  have hcourse : (alone settings contents name).fault
      = faultOf (course settings (contents name)).outcome :=
    (ofText_eq name (contents name) settings Writer.new).2
  rw [← h, hcourse]
  exact (ofText_eq name (contents name) settings w).2

/-- **The run law.** The inputs are drawn one after the other, and beginning a graph draws
nothing. -/
theorem forEach_wrote (halone : ∀ name ∈ names, (alone settings contents name).fault = none)
    {w : Writer} (hl : w.Latched) :
    let further := Activity.forEach
      (fun name w => ofInput settings (fixed contents) name w.beginGraph) names w
    further.fault = none
      ∧ w.Wrote (names.flatMap fun name => shown settings (contents name)) further.state := by
  induction names generalizing w with
  | nil => exact ⟨rfl, Writer.Wrote.refl hl⟩
  | cons name rest ih =>
    -- a graph is begun, the first input is drawn, and then the rest
    have hbegun : w.Wrote [] w.beginGraph := Writer.perform_wrote hl .beginGraph
    have hfirst := ofText_wrote name (contents name) settings hbegun.latched
    obtain ⟨hfault, hrest⟩ := ih (fun other hother => halone other (List.mem_cons_of_mem name hother))
      hfirst.latched
    intro further
    have hsplit : further = _ :=
      Activity.andThen_of_no_fault (ofInput_fault (halone name List.mem_cons_self) w.beginGraph) _
    rw [hsplit]
    exact ⟨hfault, (hbegun.trans hfirst).trans hrest⟩

/-- The first input needs no graph of its own, for a new writer has begun one; otherwise it is a run
of all. -/
theorem together_wrote (halone : ∀ name ∈ names, (alone settings contents name).fault = none) :
    (together settings contents names).fault = none
      ∧ Writer.new.Wrote (names.flatMap fun name => shown settings (contents name))
          (together settings contents names).state := by
  cases names with
  | nil => exact ⟨rfl, Writer.Wrote.refl Writer.latched_new⟩
  | cons name rest =>
    have hfirst := ofText_wrote name (contents name) settings Writer.latched_new
    obtain ⟨hfault, hrest⟩ := forEach_wrote
      (fun other hother => halone other (List.mem_cons_of_mem name hother)) hfirst.latched
    have hsplit : together settings contents (name :: rest) = _ :=
      Activity.andThen_of_no_fault (ofInput_fault (halone name List.mem_cons_self) Writer.new) _
    rw [hsplit]
    exact ⟨hfault, hfirst.trans hrest⟩

/-! ## 3. The joint script -/

/-- The same inputs in another order give the same box. -/
theorem bounds_together_perm {names' : List String} (hperm : names.Perm names')
    (halone : ∀ name ∈ names, (alone settings contents name).fault = none) :
    (together settings contents names').state.bounds
      = (together settings contents names).state.bounds := by
  have halone' : ∀ name ∈ names', (alone settings contents name).fault = none :=
    fun name hname => halone name (hperm.mem_iff.2 hname)
  rw [(together_wrote halone).2.bounds, (together_wrote halone').2.bounds]
  symm
  apply Bounds.growAll_perm
  · exact (hperm.flatMap_right _).flatMap_right _
  · apply forall_mem_inkedPoints
    intro d hd
    obtain ⟨name, -, hname⟩ := List.mem_flatMap.1 hd
    exact plain_of_mem_shown hname

/-- A conversion that came to its end, with just these blocks between the preamble and the
trailer. -/
structure Finished (c : Activity Writer) (waves : List Block) : Prop where
  fault : c.fault = none
  text : scriptText c = render (preamble ++ waves ++ c.state.trailer)

/-- The blocks of a conversion that came to its end are followed by the trailer and nothing else. -/
theorem finished_of_blocks {c : Activity Writer} {waves : List Block} (hfault : c.fault = none)
    (hblocks : c.state.blocks.toList = preamble ++ waves) : Finished c waves := by
  refine ⟨hfault, ?_⟩
  rw [scriptText, hfault, ← hblocks]
  rfl

/-- **Joint scripts.** Inputs that convert on their own convert together, and in any order. The
joint script holds the waves of the scripts of their own, renumbered and one behind the other, and
nothing else between the preamble and the trailer; its box joins the boxes of these scripts, and is
the same in any order. -/
theorem together_joins (settings : Settings) (contents : String → String) (names : List String)
    (halone : ∀ name ∈ names, (alone settings contents name).fault = none) :
    let parts := names.map fun name => (alone settings contents name).state
    let whole := together settings contents names
    (∀ name ∈ names, Finished (alone settings contents name)
        (alone settings contents name).state.waveSection)
      ∧ Finished whole (joined 0 parts)
      ∧ Joins parts whole.state
      ∧ ∀ names', names.Perm names' →
          (together settings contents names').fault = none
            ∧ (together settings contents names').state.bounds = whole.state.bounds := by
  -- the same drawings are written into a script of their own and into the joint one
  have hpart : ∀ name, Writer.new.Wrote (shown settings (contents name))
      (alone settings contents name).state :=
    fun name => ofText_wrote name (contents name) settings Writer.latched_new
  obtain ⟨hfault, hwhole⟩ := together_wrote halone
  have hjoins := joins_of_wrote (fun name _ => hpart name) hwhole
  refine ⟨?_, finished_of_blocks hfault hjoins.blocks, hjoins, ?_⟩
  · intro name hname
    exact finished_of_blocks (halone name hname) (hpart name).blocks_eq_waveSection
  · intro names' hperm
    have halone' : ∀ name ∈ names', (alone settings contents name).fault = none :=
      fun name hname => halone name (hperm.mem_iff.2 hname)
    exact ⟨(together_wrote halone').1, bounds_together_perm hperm halone⟩

end Inputs

/-- The standard units, and no offsets. -/
def standardSettings : Settings := ⟨.standard, Offsets.none, false⟩

/-- A path of two points, closed by a stop code, and a drill mark without any. -/
def sampleTexts : List String := ["D1X5Y6D2M0", "R"]

/-- A script of two waves, one from either text. -/
theorem together_joins_samples :
    (∀ text ∈ sampleTexts, (alone standardSettings id text).fault = none)
      ∧ Joins (sampleTexts.map fun text => (alone standardSettings id text).state)
          (together standardSettings id sampleTexts).state
      ∧ (together standardSettings id sampleTexts).state.waves = 2 := by
  have hpath : readings "D1X5Y6D2M0" = [.token (.command 'D' (some 1)), .token (.coordinate 5 6),
      .token (.command 'D' (some 2)), .token (.command 'M' (some 0))] := by
    have htext : Scanner.ofText "D1X5Y6D2M0"
        = ⟨['D', '1', 'X', '5', 'Y', '6', 'D', '2', 'M', '0'], 0⟩ := rfl
    rw [readings, htext, Scanner.readings_of_some rfl, Scanner.readings_of_some rfl,
      Scanner.readings_of_some rfl, Scanner.readings_of_some rfl, Scanner.readings_of_none rfl]
    rfl
  have hdrill : readings "R" = [.token (.command 'R' none)] := by
    have htext : Scanner.ofText "R" = ⟨['R'], 0⟩ := rfl
    rw [readings, htext, Scanner.readings_of_some rfl, Scanner.readings_of_none rfl]
    rfl
  have halone : ∀ text ∈ sampleTexts, (alone standardSettings id text).fault = none := by
    intro text htext
    have hfault : (alone standardSettings id text).fault
        = faultOf (course standardSettings text).outcome :=
      (ofText_eq text text standardSettings Writer.new).2
    rw [hfault, course]
    rcases List.mem_pair.1 htext with rfl | rfl
    · rw [hpath]
      rfl
    · rw [hdrill]
      rfl
  obtain ⟨-, -, hjoins, -⟩ := together_joins standardSettings id sampleTexts halone
  refine ⟨halone, hjoins, ?_⟩
  have hwaves : ∀ text, (alone standardSettings id text).state.waves
      = (shown standardSettings text).length :=
    fun text => (ofText_wrote text text standardSettings Writer.latched_new).waves_of_new
  rw [hjoins.waves]
  show (alone standardSettings id "D1X5Y6D2M0").state.waves
    + ((alone standardSettings id "R").state.waves + 0) = 2
  rw [hwaves, hwaves, shown, calls, course, hpath, shown, calls, course, hdrill]
  rfl

end Photoplot.Conversion
