import Photoplot.Proofs.CommandLine.Separately
import Photoplot.Proofs.Conversion.Aborted

/-!
What a run that fails has done to the files.

A run that does not get as far as its first input leaves everything as it was. Otherwise the inputs
are worked through one after the other, and the first one that fails ends the run. As long as no
script is in the way of another one or of an input, the scripts before the failing one are those of
runs on their own, the failing one is cut off behind its last complete wave, and nothing else is
touched.

**What is proved, and where the work is.**

* A list of inputs that is not worked through splits at the input that failed
  (`Activity.exists_fault_of_forEach`). All that follows is about the three parts of that split.
* One input: `Attempted` is all that the conversion of an input can come to, with the files as they
  are at that moment. There are three cases, and the scripts are spelled out in each of them.
* The files are not those of the start of the run any more, and that is the work here. In `Clear` no
  script lies where another script or an input lies, so the inputs are read as they lay at the
  start, and a script could be created at the start if it can be now (`SameFolders.create`: the
  folders alone decide). Sections 3 to 5 carry what is known at the moment of a conversion back to
  the start, for the inputs before the failing one (`asAlone_of_before`) and for the failing one
  (`broken_of_attempted`).
* What comes behind the failing input has not been begun, and the frame of the run covers it
  (`OnlyScripts.trans`).

`Unstarted` lists the ways in which a run ends before its first input. `failures_contained` is the
main statement: it says of every command line and directory which of the two it is, and what becomes
of the files.
-/

set_option autoImplicit false

namespace Photoplot

open Script (Writer preamble body render)
open Conversion

/-! ## 1. Activities and directories -/

namespace Activity

variable {α β : Type} {work : β → α → Activity α}

/-- **The first failure.** A list that was not worked through splits at the item that failed. All
before it went well, and nothing has been done behind it. -/
theorem exists_fault_of_forEach {items : List β} {a : α} {fault : Fault}
    (h : (forEach work items a).fault = some fault) :
    ∃ before item later, items = before ++ item :: later
      ∧ (forEach work before a).fault = none
      ∧ (work item (forEach work before a).state).fault = some fault
      ∧ (forEach work items a).state = (work item (forEach work before a).state).state := by
  induction items generalizing a with
  | nil => cases h
  | cons item rest ih =>
    rw [forEach] at h ⊢
    cases hitem : (work item a).fault with
    | some fault' =>
      rw [andThen_of_fault hitem] at h ⊢
      exact ⟨[], item, rest, rfl, rfl, h, rfl⟩
    | none =>
      rw [andThen_of_no_fault hitem] at h ⊢
      obtain ⟨before, failing, later, rfl, hbefore, hfailing, hstate⟩ := ih h
      have hmore : forEach work (item :: before) a = _ := andThen_of_no_fault hitem _
      refine ⟨item :: before, failing, later, rfl, ?_, ?_, ?_⟩
      · rw [hmore]
        exact hbefore
      · rw [hmore]
        exact hfailing
      · rw [hmore]
        exact hstate

theorem forEach_singleton (work : β → α → Activity α) (item : β) (a : α) :
    (forEach work [item] a).fault = (work item a).fault
      ∧ (forEach work [item] a).state = (work item a).state := by
  rw [forEach]
  cases hitem : (work item a).fault with
  | some fault => rw [andThen_of_fault hitem, hitem]; exact ⟨rfl, rfl⟩
  | none => rw [andThen_of_no_fault hitem]; exact ⟨rfl, rfl⟩

end Activity

namespace Directory

variable {d d' : Directory}

/-- Whether a file can be created depends on the folders alone. -/
theorem SameFolders.create (h : d.SameFolders d') {path : String} {place : Place}
    {after : Directory} (hcreate : d.create path = .ok (place, after)) :
    d'.create path = .ok (place, d'.put place ⟨#[]⟩) := by
  unfold Directory.create at hcreate ⊢
  cases hfault : pathFault? path with
  | some cause =>
    rw [hfault] at hcreate
    cases hcreate
  | none =>
    simp only [hfault, bind, Except.bind] at hcreate ⊢
    generalize hnamed : ((origin path).2.reverse.dropWhile List.isEmpty).reverse = named at hcreate ⊢
    cases hwalk : d.walk (origin path).1 named.dropLast with
    | error cause =>
      rw [hwalk] at hcreate
      cases hcreate
    | ok folder =>
      rw [h.walk hwalk]
      simp only [hwalk, h _] at hcreate ⊢
      split_ifs at hcreate ⊢
      obtain ⟨rfl, -⟩ := Prod.mk.inj (Except.ok.inj hcreate)
      rfl

end Directory

/-! ## 2. One input -/

/-- All that the conversion of an input into a script of its own can come to. -/
inductive Attempted (settings : Settings) (input : String) (d : Directory)
    (a : Activity Directory) : Prop where
  /-- There is no script, and nothing has been done. -/
  | uncreated (cause : FileFault)
      (create : ∀ made, d.create (outputPath input) ≠ .ok made)
      (fault : a.fault = some (.file cause))
      (state : a.state = d)
  /-- There is a script, but no text to convert. -/
  | unreadable (place : Place) (cause : FileFault)
      (create : d.create (outputPath input) = .ok (place, d.put place ⟨#[]⟩))
      (unread : ∀ text, d.readText input ≠ .ok text)
      (fault : a.fault = some (.file cause))
      (state : a.state = d.put place (render preamble).toUTF8)
  /-- The text was converted, to its end or to a fault. -/
  | converted (place : Place) (text : String)
      (create : d.create (outputPath input) = .ok (place, d.put place ⟨#[]⟩))
      (read : d.readText input = .ok text)
      (fault : a.fault = (ofText input text settings Writer.new).fault)
      (state : a.state
        = d.put place (scriptText (ofText input text settings Writer.new)).toUTF8)

section Failures

variable {settings : Settings} {d : Directory}

/-- **One input.** An input that does not lie where its script goes comes to one of the three. That
it lies elsewhere matters to the reading alone: the script is created first, and would otherwise be
what is read. -/
theorem attempted_of_elsewhere {input : String}
    (hother : ∀ place, d.place (outputPath input) = .ok place → d.place input ≠ .ok place) :
    Attempted settings input d (Job.convertAlone settings input d) := by
  have hfault : (Job.convertAlone settings input d).fault = (Job.writeScript (outputPath input)
      (fun source => ofInput settings source input) d).fault := by
    unfold Job.convertAlone
    rw [Activity.andThen_of_no_fault rfl]
  have hstate : (Job.convertAlone settings input d).state = (Job.writeScript (outputPath input)
      (fun source => ofInput settings source input) d).state := by
    unfold Job.convertAlone
    rw [Activity.andThen_of_no_fault rfl]
  cases hcreate : d.create (outputPath input) with
  | error cause =>
    rw [Job.writeScript, hcreate] at hfault hstate
    refine .uncreated cause ?_ hfault hstate
    intro made hmade
    rw [hcreate] at hmade
    cases hmade
  | ok made =>
    obtain ⟨place, created⟩ := made
    obtain ⟨hleads, hgrounded, rfl⟩ := Directory.created_of_create hcreate
    obtain ⟨hfault', hstate'⟩ :=
      writeScript_of_create hcreate fun source => ofInput settings source input
    -- the input lies elsewhere, so the new script makes no difference to it
    have hread := Job.inputsBeside_of_elsewhere hgrounded (hother place hleads) ⟨#[]⟩ Writer.new
    have hsame : ∀ text, (d.put place ⟨#[]⟩).readText input = .ok text
        ↔ d.readText input = .ok text :=
      fun _ => Directory.readText_put_ok hgrounded (hother place hleads) ⟨#[]⟩
    rw [ofInput, hread] at hfault' hstate'
    cases htext : (d.put place ⟨#[]⟩).readText input with
    | error cause =>
      rw [htext] at hfault' hstate'
      refine .unreadable place cause hcreate ?_ (hfault.trans hfault') (hstate.trans hstate')
      intro text hok
      rw [← hsame, htext] at hok
      cases hok
    | ok text =>
      rw [htext] at hfault' hstate'
      exact .converted place text hcreate ((hsame text).1 htext) (hfault.trans hfault')
        (hstate.trans hstate')

/-- Whatever an input comes to, only its script is touched. -/
theorem Attempted.onlyScripts {input : String} {a : Activity Directory}
    (h : Attempted settings input d a) : OnlyScripts [input] d a.state := by
  cases h with
  | uncreated cause create fault state =>
    rw [state]
    exact ⟨Directory.SameFolders.refl d, fun _ _ => rfl⟩
  | unreadable place cause create unread fault state =>
    obtain ⟨hleads, hgrounded, -⟩ := Directory.created_of_create create
    rw [state]
    exact onlyScripts_put hleads hgrounded _
  | converted place text create read fault state =>
    obtain ⟨hleads, hgrounded, -⟩ := Directory.created_of_create create
    rw [state]
    exact onlyScripts_put hleads hgrounded _

/-! ## 3. Scripts and inputs that do not meet -/

/-- Whether the scripts of some inputs are files of their own: no two of them are the same file, and
none is one of the inputs. -/
structure Clear (d : Directory) (inputs : List String) : Prop where
  scripts : inputs.Pairwise fun i j =>
    ∀ place, d.place (outputPath i) = .ok place → d.place (outputPath j) ≠ .ok place
  sources : ∀ i ∈ inputs, ∀ j ∈ inputs,
    ∀ place, d.place (outputPath i) = .ok place → d.place j ≠ .ok place

/-- Fewer scripts and inputs are less in the way of each other. -/
theorem Clear.sublist {inputs some : List String} (h : Clear d inputs)
    (hsome : some.Sublist inputs) : Clear d some where
  scripts := h.scripts.sublist hsome
  sources i hi j hj := h.sources i (hsome.subset hi) j (hsome.subset hj)

/-- The scripts of some inputs are not those of the inputs behind them. -/
theorem Clear.scripts_append {first second : List String} (h : Clear d (first ++ second)) :
    ∀ i ∈ first, ∀ j ∈ second,
      ∀ place, d.place (outputPath i) = .ok place → d.place (outputPath j) ≠ .ok place :=
  (List.pairwise_append.1 h.scripts).2.2

/-- Inputs with scripts of their own are apart from each other, once the scripts have places. -/
theorem Clear.apart {inputs : List String} (h : Clear d inputs)
    (hplaces : ∀ i ∈ inputs, ∃ place, d.place (outputPath i) = .ok place) :
    Apart settings d inputs := by
  constructor
  · intro i hi j hj hsame
    obtain ⟨place, hplace⟩ := hplaces i hi
    exact h.sources i hi j hj place hplace (hsame.symm.trans hplace)
  · intro i hi j hj hsame s t hs ht
    obtain ⟨place, hplace⟩ := hplaces i hi
    by_cases hij : i = j
    · subst hij
      obtain rfl := Except.ok.inj (hs.symm.trans ht)
      rfl
    · have hsymmetric : Std.Symm fun i j : String =>
          ∀ place, d.place (outputPath i) = .ok place → d.place (outputPath j) ≠ .ok place :=
        ⟨fun i j hne place hj hi => hne place hi hj⟩
      exact absurd (hsame.symm.trans hplace) (h.scripts.forall hi hj hij place hplace)

/-- Frames add up: what neither part of a run touches is as it was before both. -/
theorem OnlyScripts.trans {first second : List String} {d' d'' : Directory}
    (h : OnlyScripts first d d') (h' : OnlyScripts second d' d'') :
    OnlyScripts (first ++ second) d d'' where
  folders := h.folders.trans h'.folders
  others place hother := by
    rw [h'.others place, h.others place]
    · exact fun i hi => hother i (List.mem_append_left second hi)
    · intro i hi hleads
      exact hother i (List.mem_append_right first hi) (h.folders.place_ok.1 hleads)

/-- What does not lie where a script lies reads as before. -/
theorem OnlyScripts.read_ok {inputs : List String} {d' : Directory} (h : OnlyScripts inputs d d')
    {path : String} (hother : ∀ place, d.place path = .ok place →
      ∀ i ∈ inputs, d.place (outputPath i) ≠ .ok place) {bytes : ByteArray} :
    d'.read path = .ok bytes ↔ d.read path = .ok bytes :=
  h.folders.read_iff fun place hplace => h.others place (hother place hplace)

/-! ## 4. The inputs before the failing one -/

/-- Scripts that were created one after the other could have been created at the start. -/
theorem created_of_forEach {inputs : List String}
    (h : (Activity.forEach (Job.convertAlone settings) inputs d).fault = none) :
    ∀ i ∈ inputs, ∃ place, d.create (outputPath i) = .ok (place, d.put place ⟨#[]⟩) := by
  induction inputs generalizing d with
  | nil =>
    intro i hi
    cases hi
  | cons input rest ih =>
    obtain ⟨hfirst, hrest, -⟩ := Activity.parts_of_andThen h
    obtain ⟨place, script, hstored⟩ := stored_of_convertAlone hfirst
    have hfolders := (onlyScripts_of_stored hstored).folders
    intro i hi
    obtain rfl | hi := List.mem_cons.1 hi
    · unfold Job.convertAlone at hfirst
      obtain ⟨-, hwritten, -⟩ := Activity.parts_of_andThen hfirst
      obtain ⟨place, created, hcreate, -⟩ := stored_of_writeScript hwritten
      exact ⟨place, (Directory.SameFolders.refl d).create hcreate⟩
    · obtain ⟨place, hcreate⟩ := ih hrest i hi
      exact ⟨place, hfolders.symm.create hcreate⟩

/-- The job to convert one input of a job and no other. -/
def Job.only (job : Job) (input : String) : Job :=
  { job with inputs := [input] }

/-- What a job without a joint script comes to. -/
theorem Job.carryOut_separately {job : Job} (hsettings : job.settings d = .ok settings)
    (houtput : job.output = none) :
    (job.carryOut d).2.fault = (Activity.forEach (Job.convertAlone settings) job.inputs d).fault
      ∧ (job.carryOut d).2.state
        = (Activity.forEach (Job.convertAlone settings) job.inputs d).state := by
  rw [Job.carryOut_of_settings hsettings, Activity.andThen_of_no_fault rfl]
  unfold Job.convert
  rw [Activity.andThen_of_no_fault rfl]
  simp only [houtput, and_self]

/-- A run on one input that can be read and converted leaves its script. -/
theorem carryOut_only {job : Job} (hsettings : job.settings d = .ok settings)
    (houtput : job.output = none) {input text : String} {place : Place}
    (hcreate : d.create (outputPath input) = .ok (place, d.put place ⟨#[]⟩))
    (hother : ∀ place, d.place (outputPath input) = .ok place → d.place input ≠ .ok place)
    (htext : d.readText input = .ok text)
    (hfault : (ofText input text settings Writer.new).fault = none) :
    ((job.only input).carryOut d).2.fault = none
      ∧ ((job.only input).carryOut d).2.state.read (outputPath input)
        = .ok (ofText input text settings Writer.new).state.finishedText.toUTF8 := by
  have hsame : (job.only input).settings d = .ok settings := hsettings
  obtain ⟨hrun, hrunState⟩ := Job.carryOut_separately hsame houtput
  obtain ⟨hone, honeState⟩ := Activity.forEach_singleton (Job.convertAlone settings) input d
  have hinputs : (job.only input).inputs = [input] := rfl
  rw [hrun, hrunState, hinputs, hone, honeState]
  have hattempted : Attempted settings input d (Job.convertAlone settings input d) :=
    attempted_of_elsewhere hother
  cases hattempted with
  | uncreated cause create fault state => exact absurd hcreate (create _)
  | unreadable found cause create unread fault state => exact absurd htext (unread text)
  | converted found text' create read fault state =>
    obtain rfl := Except.ok.inj (htext.symm.trans read)
    obtain ⟨hleads, hgrounded, -⟩ := Directory.created_of_create create
    rw [fault, state, scriptText, hfault]
    exact ⟨rfl, Directory.read_put hgrounded hleads _⟩

/-- Whether a run has left an input and its script as a run on this input alone leaves them. -/
structure AsAlone (job : Job) (settings : Settings) (d after : Directory) (input : String) :
    Prop where
  kept : Kept settings d after input
  succeeds : ((job.only input).carryOut d).2.fault = none
  script : after.read (outputPath input)
    = ((job.only input).carryOut d).2.state.read (outputPath input)

/-- What was kept once is kept while other scripts are written elsewhere. -/
theorem Kept.of_onlyScripts {d' after : Directory} {i : String} {inputs : List String}
    (h : Kept settings d d' i) (hfolders : d.SameFolders d') (hframe : OnlyScripts inputs d' after)
    (hsource : ∀ place, d.place i = .ok place → ∀ j ∈ inputs, d.place (outputPath j) ≠ .ok place)
    (hscript : ∀ place, d.place (outputPath i) = .ok place →
      ∀ j ∈ inputs, d.place (outputPath j) ≠ .ok place) : Kept settings d after i := by
  have hstill : ∀ path, (∀ place, d.place path = .ok place →
      ∀ j ∈ inputs, d.place (outputPath j) ≠ .ok place) →
      ∀ bytes, after.read path = .ok bytes ↔ d'.read path = .ok bytes := by
    intro path hother bytes
    apply hframe.read_ok
    intro place hplace j hj hleads
    exact hother place (hfolders.place_ok.1 hplace) j hj (hfolders.place_ok.1 hleads)
  obtain ⟨text, htext, hfault, hread⟩ := h.script
  obtain ⟨bytes, hbytes, -⟩ := Directory.readText_ok.1 htext
  refine ⟨?_, text, htext, hfault, (hstill _ hscript _).2 hread⟩
  rw [hbytes, hstill i hsource, h.contents, hbytes]

/-- **What went well stays.** The inputs before the failing one, and their scripts, are as runs on
their own leave them, whatever is done to the script of the failing one. -/
theorem asAlone_of_before {job : Job} (hsettings : job.settings d = .ok settings)
    (houtput : job.output = none) {before : List String} {input : String}
    (hclear : Clear d (before ++ [input]))
    (hbefore : (Activity.forEach (Job.convertAlone settings) before d).fault = none)
    {after : Directory}
    (hframe : OnlyScripts [input]
      (Activity.forEach (Job.convertAlone settings) before d).state after) :
    ∀ i ∈ before, AsAlone job settings d after i := by
  intro i hi
  obtain ⟨hwritten, hplaces⟩ := onlyScripts_of_forEach hbefore
  have hall : i ∈ before ++ [input] := List.mem_append_left _ hi
  have hlast : input ∈ before ++ [input] := List.mem_append_right _ List.mem_cons_self
  have hkept : Kept settings d after i := by
    apply (kept_of_apart ((hclear.sublist (List.sublist_append_left _ _)).apart hplaces) hbefore i
      hi).of_onlyScripts hwritten.folders hframe
    · intro place hplace j hj hleads
      obtain rfl := List.mem_singleton.1 hj
      exact hclear.sources j hlast i hall place hleads hplace
    · intro place hplace j hj
      exact hclear.scripts_append i hi j hj place hplace
  obtain ⟨text, htext, hfault, hread⟩ := hkept.script
  obtain ⟨place, hcreate⟩ := created_of_forEach hbefore i hi
  obtain ⟨hsucceeds, hscript⟩ := carryOut_only hsettings houtput hcreate
    (hclear.sources i hall i hall) htext hfault
  exact ⟨hkept, hsucceeds, hread.trans hscript.symm⟩

/-! ## 5. The failing input -/

/-- What a run has left of the input at which it failed, and why it failed. -/
inductive Broken (settings : Settings) (d after : Directory) (input : String) (fault : Fault) :
    Prop where
  /-- Its script could not be created. Whatever is at the end of the path is as it was. -/
  | uncreated (cause : FileFault) (fault_eq : fault = .file cause)
      (create : ∀ made, d.create (outputPath input) ≠ .ok made)
      (script : ∀ place, d.place (outputPath input) = .ok place →
        after.contents? place = d.contents? place)
  /-- It could not be read as text. Its script is what every script begins with. -/
  | unreadable (place : Place) (cause : FileFault) (fault_eq : fault = .file cause)
      (create : d.create (outputPath input) = .ok (place, d.put place ⟨#[]⟩))
      (unread : ∀ text, d.readText input ≠ .ok text)
      (script : after.contents? place = some (render preamble).toUTF8)
  /-- One of its codes could not be carried out. Its script has the waves of the codes before, and
  no trailer. -/
  | faulted (place : Place) (text : String) (earlier : List Token)
      (create : d.create (outputPath input) = .ok (place, d.put place ⟨#[]⟩))
      (read : d.readText input = .ok text)
      (behind : (Interpreter.new Writer.new settings.units settings.offsets).FaultsBehind
        (tokens text) earlier fault)
      (script : after.contents? place = some (render (preamble ++ body 0
        ((Interpreter.new Writer.new settings.units settings.offsets).runTokens
          earlier).drawings)).toUTF8)

/-- What an input comes to behind others is what it would have come to at the start, as far as files
that do not meet are concerned. Creating needs the folders alone, and reading needs the input, which
the scripts before have left alone. -/
theorem broken_of_attempted {before : List String} {input : String}
    (hclear : Clear d (before ++ [input])) {d' : Directory} (hframe : OnlyScripts before d d')
    {a : Activity Directory} (h : Attempted settings input d' a) {fault : Fault}
    (hfault : a.fault = some fault) : Broken settings d a.state input fault := by
  have hlast : input ∈ before ++ [input] := List.mem_append_right _ List.mem_cons_self
  -- the scripts before have left the input alone
  have hread : ∀ text, d'.readText input = .ok text ↔ d.readText input = .ok text := by
    intro text
    apply hframe.folders.readText_ok
    intro place hplace
    apply hframe.others place
    intro i hi hleads
    exact hclear.sources i (List.mem_append_left _ hi) input hlast place hleads hplace
  cases h with
  | uncreated cause create fault' state =>
    refine .uncreated cause (Option.some.inj (hfault.symm.trans fault')) ?_ ?_
    · rintro ⟨place, made⟩ hmade
      exact create _ (hframe.folders.create hmade)
    · intro place hplace
      rw [state]
      apply hframe.others place
      intro i hi hleads
      exact hclear.scripts_append i hi input List.mem_cons_self place hleads hplace
  | unreadable place cause create unread fault' state =>
    refine .unreadable place cause (Option.some.inj (hfault.symm.trans fault'))
      (hframe.folders.symm.create create) ?_ ?_
    · intro text htext
      exact unread text ((hread text).2 htext)
    · rw [state, Directory.contents?_put, if_pos rfl]
  | converted place text create read fault' state =>
    obtain ⟨hrun, -, hscript⟩ := runTokens_of_ofText (fault'.symm.trans hfault)
    have haccepting : Plotter.Accepting
        (Interpreter.new Writer.new settings.units settings.offsets).plotter :=
      Writer.accepting Writer.new
    obtain ⟨earlier, hbehind, hafter, -⟩ := Interpreter.exists_fault_of_run haccepting hrun
    refine .faulted place text earlier (hframe.folders.symm.create create) ((hread text).1 read)
      hbehind ?_
    have hnew : (Interpreter.new Writer.new settings.units settings.offsets).plotter
        = Writer.new.performAll [] := rfl
    rw [state, Directory.contents?_put, if_pos rfl, hscript, hafter, Interpreter.text_run hnew]
    rfl

/-! ## 6. Whole runs -/

/-- Whether a run ends before its first input: it is asked for help, or there is no telling what it
is asked for, or its settings cannot be settled. -/
inductive Unstarted (arguments : List String) (d : Directory) : Prop where
  | help (request : Request.ofArguments arguments = .ok .help)
  /-- A bad or missing value, an option that does not exist, or no input. -/
  | usage (cause : UsageFault) (request : Request.ofArguments arguments = .error cause)
  /-- The configuration file cannot be read, or makes no sense. -/
  | configuration (job : Job) (fault : Fault)
      (request : Request.ofArguments arguments = .ok (.convert job))
      (configure : (job.configure d).2 = .error fault)
  /-- There are no such units, or an offset makes no sense. -/
  | settings (job : Job) (preferences : Preferences) (fault : Fault)
      (request : Request.ofArguments arguments = .ok (.convert job))
      (configure : (job.configure d).2 = .ok preferences)
      (resolve : Settings.resolve job.preferences preferences = .error fault)

/-- A run gets as far as its first input if and only if its settings are settled. -/
theorem unstarted_iff {arguments : List String} :
    Unstarted arguments d ↔ ∀ job settings,
      Request.ofArguments arguments = .ok (.convert job) → job.settings d ≠ .ok settings := by
  constructor
  · intro h job settings hrequest hsettings
    unfold Job.settings at hsettings
    cases h with
    | help request => cases request.symm.trans hrequest
    | usage cause request => cases request.symm.trans hrequest
    | configuration job' fault request configure =>
      cases request.symm.trans hrequest
      rw [configure] at hsettings
      cases hsettings
    | settings job' preferences fault request configure resolve =>
      cases request.symm.trans hrequest
      rw [configure] at hsettings
      cases resolve.symm.trans hsettings
  · intro h
    cases hrequest : Request.ofArguments arguments with
    | error cause => exact .usage cause hrequest
    | ok request =>
      cases request with
      | help => exact .help hrequest
      | convert job =>
        cases hconfigure : (job.configure d).2 with
        | error fault => exact .configuration job fault hrequest hconfigure
        | ok preferences =>
          cases hresolve : Settings.resolve job.preferences preferences with
          | error fault => exact .settings job preferences fault hrequest hconfigure hresolve
          | ok settings =>
            refine absurd ?_ (h job settings hrequest)
            unfold Job.settings
            rw [hconfigure]
            exact hresolve

/-- No file is created before the settings are settled. -/
theorem directory_of_unstarted {arguments : List String} (h : Unstarted arguments d) :
    (execute arguments d).directory = d := by
  have hjob : ∀ job fault, Request.ofArguments arguments = .ok (.convert job) →
      job.settings d = .error fault → (execute arguments d).directory = d := by
    intro job fault hrequest hsettings
    rw [(execute_of_convert hrequest).2, Job.carryOut_of_fault hsettings]
  cases h with
  | help request => rw [execute, request]
  | usage cause request => rw [execute, request]
  | configuration job fault request configure =>
    apply hjob job fault request
    rw [Job.settings, configure]
    rfl
  | settings job preferences fault request configure resolve =>
    apply hjob job fault request
    rw [Job.settings, configure]
    exact resolve

/-- **An interrupted run.** What a run that failed at an input has left: the scripts of the inputs
before, the beginning of a script for that input, and all else as it was. -/
structure Interrupted (job : Job) (settings : Settings) (d after : Directory) (before : List String)
    (input : String) (later : List String) (fault : Fault) : Prop where
  inputs : job.inputs = before ++ input :: later
  fails : (job.carryOut d).2.fault = some fault
  finished : ∀ i ∈ before, AsAlone job settings d after i
  broken : Broken settings d after input fault
  frame : OnlyScripts (before ++ [input]) d after
  later : ∀ i ∈ later, ∀ place, d.place (outputPath i) = .ok place →
    after.contents? place = d.contents? place

/-- **Where a run is interrupted.** The split at the failing input, with what is known of each of
its parts. -/
theorem interrupted_of_fault {job : Job} (hsettings : job.settings d = .ok settings)
    (houtput : job.output = none) (hclear : Clear d job.inputs) {fault : Fault}
    (hfault : (job.carryOut d).2.fault = some fault) :
    ∃ before input later,
      Interrupted job settings d (job.carryOut d).2.state before input later fault := by
  obtain ⟨hrun, hstate⟩ := Job.carryOut_separately hsettings houtput
  obtain ⟨before, input, later, hinputs, hbefore, hinput, hlast⟩ :=
    Activity.exists_fault_of_forEach (hrun.symm.trans hfault)
  have hsplit : job.inputs = (before ++ [input]) ++ later := by
    rw [hinputs, List.append_assoc]
    rfl
  rw [hsplit] at hclear
  have hclear' : Clear d (before ++ [input]) := hclear.sublist (List.sublist_append_left _ _)
  obtain ⟨hwritten, -⟩ := onlyScripts_of_forEach hbefore
  -- the script of the failing input is not the input, and still is not when its turn comes
  have hattempted : Attempted settings input
      (Activity.forEach (Job.convertAlone settings) before d).state
      (Job.convertAlone settings input
        (Activity.forEach (Job.convertAlone settings) before d).state) := by
    apply attempted_of_elsewhere
    intro place hscript hsource
    have hmem : input ∈ before ++ [input] := List.mem_append_right _ List.mem_cons_self
    exact hclear'.sources input hmem input hmem place (hwritten.folders.place_ok.1 hscript)
      (hwritten.folders.place_ok.1 hsource)
  have hframe := hwritten.trans hattempted.onlyScripts
  rw [hstate, hlast]
  refine ⟨before, input, later, hinputs, hfault,
    asAlone_of_before hsettings houtput hclear' hbefore hattempted.onlyScripts,
    broken_of_attempted hclear' hwritten hattempted hinput, hframe, ?_⟩
  intro i hi place hplace
  apply hframe.others place
  intro j hj hleads
  exact hclear.scripts_append j hj i hi place hleads hplace

/-- **Failures are contained.** A run that does not get as far as its first input changes no file.
Any other run has settled its settings; if it has no joint script, if its scripts are files of their
own, and if it fails, then it was interrupted at one of its inputs: the scripts before are those of
runs on single inputs, the script of that input has the waves that were complete and no trailer, and
no other file is touched. -/
theorem failures_contained (arguments : List String) (d : Directory) :
    (Unstarted arguments d → (execute arguments d).directory = d)
      ∧ (¬Unstarted arguments d → ∃ job settings,
        Request.ofArguments arguments = .ok (.convert job) ∧ job.settings d = .ok settings
          ∧ (job.output = none → Clear d job.inputs → (execute arguments d).succeeded = false →
            ∃ before input later fault, Interrupted job settings d (execute arguments d).directory
              before input later fault)) := by
  refine ⟨directory_of_unstarted, ?_⟩
  intro hstarted
  rw [unstarted_iff] at hstarted
  push Not at hstarted
  obtain ⟨job, settings, hrequest, hsettings⟩ := hstarted
  refine ⟨job, settings, hrequest, hsettings, ?_⟩
  intro houtput hclear hfailed
  obtain ⟨hsucceeded, hdirectory⟩ := execute_of_convert (d := d) hrequest
  rw [hsucceeded, Option.isNone_eq_false_iff, Option.isSome_iff_exists] at hfailed
  obtain ⟨fault, hfault⟩ := hfailed
  obtain ⟨before, input, later, hinterrupted⟩ :=
    interrupted_of_fault hsettings houtput hclear hfault
  rw [hdirectory]
  exact ⟨before, input, later, fault, hinterrupted⟩

end Failures

/-- A plate, a frame whose second drill code comes while a path is open, and a third input that has
a script already. -/
def faultyDirectory : Directory :=
  ⟨[(["plate.gbr"], "D1X5Y6D2M0".toUTF8), (["frame.gbr"], "D1D2RD1R".toUTF8),
    (["cover.gbr"], "M0".toUTF8), (["cover.itx"], "IGOR".toUTF8)], []⟩

theorem clear_faultyDirectory :
    Clear faultyDirectory ["plate.gbr", "frame.gbr", "cover.gbr"] := by
  have hplate : faultyDirectory.place (outputPath "plate.gbr") = .ok ["plate.itx"] := rfl
  have hframe : faultyDirectory.place (outputPath "frame.gbr") = .ok ["frame.itx"] := rfl
  have hcover : faultyDirectory.place (outputPath "cover.gbr") = .ok ["cover.itx"] := rfl
  have hplate' : faultyDirectory.place "plate.gbr" = .ok ["plate.gbr"] := rfl
  have hframe' : faultyDirectory.place "frame.gbr" = .ok ["frame.gbr"] := rfl
  have hcover' : faultyDirectory.place "cover.gbr" = .ok ["cover.gbr"] := rfl
  constructor
  · simp [hplate, hframe, hcover]
  · simp [hplate, hframe, hcover, hplate', hframe', hcover']

/-- A run for help changes nothing, and a run on the three inputs ends at the second one. -/
theorem failures_contained_sample :
    (execute ["plate.gbr", "--help"] faultyDirectory).directory = faultyDirectory
      ∧ (execute ["plate.gbr", "frame.gbr", "cover.gbr"] faultyDirectory).succeeded = false
      ∧ ∃ before input later fault,
        Interrupted (plainJob ["plate.gbr", "frame.gbr", "cover.gbr"]) standardSettings
          faultyDirectory
          (execute ["plate.gbr", "frame.gbr", "cover.gbr"] faultyDirectory).directory before input
          later fault := by
  have hrequest : Request.ofArguments ["plate.gbr", "frame.gbr", "cover.gbr"]
      = .ok (.convert (plainJob ["plate.gbr", "frame.gbr", "cover.gbr"])) := rfl
  have hsettings : (plainJob ["plate.gbr", "frame.gbr", "cover.gbr"]).settings faultyDirectory
      = .ok standardSettings := rfl
  have hfailed : (execute ["plate.gbr", "frame.gbr", "cover.gbr"] faultyDirectory).succeeded
      = false := by
    decide +kernel
  have hstarted : ¬Unstarted ["plate.gbr", "frame.gbr", "cover.gbr"] faultyDirectory := by
    rw [unstarted_iff]
    exact fun h => h _ _ hrequest hsettings
  refine ⟨(failures_contained _ faultyDirectory).1 (.help rfl), hfailed, ?_⟩
  obtain ⟨job, settings, hjob, hsettled, hcontained⟩ :=
    (failures_contained _ faultyDirectory).2 hstarted
  cases hrequest.symm.trans hjob
  obtain rfl := Except.ok.inj (hsettings.symm.trans hsettled)
  exact hcontained rfl clear_faultyDirectory hfailed

end Photoplot
