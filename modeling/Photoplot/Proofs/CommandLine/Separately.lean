import Photoplot.Proofs.CommandLine.Runs
import Photoplot.Proofs.Conversion.Concatenation

/-!
Scripts of their own, and the files they take the place of.

Without a joint script every input is converted into a file whose name is made from its own, and
nobody looks whether there is such a file: it may be another input, or the script of another input,
or the input itself. `separate_runs_keep_iff` says what it takes for a run to keep all inputs and
all scripts.

**What is proved, and where the work is.**

* One script: a conversion that went well has put one file at the place of its script, and if the
  input lies elsewhere, the file is what comes of the input as it was (`stored_of_convertAlone`).
* All scripts: nothing but the places of the scripts is touched (`onlyScripts_of_forEach`), and
  where inputs and scripts are apart every script is what comes of its input (`stores_of_forEach`).
  The latter goes by induction on the inputs that are still to be converted, while the condition is
  about all of them, so it carries along that all inputs lie where they lay. Two scripts may have
  the same place if they have the same text.
* The converse takes a fact about scripts: that a script cannot stand in for an input. If a script
  lies where an input was, then keeping the input means that it was this very script before, and
  read as a command file every script fails in its second line (`script_faults`). The fault is that
  of a slash, which stands in the first directive; nothing behind it is looked at, so it does not
  matter what was plotted.

`script_or_input_lost` shows two runs that succeed and are not apart: two inputs that differ in
their extensions alone, and an input with the extension of a script.
-/

set_option autoImplicit false

namespace Photoplot

open Script (Writer)
open Conversion

/-! ## 1. A script that is read as a command file -/

/-- The beginning of every script, up to the first code that cannot be carried out. -/
def opening : String := "IGOR\nX Display /"

/-- The letters before the slash are codes that are carried out or passed over, and the slash is one
that is not supported. -/
theorem outcome_opening (settings : Settings) :
    (course settings opening).outcome = .error (.unsupported .blockDelete) := by
  have hreadings : readings opening = [.token (.command 'I' none), .token (.command 'G' none),
      .token (.command 'O' none), .token (.command 'R' none), .token (.command 'D' none),
      .token (.command '/' none)] := by
    have htext : Scanner.ofText opening = ⟨['I', 'G', 'O', 'R', '\n', 'X', ' ', 'D', 'i', 's', 'p',
        'l', 'a', 'y', ' ', '/'], 0⟩ := rfl
    rw [readings, htext, Scanner.readings_of_some rfl, Scanner.readings_of_some rfl,
      Scanner.readings_of_some rfl, Scanner.readings_of_some rfl, Scanner.readings_of_some rfl,
      Scanner.readings_of_some rfl, Scanner.readings_of_none rfl]
    rfl
  rw [course, hreadings]
  rfl

/-- Every finished script begins so, and no digit follows. -/
theorem exists_finishedText_eq {w : Writer} {drawings : List Drawing}
    (h : Writer.new.Wrote drawings w) :
    ∃ rest, w.finishedText = opening ++ rest ∧ NoDigitAhead rest.toList := by
  have hfirst : Script.render [.title, .directive .display]
      = opening ++ ("W" ++ "=(35,45,1797,1294) /N=GerberPlot\n") := by
    decide +kernel
  obtain ⟨more, hmore⟩ : ∃ more, w.blocks.toList ++ w.trailer
      = [.title, .directive .display] ++ more := by
    rw [h.blocks_of_new, List.append_assoc]
    exact ⟨_, rfl⟩
  refine ⟨"W" ++ ("=(35,45,1797,1294) /N=GerberPlot\n" ++ Script.render more), ?_, ?_⟩
  · rw [Writer.finishedText, hmore, Script.render_append, hfirst, String.append_assoc,
      String.append_assoc]
  · rw [String.toList_append]
    exact noDigitAhead_cons rfl _

/-- **No script is a command file.** Converting a finished script comes to a fault. -/
theorem script_faults {w : Writer} {drawings : List Drawing} (h : Writer.new.Wrote drawings w)
    (name : String) (settings : Settings) (w' : Writer) :
    (ofText name w.finishedText settings w').fault ≠ none := by
  obtain ⟨rest, htext, hrest⟩ := exists_finishedText_eq h
  have hcourse := outcome_opening settings
  have hrun := Interpreter.run_of_accepting
    (i := Interpreter.new w' settings.units settings.offsets) (Writer.accepting w')
    (readings opening)
  have houtcome : ((Interpreter.new w' settings.units settings.offsets).runText opening).outcome
      = .error (.unsupported .blockDelete) := hrun.outcome.trans hcourse
  have hend : ((Interpreter.new w' settings.units settings.offsets).runText opening).outcome
      ≠ .ok .proceed := by
    rw [houtcome]
    intro h
    cases h
  -- what stands behind the slash is not looked at
  have hsame : ofText name (opening ++ rest) settings w' = ofText name opening settings w' := by
    rw [ofText, Interpreter.runText_append_of_end hrest hend]
    rfl
  rw [htext, hsame, (ofText_eq name opening settings w').2, hcourse]
  exact Option.some_ne_none _

/-! ## 2. One script -/

namespace Directory

variable {d d' : Directory}

/-- What is put at a place makes no difference to a path that leads elsewhere. -/
theorem readText_put_ok {place : Place} (hplace : d.Grounded place) {path text : String}
    (hpath : d.place path ≠ .ok place) (bytes : ByteArray) :
    (d.put place bytes).readText path = .ok text ↔ d.readText path = .ok text := by
  apply (isFolder_put hplace bytes).readText_ok
  intro other hother
  rw [contents?_put, if_neg]
  rintro rfl
  exact hpath hother

end Directory

/-- An input that is not the script is read as it lies there. -/
theorem Job.inputsBeside_of_elsewhere {d : Directory} {place : Place} (hplace : d.Grounded place)
    {input : String} (hother : d.place input ≠ .ok place) (bytes : ByteArray) (w : Writer) :
    Job.inputsBeside place (d.put place bytes) w input = (d.put place bytes).readText input := by
  have hleadsTo : (d.put place bytes).leadsTo input place = false := by
    unfold Directory.leadsTo
    cases hfound : (d.put place bytes).place input with
    | error cause => rfl
    | ok found =>
      have hleads := (Directory.isFolder_put hplace bytes).place_ok.1 hfound
      apply beq_false_of_ne
      rintro rfl
      exact hother hleads
  rw [Job.inputsBeside, hleadsTo]
  rfl

/-- What is left of the conversion of one input into a script of its own: a file at the place of the
script, and nothing else. If that is not the place of the input, the script is what comes of the
contents of the input. -/
structure Stored (settings : Settings) (input : String) (d after : Directory) (place : Place)
    (script : String) : Prop where
  leads : d.place (outputPath input) = .ok place
  grounded : d.Grounded place
  after_eq : after = d.put place script.toUTF8
  converted : d.place input ≠ .ok place → ∃ text, d.readText input = .ok text
    ∧ (ofText input text settings Writer.new).fault = none
    ∧ script = (ofText input text settings Writer.new).state.finishedText

/-- **One script.** A conversion on its own that went well has stored a script. -/
theorem stored_of_convertAlone {settings : Settings} {input : String} {d : Directory}
    (h : (Job.convertAlone settings input d).fault = none) :
    ∃ place script,
      Stored settings input d (Job.convertAlone settings input d).state place script := by
  unfold Job.convertAlone at h ⊢
  obtain ⟨-, hwritten, hstate⟩ := Activity.parts_of_andThen h
  obtain ⟨place, created, hcreate, hconverted, hstored⟩ := stored_of_writeScript hwritten
  obtain ⟨hleads, hgrounded, rfl⟩ := Directory.created_of_create hcreate
  refine ⟨place, _, hleads, hgrounded, hstate.trans hstored, ?_⟩
  intro hother
  -- the input is not the script, so it is read as it was
  have hread := Job.inputsBeside_of_elsewhere hgrounded hother ⟨#[]⟩ Writer.new
  unfold ofInput at hconverted ⊢
  rw [hread] at hconverted ⊢
  cases htext : (d.put place ⟨#[]⟩).readText input with
  | error cause =>
    rw [htext] at hconverted
    cases hconverted
  | ok text =>
    rw [htext] at hconverted
    exact ⟨text, (Directory.readText_put_ok hgrounded hother ⟨#[]⟩).1 htext, hconverted, rfl⟩

/-! ## 3. All scripts -/

/-- Whether a run has kept an input and its script: the input has the contents that it had, and the
script is what comes of converting these on their own. -/
structure Kept (settings : Settings) (d after : Directory) (input : String) : Prop where
  contents : after.read input = d.read input
  script : ∃ text, d.readText input = .ok text
    ∧ (ofText input text settings Writer.new).fault = none
    ∧ after.read (outputPath input)
      = .ok (ofText input text settings Writer.new).state.finishedText.toUTF8

/-- Whether nothing is in the way of anything: no script has the place of an input, and scripts with
the same place have the same text. -/
structure Apart (settings : Settings) (d : Directory) (inputs : List String) : Prop where
  sources : ∀ i ∈ inputs, ∀ j ∈ inputs, d.place (outputPath i) ≠ d.place j
  scripts : ∀ i ∈ inputs, ∀ j ∈ inputs, d.place (outputPath i) = d.place (outputPath j) →
    ∀ s t, d.readText i = .ok s → d.readText j = .ok t →
      (ofText i s settings Writer.new).state.finishedText
        = (ofText j t settings Writer.new).state.finishedText

/-- What a run from one directory to another has left alone: the folders, and all that is not at the
place of a script. -/
structure OnlyScripts (inputs : List String) (d d' : Directory) : Prop where
  folders : d.SameFolders d'
  others : ∀ place, (∀ i ∈ inputs, d.place (outputPath i) ≠ .ok place) →
    d'.contents? place = d.contents? place

section Separately

variable {settings : Settings} {d : Directory}

/-- What is put where a script goes touches nothing else. -/
theorem onlyScripts_put {input : String} {place : Place}
    (hleads : d.place (outputPath input) = .ok place) (hgrounded : d.Grounded place)
    (bytes : ByteArray) :
    OnlyScripts [input] d (d.put place bytes) := by
  refine ⟨Directory.isFolder_put hgrounded bytes, ?_⟩
  intro other hother
  rw [Directory.contents?_put, if_neg]
  rintro rfl
  exact hother input List.mem_cons_self hleads

theorem onlyScripts_of_stored {input : String} {after : Directory} {place : Place} {script : String}
    (h : Stored settings input d after place script) : OnlyScripts [input] d after := by
  rw [h.after_eq]
  exact onlyScripts_put h.leads h.grounded _

/-- **The frame.** Scripts of their own change nothing but the files at their places, and each
script has a place. -/
theorem onlyScripts_of_forEach {inputs : List String}
    (h : (Activity.forEach (Job.convertAlone settings) inputs d).fault = none) :
    OnlyScripts inputs d (Activity.forEach (Job.convertAlone settings) inputs d).state
      ∧ ∀ i ∈ inputs, ∃ place, d.place (outputPath i) = .ok place := by
  induction inputs generalizing d with
  | nil =>
    refine ⟨⟨Directory.SameFolders.refl d, fun _ _ => rfl⟩, ?_⟩
    intro i hi
    cases hi
  | cons input rest ih =>
    obtain ⟨hfirst, hrest, hstate⟩ := Activity.parts_of_andThen h
    obtain ⟨place, script, hstored⟩ := stored_of_convertAlone hfirst
    have hone := onlyScripts_of_stored hstored
    obtain ⟨hmore, hplaces⟩ := ih hrest
    rw [Activity.forEach, hstate]
    refine ⟨⟨hone.folders.trans hmore.folders, ?_⟩, ?_⟩
    · intro other hother
      rw [hmore.others other, hone.others other]
      · intro i hi
        rw [List.mem_singleton.1 hi]
        exact hother input List.mem_cons_self
      · intro i hi hleads
        exact hother i (List.mem_cons_of_mem input hi) (hone.folders.place_ok.1 hleads)
    · intro i hi
      obtain rfl | hi := List.mem_cons.1 hi
      · exact ⟨place, hstored.leads⟩
      · obtain ⟨found, hfound⟩ := hplaces i hi
        exact ⟨found, hone.folders.place_ok.1 hfound⟩

/-- **The run law.** Where nothing is in the way of anything, a run on some of the inputs stores
their scripts, as long as all inputs lie where they lay. -/
theorem stores_of_forEach {all inputs : List String} (hapart : Apart settings d all)
    (hsub : ∀ i ∈ inputs, i ∈ all) {d' : Directory} (hfolders : d.SameFolders d')
    (hcontents : ∀ i ∈ all, ∀ place, d.place i = .ok place → d'.contents? place = d.contents? place)
    (h : (Activity.forEach (Job.convertAlone settings) inputs d').fault = none) :
    ∀ i ∈ inputs, ∃ text place, d.readText i = .ok text
      ∧ (ofText i text settings Writer.new).fault = none
      ∧ d.place (outputPath i) = .ok place
      ∧ (Activity.forEach (Job.convertAlone settings) inputs d').state.contents? place
        = some (ofText i text settings Writer.new).state.finishedText.toUTF8 := by
  induction inputs generalizing d' with
  | nil =>
    intro i hi
    cases hi
  | cons input rest ih =>
    obtain ⟨hfirst, hrest, hstate⟩ := Activity.parts_of_andThen h
    obtain ⟨place, script, hstored⟩ := stored_of_convertAlone hfirst
    have hone := onlyScripts_of_stored hstored
    have hinput : input ∈ all := hsub input List.mem_cons_self
    have hplace : d.place (outputPath input) = .ok place := hfolders.place_ok.1 hstored.leads
    -- the input lies elsewhere, and there it was left alone
    have helsewhere : ∀ i ∈ all, d.place i ≠ .ok place := by
      intro i hi
      rw [← hplace]
      exact (hapart.sources input hinput i hi).symm
    obtain ⟨text, htext, hfault, hscript⟩ := hstored.converted fun hleads =>
      helsewhere input hinput (hfolders.place_ok.1 hleads)
    have htext' : d.readText input = .ok text :=
      (hfolders.readText_ok (hcontents input hinput)).1 htext
    have hmore := ih (fun i hi => hsub i (List.mem_cons_of_mem input hi))
      (hfolders.trans hone.folders) (by
        intro i hi other hother
        rw [hone.others other, hcontents i hi other hother]
        intro j hj hleads
        rw [List.mem_singleton.1 hj, hstored.leads] at hleads
        exact helsewhere i hi (hother.trans hleads.symm)) hrest
    rw [Activity.forEach, hstate]
    intro i hi
    obtain rfl | hi := List.mem_cons.1 hi
    · refine ⟨text, place, htext', hfault, hplace, ?_⟩
      by_cases hlater : ∃ j ∈ rest, d.place (outputPath j) = .ok place
      · -- a later script at the same place has the same text
        obtain ⟨j, hj, hleads⟩ := hlater
        obtain ⟨text', place', htext'', -, hleads', hcontents'⟩ := hmore j hj
        obtain rfl := Except.ok.inj (hleads.symm.trans hleads')
        have hj' : j ∈ all := hsub j (List.mem_cons_of_mem i hj)
        rw [hcontents', hapart.scripts j hj' i hinput (hleads.trans hplace.symm) text' text htext''
          htext']
      · rw [(onlyScripts_of_forEach hrest).1.others place, hstored.after_eq,
          Directory.contents?_put, if_pos rfl, hscript]
        intro j hj hleads
        exact hlater ⟨j, hj, (hfolders.trans hone.folders).place_ok.1 hleads⟩
    · exact hmore i hi

/-- Where nothing is in the way of anything, everything is kept. -/
theorem kept_of_apart {inputs : List String} (hapart : Apart settings d inputs)
    (h : (Activity.forEach (Job.convertAlone settings) inputs d).fault = none) :
    ∀ i ∈ inputs,
      Kept settings d (Activity.forEach (Job.convertAlone settings) inputs d).state i := by
  obtain ⟨hframe, -⟩ := onlyScripts_of_forEach h
  have hstores := stores_of_forEach hapart (fun i hi => hi) (Directory.SameFolders.refl d)
    (fun _ _ _ _ => rfl) h
  intro i hi
  obtain ⟨text, place, htext, hfault, hplace, hcontents⟩ := hstores i hi
  refine ⟨?_, text, htext, hfault, (hframe.folders.read_ok hplace).2 hcontents⟩
  obtain ⟨bytes, hbytes, -⟩ := Directory.readText_ok.1 htext
  obtain ⟨source, hsource, hsourceContents⟩ := Directory.read_ok.1 hbytes
  rw [hbytes]
  apply (hframe.folders.read_ok hsource).2
  rw [hframe.others source, hsourceContents]
  intro j hj hleads
  exact hapart.sources j hj i hi (hleads.trans hsource.symm)

/-- Where everything is kept, nothing was in the way of anything. -/
theorem apart_of_kept {inputs : List String} {after : Directory} (hfolders : d.SameFolders after)
    (hkept : ∀ i ∈ inputs, Kept settings d after i) : Apart settings d inputs := by
  -- a path that leads to the place of a script finds the script there
  have hfound : ∀ i ∈ inputs, ∀ path, d.place (outputPath i) = d.place path →
      ∃ text, d.readText i = .ok text ∧ (ofText i text settings Writer.new).fault = none
        ∧ after.read path = .ok (ofText i text settings Writer.new).state.finishedText.toUTF8 := by
    intro i hi path hsame
    obtain ⟨text, htext, hfault, hscript⟩ := (hkept i hi).script
    obtain ⟨place, hplace, hcontents⟩ := Directory.read_ok.1 hscript
    refine ⟨text, htext, hfault, Directory.read_ok.2 ⟨place, ?_, hcontents⟩⟩
    rw [hfolders.place_ok, ← hsame, ← hfolders.place_ok]
    exact hplace
  constructor
  · intro i hi j hj hsame
    obtain ⟨text, -, -, hscript⟩ := hfound i hi j hsame
    obtain ⟨original, horiginal, hfault, -⟩ := (hkept j hj).script
    obtain ⟨bytes, hbytes, hutf⟩ := Directory.readText_ok.1 horiginal
    -- then the input was a script before, and could not be converted
    rw [(hkept j hj).contents, hbytes] at hscript
    obtain rfl := Except.ok.inj hscript
    rw [Directory.fromUTF8?_toUTF8] at hutf
    obtain rfl := Option.some.inj hutf
    have hwrote := ofText_wrote i text settings Writer.latched_new
    exact script_faults hwrote j settings Writer.new hfault
  · intro i hi j hj hsame s t hs ht
    obtain ⟨text, htext, -, hscript⟩ := hfound i hi (outputPath j) hsame
    obtain ⟨text', htext', -, hscript'⟩ := (hkept j hj).script
    obtain rfl := Except.ok.inj (hs.symm.trans htext)
    obtain rfl := Except.ok.inj (ht.symm.trans htext')
    rw [hscript] at hscript'
    exact String.toByteArray_inj.1 (Except.ok.inj hscript')

end Separately

/-- **What it takes to lose nothing.** A run without a joint script that succeeds keeps all its
inputs and all its scripts if and only if they are apart from each other. -/
theorem separate_runs_keep_iff {arguments : List String} {d : Directory} {job : Job}
    (hrequest : Request.ofArguments arguments = .ok (.convert job)) (houtput : job.output = none)
    (hsucceeded : (execute arguments d).succeeded = true) :
    ∃ settings, job.settings d = .ok settings
      ∧ ((∀ i ∈ job.inputs, Kept settings d (execute arguments d).directory i)
        ↔ Apart settings d job.inputs) := by
  obtain ⟨settings, hsettings, hfault, hstate⟩ := converted_of_execute hrequest hsucceeded
  unfold Job.convert at hfault hstate
  obtain ⟨-, hconverted, hwhole⟩ := Activity.parts_of_andThen hfault
  rw [hwhole] at hstate
  simp only [houtput] at hconverted hstate
  refine ⟨settings, hsettings, ?_⟩
  rw [hstate]
  constructor
  · exact apart_of_kept (onlyScripts_of_forEach hconverted).1.folders
  · intro hapart
    exact kept_of_apart hapart hconverted

/-- Two inputs whose scripts bear the same name, one that bears the name of its script, and one
whose script has a name of its own. -/
def crowdedDirectory : Directory :=
  ⟨[(["plate.gbr"], "D1X5Y6D2M0".toUTF8), (["plate.cut"], "M0".toUTF8),
    (["frame.itx"], "D1X5Y6D2M0".toUTF8), (["lid.gbr"], "BX7Y8AM0".toUTF8)], []⟩

/-- The job to convert some inputs on their own. -/
def plainJob (inputs : List String) : Job :=
  ⟨⟨none, none, none, none, some false⟩, none, none, inputs⟩

/-- A mark and a cut, each in a file of its own, are converted into two scripts of which neither
bears the name of the other or of an input. So both inputs are kept and both scripts are there, and
these are not the same. -/
theorem separate_runs_keep_sample :
    let arguments := ["plate.gbr", "lid.gbr"]
    (execute arguments crowdedDirectory).succeeded = true
      ∧ ((execute arguments crowdedDirectory).directory.read "plate.itx").toOption
        ≠ ((execute arguments crowdedDirectory).directory.read "lid.itx").toOption
      ∧ ∃ settings, (plainJob arguments).settings crowdedDirectory = .ok settings
        ∧ Kept settings crowdedDirectory (execute arguments crowdedDirectory).directory "plate.gbr"
        ∧ Kept settings crowdedDirectory (execute arguments crowdedDirectory).directory
          "lid.gbr" := by
  intro arguments
  have hrequest : Request.ofArguments arguments = .ok (.convert (plainJob arguments)) := rfl
  have hsucceeded : (execute arguments crowdedDirectory).succeeded = true := by
    decide +kernel
  obtain ⟨settings, hsettings, hiff⟩ :=
    separate_runs_keep_iff (d := crowdedDirectory) hrequest rfl hsucceeded
  -- four paths that lead to four places
  have hsources : ∀ i ∈ arguments, ∀ j ∈ arguments,
      (crowdedDirectory.place (outputPath i)).toOption ≠ (crowdedDirectory.place j).toOption := by
    decide +kernel
  have hscripts : ∀ i ∈ arguments, ∀ j ∈ arguments, i ≠ j →
      (crowdedDirectory.place (outputPath i)).toOption
        ≠ (crowdedDirectory.place (outputPath j)).toOption := by
    decide +kernel
  have hapart : Apart settings crowdedDirectory arguments := by
    constructor
    · intro i hi j hj hsame
      exact hsources i hi j hj (congrArg Except.toOption hsame)
    · intro i hi j hj hsame s t hs ht
      by_cases hij : i = j
      · rw [hij] at hs
        rw [Except.ok.inj (hs.symm.trans ht), hij]
      · exact absurd (congrArg Except.toOption hsame) (hscripts i hi j hj hij)
  have hkept := hiff.2 hapart
  exact ⟨hsucceeded, by decide +kernel, settings, hsettings, hkept _ List.mem_cons_self,
    hkept _ (List.mem_cons_of_mem _ List.mem_cons_self)⟩

/-- **Lost scripts and inputs.** Two inputs that differ in their extensions alone are converted into
one file, and the script of the first one is lost. An input with the extension of a script is
emptied before it is read. Both runs succeed. -/
theorem script_or_input_lost :
    (execute ["plate.gbr", "plate.cut"] crowdedDirectory).succeeded = true
      ∧ (∀ settings, (plainJob ["plate.gbr", "plate.cut"]).settings crowdedDirectory = .ok settings →
        ¬Kept settings crowdedDirectory
          (execute ["plate.gbr", "plate.cut"] crowdedDirectory).directory "plate.gbr")
      ∧ (execute ["frame.itx"] crowdedDirectory).succeeded = true
      ∧ (execute ["frame.itx"] crowdedDirectory).directory.read "frame.itx"
        ≠ crowdedDirectory.read "frame.itx" := by
  refine ⟨by decide +kernel, ?_, by decide +kernel, ?_⟩
  · intro settings hsettings hkept
    have hdefault : (plainJob ["plate.gbr", "plate.cut"]).settings crowdedDirectory
        = .ok standardSettings := rfl
    obtain rfl := Except.ok.inj (hdefault.symm.trans hsettings)
    obtain ⟨text, htext, -, hscript⟩ := hkept.script
    have htext' : crowdedDirectory.readText "plate.gbr" = .ok "D1X5Y6D2M0" :=
      Directory.readText_ok.2 ⟨_, rfl, Directory.fromUTF8?_toUTF8 _⟩
    obtain rfl := Except.ok.inj (htext'.symm.trans htext)
    have hother : ((execute ["plate.gbr", "plate.cut"] crowdedDirectory).directory.read
        (outputPath "plate.gbr")).toOption
        ≠ some (ofText "plate.gbr" "D1X5Y6D2M0" standardSettings
          Writer.new).state.finishedText.toUTF8 := by
      decide +kernel
    exact hother (congrArg Except.toOption hscript)
  · have hother : ((execute ["frame.itx"] crowdedDirectory).directory.read "frame.itx").toOption
        ≠ (crowdedDirectory.read "frame.itx").toOption := by
      decide +kernel
    intro hsame
    exact hother (congrArg Except.toOption hsame)

end Photoplot
