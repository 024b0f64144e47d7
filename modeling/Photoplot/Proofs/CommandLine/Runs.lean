import Photoplot.CommandLine.Execution
import Photoplot.Proofs.CommandLine.Places
import Photoplot.Proofs.Configuration.Settings
import Photoplot.Proofs.Conversion.Partition

/-!
What a successful run has done.

A run that succeeds has found its settings and has come to the end of every conversion. Each script
is one file: it was created, the inputs were read beside it, and the finished text was put in its
place.

**What is proved, and where the work is.**

* A run has three stages, and none goes on from a failure of the one before: arguments, settings,
  conversion. `Job.settings` names what the first two amount to, and `converted_of_execute` says of
  a run that succeeds that all three went well, and that the files it leaves are those of the
  conversion.
* A script is first created empty and then stored. Both happen at one place, so of the two only the
  second remains (`writeScript_of_create`). What is read in between is read from the directory that
  already has the empty script in it, and a path to that place finds the script: hence the source
  `Job.inputsBeside`, which all statements about command lines carry along.
* With a joint script there is a single conversion of all inputs, and what is left of it is the
  structure `Joined` (`joined_of_execute`). Scripts of their own are the subject of `Separately`.
* There is at least one input in every job (`Request.inputs_ne_nil`). That is checked at the very
  end of reading the arguments, so it has to be followed through all steps of the reading.
-/

set_option autoImplicit false

namespace Photoplot

open Script (Writer)
open Conversion

/-! ## 1. Requests -/

/-- What is left over as inputs is never nothing. -/
theorem Arguments.inputs_ne_nil {arguments found : List String}
    (h : Arguments.inputs arguments = .ok found) : found ≠ [] := by
  unfold Arguments.inputs at h
  split at h
  · cases h
  · split at h
    · cases h
    · rename_i hne
      cases h
      rintro rfl
      exact hne rfl

/-- Of the many steps of reading a job only the last one is about inputs. -/
theorem Job.inputs_ne_nil {arguments : List String} {job : Job}
    (h : Job.ofArguments arguments = .ok job) : job.inputs ≠ [] := by
  unfold Job.ofArguments at h
  obtain ⟨⟨units, rest⟩, -, h⟩ := bind_eq_ok_iff.1 h
  obtain ⟨⟨mark, rest⟩, -, h⟩ := bind_eq_ok_iff.1 h
  obtain ⟨⟨cut, rest⟩, -, h⟩ := bind_eq_ok_iff.1 h
  obtain ⟨⟨drill, rest⟩, -, h⟩ := bind_eq_ok_iff.1 h
  obtain ⟨⟨configuration, rest⟩, -, h⟩ := bind_eq_ok_iff.1 h
  obtain ⟨⟨output, rest⟩, -, h⟩ := bind_eq_ok_iff.1 h
  obtain ⟨found, hfound, h⟩ := bind_eq_ok_iff.1 h
  cases h
  exact Arguments.inputs_ne_nil hfound

/-- **No empty jobs.** A request to convert has an input. -/
theorem Request.inputs_ne_nil {arguments : List String} {job : Job}
    (h : Request.ofArguments arguments = .ok (.convert job)) : job.inputs ≠ [] := by
  unfold Request.ofArguments at h
  split at h
  · cases h
  · cases hjob : Job.ofArguments arguments with
    | error cause =>
      rw [hjob] at h
      cases h
    | ok found =>
      rw [hjob] at h
      cases h
      exact Job.inputs_ne_nil hjob

/-! ## 2. The settings of a run -/

/-- The settings that a job is carried out with, if they can be settled. -/
def Job.settings (job : Job) (d : Directory) : Except Fault Settings :=
  (job.configure d).2.bind (Settings.resolve job.preferences)

/-- With settings, a job is its conversion. -/
theorem Job.carryOut_of_settings {job : Job} {d : Directory} {settings : Settings}
    (h : job.settings d = .ok settings) :
    (job.carryOut d).2 = Activity.andThen ⟨d, (job.configure d).1, none⟩ (job.convert settings) := by
  unfold Job.carryOut Job.settings at *
  cases hconfigure : job.configure d with
  | mk events loaded =>
    rw [hconfigure] at h
    simp only [h]

/-- Without settings, nothing is converted. -/
theorem Job.carryOut_of_fault {job : Job} {d : Directory} {fault : Fault}
    (h : job.settings d = .error fault) :
    (job.carryOut d).2 = ⟨d, (job.configure d).1, some fault⟩ := by
  unfold Job.carryOut Job.settings at *
  cases hconfigure : job.configure d with
  | mk events loaded =>
    rw [hconfigure] at h
    simp only [h]

/-- A run that is asked to convert carries the job out. -/
theorem execute_of_convert {arguments : List String} {d : Directory} {job : Job}
    (hrequest : Request.ofArguments arguments = .ok (.convert job)) :
    (execute arguments d).succeeded = (job.carryOut d).2.fault.isNone
      ∧ (execute arguments d).directory = (job.carryOut d).2.state := by
  rw [execute, hrequest]
  exact ⟨rfl, rfl⟩

/-- A run that succeeds has settled its settings and converted everything. -/
theorem converted_of_execute {arguments : List String} {d : Directory} {job : Job}
    (hrequest : Request.ofArguments arguments = .ok (.convert job))
    (hsucceeded : (execute arguments d).succeeded = true) :
    ∃ settings, job.settings d = .ok settings ∧ (job.convert settings d).fault = none
      ∧ (execute arguments d).directory = (job.convert settings d).state := by
  have hexecute := execute_of_convert (d := d) hrequest
  rw [hexecute.1, Option.isNone_iff_eq_none] at hsucceeded
  rw [hexecute.2]
  cases hsettings : job.settings d with
  | error fault =>
    rw [Job.carryOut_of_fault hsettings] at hsucceeded
    cases hsucceeded
  | ok settings =>
    rw [Job.carryOut_of_settings hsettings] at hsucceeded ⊢
    obtain ⟨-, hfault, hstate⟩ := Activity.parts_of_andThen hsucceeded
    exact ⟨settings, rfl, hfault, hstate⟩

/-! ## 3. Scripts that were written -/

/-- A script that could be created holds what came of its conversion. -/
theorem writeScript_of_create {path : String} {d created : Directory} {place : Place}
    (h : d.create path = .ok (place, created)) (convert : Source → Writer → Activity Writer) :
    let conversion := convert (Job.inputsBeside place created) Writer.new
    (Job.writeScript path convert d).fault = conversion.fault
      ∧ (Job.writeScript path convert d).state = d.put place (scriptText conversion).toUTF8 := by
  intro conversion
  have hafter := (Directory.created_of_create h).after_eq
  unfold Job.writeScript
  rw [h]
  refine ⟨rfl, ?_⟩
  show created.put place _ = _
  rw [hafter, Directory.put_put, ← hafter]

/-- A script is one file, and nothing else is changed. -/
theorem stored_of_writeScript {path : String} {convert : Source → Writer → Activity Writer}
    {d : Directory} (h : (Job.writeScript path convert d).fault = none) :
    ∃ place created, d.create path = .ok (place, created)
      ∧ (convert (Job.inputsBeside place created) Writer.new).fault = none
      ∧ (Job.writeScript path convert d).state = d.put place
          (convert (Job.inputsBeside place created) Writer.new).state.finishedText.toUTF8 := by
  cases hcreate : d.create path with
  | error cause =>
    rw [Job.writeScript, hcreate] at h
    cases h
  | ok made =>
    obtain ⟨place, created⟩ := made
    obtain ⟨hfault, hstate⟩ := writeScript_of_create hcreate convert
    rw [hfault] at h
    refine ⟨place, created, rfl, h, ?_⟩
    rw [hstate, scriptText, h]

/-- What is left of the conversion of all inputs into one script. -/
structure Joined (job : Job) (path : String) (d after : Directory) (settings : Settings)
    (source : Source) : Prop where
  settled : job.settings d = .ok settings
  beside : ∃ place created, d.create path = .ok (place, created)
    ∧ source = Job.inputsBeside place created
  fault : (ofInputs settings source job.inputs Writer.new).fault = none
  script : after.read path
    = .ok (ofInputs settings source job.inputs Writer.new).state.finishedText.toUTF8

/-- A run that succeeds leaves the finished joint script. -/
theorem joined_of_execute {arguments : List String} {d : Directory} {job : Job} {path : String}
    (hrequest : Request.ofArguments arguments = .ok (.convert job))
    (houtput : job.output = some path) (hsucceeded : (execute arguments d).succeeded = true) :
    ∃ settings source, Joined job path d (execute arguments d).directory settings source := by
  obtain ⟨settings, hsettings, hfault, hstate⟩ := converted_of_execute hrequest hsucceeded
  unfold Job.convert at hfault hstate
  obtain ⟨-, hfault, hwhole⟩ := Activity.parts_of_andThen hfault
  rw [hwhole] at hstate
  simp only [houtput, Job.convertTogether] at hfault hstate
  obtain ⟨-, hfault, hwhole⟩ := Activity.parts_of_andThen hfault
  rw [hwhole] at hstate
  obtain ⟨place, created, hcreate, hconverted, hstored⟩ := stored_of_writeScript hfault
  refine ⟨settings, Job.inputsBeside place created, hsettings, ⟨place, created, hcreate, rfl⟩,
    hconverted, ?_⟩
  have hcreated := Directory.created_of_create hcreate
  rw [hstate, hstored]
  exact Directory.read_put hcreated.grounded hcreated.leads _

end Photoplot
