import ArchInstaller.Verify.InstallRuns
import ArchInstaller.World.OldSystem

/-! # Repeated runs on one disk

The disk of the old system over any number of installer runs, each of which may end anywhere, and
the files that a completed staging step has promised to keep. -/

namespace ArchInstaller

open Interaction PyText

/-- Where the old system's files are, and the passwords that open a LUKS volume of the disk other
than the old system's. -/
structure MigrationDisk where
  files : MigrationState
  opens : Set String

/-- What `cryptsetup` makes of its passwords: `luksFormat` makes a volume that the password opens,
and what `open` opens is such a volume or the old system's. -/
def TakesPassword (s : MigrationDisk) (invocation : Invocation) (answer : CommandExecutionResult)
    (s' : MigrationDisk) : Prop :=
  match invocation.command with
  | .cryptsetupLuksFormat .. =>
    s'.opens ⊆ s.opens ∪ {password | invocation.inputData = some password}
  | .cryptsetupOpen .. => s'.opens ⊆ s.opens ∧
    (answer.success → s.files.holdsOld ∨ ∃ password ∈ s.opens, invocation.inputData = some password)
  | _ => s'.opens ⊆ s.opens

def passwordWorld (old : OldSystem) : Machine Invocation CommandExecutionResult MigrationDisk :=
  fun s invocation answer s' => migrationWorld old s.files invocation answer s'.files ∧
    TakesPassword s invocation answer s'

/-- The disk, and the files that were staged and are not restored yet. -/
structure History where
  disk : MigrationDisk
  owed : Set TreePath

namespace History

/-- A step has returned: what is staged then is owed until a restore step returns. -/
def complete (h : History) (step : InstallStep) (disk : MigrationDisk) : History :=
  match step with
  | .migrationStaging => ⟨disk, h.owed ∪ disk.files.allStaged⟩
  | .migrationRestore => ⟨disk, ∅⟩
  | _ => ⟨disk, h.owed⟩

/-- Every owed file is in the old volume, in the staging directory or in the new target. -/
def KeepsCopies (old : OldSystem) (h : History) : Prop :=
  ∀ file ∈ h.owed, h.disk.files.holdsOld ∧ file ∈ old.files ∨
    file ∈ h.disk.files.allStaged ∨ file ∈ h.disk.files.target

end History

section

variable (safeDump : PlainValue → String) (old : OldSystem) (config : InstallerConfig)

/-- `Moment steps h h'`: at some moment of a run that has `steps` to go from `h`, the history is
`h'`. -/
inductive Moment : List InstallStep → History → History → Prop
  | during {step steps h exchanges outcome disk} :
    Runs (step.execute config) exchanges outcome → Replays (passwordWorld old) h.disk exchanges disk →
    Moment (step :: steps) h ⟨disk, h.owed⟩
  | after {step steps h exchanges disk h'} :
    Runs (step.execute config) exchanges (.returned ()) →
    Replays (passwordWorld old) h.disk exchanges disk → Moment steps (h.complete step disk) h' →
    Moment (step :: steps) h h'
  | finishing {h exchanges outcome disk} :
    Runs (Installer.finish safeDump config) exchanges outcome →
    Replays (passwordWorld old) h.disk exchanges disk → Moment [] h ⟨disk, h.owed⟩

variable {config} {exchanges : Exchanges} {outcome : Outcome InstallerError Unit}

/-- However far the steps and the end of an installation run, that is a moment of it. -/
theorem exists_moment_of_steps {h : History} {disk : MigrationDisk} {count index : Nat}
    {steps : List InstallStep}
    (hrun : Runs (Installer.runSteps config count index steps >>= fun _ =>
      Installer.finish safeDump config) exchanges outcome)
    (hreplay : Replays (passwordWorld old) h.disk exchanges disk) :
    ∃ h', h'.disk = disk ∧ Moment safeDump old config steps h h' := by
  induction steps generalizing h index exchanges with
  | nil => exact ⟨⟨disk, h.owed⟩, rfl, .finishing hrun hreplay⟩
  | cons step steps ih =>
    have hsteps : Installer.runSteps config count index (step :: steps) >>= (fun _ =>
        Installer.finish safeDump config) = Script.info s!"[{index}/{count}] {step.value}" >>=
          fun _ => step.execute config >>= fun _ =>
            Installer.runSteps config count (index + 1) steps >>= fun _ =>
              Installer.finish safeDump config := by
      simp only [Installer.runSteps, bind_assoc]
    rw [hsteps, Script.runs_info_bind] at hrun
    rcases runs_bind_iff.mp hrun with
      ⟨first, ⟨⟩, second, rfl, hfirst, hsecond⟩ | ⟨error, hraised, rfl⟩ | ⟨hstopped, rfl⟩
    · obtain ⟨mid, hreplayFirst, hreplaySecond⟩ := replays_append_iff.mp hreplay
      have hdisk : (h.complete step mid).disk = mid := by cases step <;> rfl
      obtain ⟨h', hh', hmoment⟩ := ih hsecond (hdisk.symm ▸ hreplaySecond)
      exact ⟨h', hh', .after hfirst hreplayFirst hmoment⟩
    · exact ⟨⟨disk, h.owed⟩, rfl, .during hraised hreplay⟩
    · exact ⟨⟨disk, h.owed⟩, rfl, .during hstopped hreplay⟩

/-- The moments of a run are those of `Installer.install`, which may end anywhere. -/
theorem exists_moment {h : History} {disk : MigrationDisk}
    (hrun : Runs (Installer.install safeDump config) exchanges outcome)
    (hreplay : Replays (passwordWorld old) h.disk exchanges disk) :
    ∃ h', h'.disk = disk ∧ Moment safeDump old config (Installer.enabledSteps config) h h' := by
  rw [Installer.install_eq] at hrun
  have hstart : Runs (Installer.start config >>= fun _ =>
      Installer.runSteps config (Installer.enabledSteps config).length 1
        (Installer.enabledSteps config) >>= fun _ => Installer.finish safeDump config)
      exchanges outcome ↔ Runs (Installer.runSteps config (Installer.enabledSteps config).length 1
        (Installer.enabledSteps config) >>= fun _ => Installer.finish safeDump config)
      exchanges outcome := by
    simp only [Installer.start, Installer.logSummary, bind_assoc, Script.runs_info_bind]
  exact exists_moment_of_steps safeDump old (hstart.mp hrun) hreplay

/-- The histories of one disk, by the runs that are allowed to start. At first the disk holds the
old system and nothing is staged. Between runs the operator unmounts and closes volumes, which
moves no file. -/
inductive Reachable (allowed : InstallerConfig → History → Prop) : History → Prop
  | start : Reachable allowed ⟨⟨⟨true, fun _ => ∅, ∅⟩, ∅⟩, ∅⟩
  | run {config h h'} : Reachable allowed h → config.migration.enabled → allowed config h →
    Moment safeDump old config (Installer.enabledSteps config) h h' → Reachable allowed h'

/-- The last copy of migrated data is never destroyed, whatever runs there were. -/
def KeepsLastCopy (allowed : InstallerConfig → History → Prop) : Prop :=
  ∀ h, Reachable safeDump old allowed h → h.KeepsCopies old

end

end ArchInstaller
