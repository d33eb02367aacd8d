import ArchInstaller.Verify.OtherSteps

/-! # Runs of a whole installation

The loop of `Installer.install` over the enabled steps, and what the two migration steps issue. -/

namespace ArchInstaller

open Interaction PyText Script
open Interaction.Program (forEach onlyIf)

variable {config : InstallerConfig} {allowed : Invocation → CommandExecutionResult → Prop}

/-! ## The migration steps -/

/-- A command that writes no block device, and makes or opens no LUKS volume but the old one. -/
def OpensOldSystem (invocation : Invocation) : Prop :=
  invocation.command.writes = [] ∧ (invocation.command.usesVolume →
    ∃ partition, invocation.command = .cryptsetupOpen none partition oldMapperName)

namespace MigrationStagingStepExecutor

theorem issues_findLuksPartition {disk : String} :
    IssuesGiven allowed OpensOldSystem (findLuksPartition disk) := by
  have hfirst : ∀ partitions,
      IssuesGiven allowed OpensOldSystem (firstLuksPartition disk partitions) := by
    intro partitions
    induction partitions with
    | nil => simp [firstLuksPartition]
    | cons partition partitions ih =>
      simp [firstLuksPartition, ih, OpensOldSystem, Command.writes, Command.usesVolume]
  simp [findLuksPartition, hfirst, OpensOldSystem, Command.writes, Command.usesVolume]

theorem issues_openAndMount {partition : String} :
    IssuesGiven allowed OpensOldSystem (openAndMount config partition) := by
  simp [openAndMount, mountOldSystem, OpensOldSystem, Command.writes, Command.usesVolume]

theorem issues_sizeMb {path : String} : IssuesGiven allowed OpensOldSystem (sizeMb path) := by
  simp [sizeMb, OpensOldSystem, Command.writes, Command.usesVolume]

theorem issues_additionalSizeMb {paths : List String} :
    IssuesGiven allowed OpensOldSystem (additionalSizeMb paths) := by
  induction paths with
  | nil => simp [additionalSizeMb]
  | cons path paths ih => simp [additionalSizeMb, issues_sizeMb, ih]

theorem issues_stageMountedSystem {disk partition : String} :
    IssuesGiven allowed OpensOldSystem (stageMountedSystem config disk partition) := by
  have hstage : ∀ path, IssuesGiven allowed OpensOldSystem (stageAdditionalPath path) := by
    simp [stageAdditionalPath, pathExists, OpensOldSystem, Command.writes, Command.usesVolume]
  simp [stageMountedSystem, inspectMountedSystem, issues_sizeMb, findSecureBootDirectory,
    directoryExists, ensureStagingSpace, issues_additionalSizeMb, copyToStaging, copyIntoStaging,
    hstage, OpensOldSystem, Command.writes, Command.usesVolume]

theorem issues_execute : IssuesGiven allowed OpensOldSystem (execute config) := by
  simp [execute, issues_findLuksPartition, issues_openAndMount, issues_stageMountedSystem,
    unmountAndClose, OpensOldSystem, Command.writes, Command.usesVolume]

end MigrationStagingStepExecutor

/-- A command that writes no block device, and makes and opens no LUKS volume. -/
def LeavesDevices (invocation : Invocation) : Prop :=
  invocation.command.writes = [] ∧ invocation.command.usesVolume = false

theorem MigrationRestoreStepExecutor.issues_execute :
    IssuesGiven allowed LeavesDevices (execute config) := by
  have hrestore : ∀ staged destination,
      IssuesGiven allowed LeavesDevices (restoreDirectory staged destination) := by
    simp [restoreDirectory, directoryExists, LeavesDevices, Command.writes, Command.usesVolume]
  simp [execute, restoreStaging, hrestore, reportRestoredData, reportRestoredHome,
    reportRestoredKeys, directoryExists, LeavesDevices, Command.writes, Command.usesVolume]

/-! ## The steps in order -/

/-- The steps of the registry that come after the storage step. -/
def stepsAfterStorage : List InstallStep :=
  [.pacmanMirrors, .packages, .migrationRestore, .system, .docker, .gpuDriver, .kernelImages,
    .bootloader, .recoverySystem, .snapper, .bootableSnapshots, .snapshotNotifications, .firewall,
    .usbBootSafeguards]

theorem issues_afterStorage {step : InstallStep} (h : step ∈ stepsAfterStorage) :
    IssuesGiven allowed LeavesDevices (step.execute config) := by
  have hunrelated : step ≠ .migrationRestore → step.unrelated := by
    revert step
    decide
  by_cases hrestore : step = .migrationRestore
  · rw [hrestore, InstallStep.execute]
    exact MigrationRestoreStepExecutor.issues_execute
  · exact (issues_unrelated (hunrelated hrestore)).mono fun _ h => ⟨h.1, h.2.1⟩

namespace Installer

/-- What `Installer.install` logs before the first step. -/
def start (config : InstallerConfig) : Script Unit := do
  info (banner "Declarative ArchLinux Installer (DALI)" "Starting installation")
  logSummary config

theorem install_eq {safeDump : PlainValue → String} : install safeDump config =
    start config >>= fun _ =>
      runSteps config (enabledSteps config).length 1 (enabledSteps config) >>= fun _ =>
        finish safeDump config := by
  simp only [install, start, finish, bind_assoc]

/-- The storage step always runs. -/
theorem enabledSteps_eq : enabledSteps config =
    [.migrationStaging, .usbBootDrive].filter (InstallStep.enabled config) ++
      .storage :: stepsAfterStorage.filter (InstallStep.enabled config) := by
  have hsteps : installSteps =
      [.migrationStaging, .usbBootDrive] ++ .storage :: stepsAfterStorage := rfl
  have hstorage : InstallStep.storage.enabled config = true := rfl
  rw [enabledSteps, hsteps, List.filter_append, List.filter_cons_of_pos hstorage]

theorem runSteps_append {count index : Nat} {first second : List InstallStep} :
    runSteps config count index (first ++ second) = runSteps config count index first >>= fun _ =>
      runSteps config count (index + first.length) second := by
  induction first generalizing index with
  | nil => rfl
  | cons step first ih =>
    have hindex : index + (first.length + 1) = index + 1 + first.length := by omega
    simp only [List.cons_append, runSteps, ih, bind_assoc, List.length_cons, hindex]

theorem issues_runSteps {good : Invocation → Prop} {steps : List InstallStep}
    (h : ∀ step ∈ steps, IssuesGiven allowed good (step.execute config)) {count index : Nat} :
    IssuesGiven allowed good (runSteps config count index steps) := by
  induction steps generalizing index with
  | nil => simp [runSteps]
  | cons step steps ih =>
    rw [List.forall_mem_cons] at h
    simp [runSteps, h.1, ih h.2]

theorem issues_start {good : Invocation → Prop} :
    IssuesGiven allowed good (start config) := by
  simp [start, logSummary]

/-- What every enabled step and the end of the installation issue, the installation issues. -/
theorem issues_install {good : Invocation → Prop} {safeDump : PlainValue → String}
    (hsteps : ∀ step ∈ enabledSteps config, IssuesGiven allowed good (step.execute config))
    (hfinish : ∀ invocation, Unrelated invocation → good invocation) :
    IssuesGiven allowed good (install safeDump config) := by
  rw [install_eq]
  simp [issues_start, issues_runSteps hsteps, issues_finish.mono hfinish]

end Installer

/-- A configuration with a problem issues no command. -/
theorem runs_validateAndInstall {safeDump : PlainValue → String} {exchanges : Exchanges}
    {outcome : Outcome InstallerError Unit}
    (hrun : Runs (validateAndInstall safeDump config) exchanges outcome) (hissued : exchanges ≠ []) :
    installProblems config = [] ∧ Runs (Installer.install safeDump config) exchanges outcome := by
  rw [validateAndInstall, validateForInstall] at hrun
  cases hproblems : installProblems config with
  | nil => exact ⟨rfl, by simpa [hproblems, onlyIf] using hrun⟩
  | cons problem problems =>
    simp only [hproblems, List.isEmpty_cons, Bool.not_false, onlyIf, if_true, raise,
      Program.raise_bind] at hrun
    exact absurd (runs_raise_iff.mp hrun).1 hissued

end ArchInstaller
