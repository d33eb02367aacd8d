import ArchInstaller.Verify.DeviceNames
import ArchInstaller.Verify.StorageRuns

/-! # The random fill of the target disk

With the method `secure` a run of the storage step that wipes the disk fills it with random data
after the zeroing of the wipe and before any format. `coverageWorld` follows the sectors that hold
this random data. -/

namespace ArchInstaller.StorageStepExecutor

open Interaction PyText Script

variable {config : InstallerConfig} {exchanges : Exchanges}

/-- The fill of one wipe: `shred`, and `dd` where `shred` failed. -/
inductive RandomFill (config : InstallerConfig) : Exchanges → Prop
  | shredded : shred.success →
    RandomFill config [(unchecked (.shred config.storage.targetDisk), shred)]
  | fallback : shred.success = false →
    RandomFill config [(unchecked (.shred config.storage.targetDisk), shred),
      (unchecked (.ddRandom config.storage.targetDisk), dd)]

/-- What may be zeroed after the fill: the open volume, whose zeros reach the disk encrypted, and
without a USB boot drive the place of the partition table. -/
def AfterFill (config : InstallerConfig) (invocation : Invocation) : Prop :=
  ∀ device ∈ invocation.command.zeroes, device = config.storage.cryptrootDevice ∨
    config.usbBoot.enabled = false ∧
      invocation.command = .sgdiskZap config.storage.targetDisk

/-! ## The parts of a run -/

section Runs

theorem runs_fillWithRandomData
    (hrun : Runs (fillWithRandomData config.storage.targetDisk) exchanges (.returned ())) :
    ∃ fill rest, exchanges = fill ++ rest ∧ RandomFill config fill ∧
      ∀ x ∈ rest, x.1.command.zeroes = [] := by
  rw [fillWithRandomData, runs_info_bind] at hrun
  obtain ⟨_, shredded, tail, rfl, hshred, htail⟩ := runs_bind_returned_iff.mp hrun
  obtain ⟨shred, rfl, rfl⟩ := runs_probe_returned_iff.mp hshred
  obtain ⟨fallback, _, rest, rfl, hfallback, hrest⟩ := runs_bind_returned_iff.mp htail
  have hquiet : ∀ x ∈ rest, x.1.command.zeroes = [] := by
    refine IssuesGiven.of_runs (?_ : Issues (fun x => x.command.zeroes = []) _) hrest
    simp [Command.zeroes]
  cases hsuccess : shred.success with
  | true =>
    obtain rfl : fallback = [] := by simpa [hsuccess] using hfallback
    exact ⟨_, rest, rfl, .shredded hsuccess, hquiet⟩
  | false =>
    obtain ⟨dd, rfl⟩ : ∃ dd, fallback = [(unchecked (.ddRandom config.storage.targetDisk), dd)] := by
      simpa [hsuccess] using hfallback
    exact ⟨_, rest, rfl, .fallback hsuccess, hquiet⟩

/-- A secure wipe fills the disk once its labels and its partition table are gone. -/
theorem runs_wipeDisk_secure (hrun : Runs (wipeDisk config .secure) exchanges (.returned ())) :
    ∃ erase fill rest, exchanges = erase ++ (fill ++ rest) ∧
      (∀ x ∈ erase, x.1.command.formatsVolume = false) ∧ RandomFill config fill ∧
      ∀ x ∈ rest, x.1.command.zeroes = [] := by
  rw [wipeDisk, runs_info_bind] at hrun
  obtain ⟨erase, _, tail, rfl, herase, htail⟩ := runs_bind_returned_iff.mp hrun
  obtain ⟨filling, _, rest, rfl, hfilling, hrest⟩ := runs_bind_returned_iff.mp htail
  obtain ⟨fill, sync, rfl, hfill, hsync⟩ := runs_fillWithRandomData hfilling
  refine ⟨erase, fill, sync ++ rest, by simp, ?_, hfill, ?_⟩
  · refine IssuesGiven.of_runs (?_ : Issues (fun x => x.command.formatsVolume = false) _) herase
    simp [eraseTable, Command.formatsVolume]
  · have hquiet : ∀ x ∈ rest, x.1.command.zeroes = [] := by
      refine IssuesGiven.of_runs (?_ : Issues (fun x => x.command.zeroes = []) _) hrest
      simp [Command.zeroes]
    simp only [List.mem_append]
    rintro x (hx | hx)
    · exact hsync x hx
    · exact hquiet x hx

theorem issues_createPartitions_afterFill (husb : config.usbBoot.enabled = false) :
    Issues (AfterFill config) (createPartitions config) := by
  have hwait : Issues (AfterFill config) (waitForPartitions config) := by
    apply issues_waitForNode <;> simp [AfterFill, Command.zeroes]
  have hloop : ∀ disk, Issues (AfterFill config) (prepareLoopDevice disk) := by
    intro disk
    unfold prepareLoopDevice loopDeviceSize
    simp [AfterFill, Command.zeroes]
  have hnode : ∀ line, Issues (AfterFill config) (createLoopPartitionNode line) := by
    intro line
    unfold createLoopPartitionNode
    split <;> simp [pathExists, AfterFill, Command.zeroes]
  simp [createPartitions, createLoopPartitionNodes, hwait, hloop, hnode, husb, AfterFill,
    Command.zeroes]

theorem runs_prepareDisk_secure (hmethod : wipeMethod config = .secure)
    (hrun : Runs (prepareDisk config) exchanges (.returned ())) :
    ∃ wipe partitions, exchanges = wipe ++ partitions ∧
      Runs (wipeDisk config .secure) wipe (.returned ()) ∧
      ∀ x ∈ partitions, AfterFill config x.1 := by
  cases husb : config.usbBoot.enabled with
  | true =>
    rw [prepareDisk, if_pos husb, hmethod] at hrun
    exact ⟨exchanges, [], by simp, by simpa using hrun, by simp⟩
  | false =>
    rw [prepareDisk_eq_wipe husb (by simp [hmethod]), hmethod] at hrun
    obtain ⟨wipe, _, partitions, rfl, hwipe, hpartitions⟩ := runs_bind_returned_iff.mp hrun
    exact ⟨wipe, partitions, rfl, hwipe,
      (issues_createPartitions_afterFill husb).of_runs hpartitions⟩

theorem issues_setupLuks_afterFill : Issues (AfterFill config) (setupLuks config) := by
  simp [setupLuks, formatLuks, openLuks, AfterFill, Command.zeroes]

theorem issues_fillStorage_afterFill : Issues (AfterFill config) (fillStorage config) := by
  have hmount : ∀ subvolume, Issues (AfterFill config) (mountSubvolume config subvolume) := by
    simp [mountSubvolume, AfterFill, Command.zeroes]
  simp [fillStorage, setupBtrfs, ensureBtrfs, isMountpoint, createSubvolumes, createSubvolume,
    mountFilesystems, hmount, mountEfiPartition, createSwapfile, fileExists, AfterFill,
    Command.zeroes]

/-- A run that wipes the disk and returns: the fill, with no format before it. -/
theorem runs_execute_secure (hmethod : wipeMethod config = .secure)
    (hrun : Runs (execute config) exchanges (.returned ()))
    (hwipes : ∃ x ∈ exchanges, config.storage.targetDisk ∈ x.1.command.zeroes) :
    ∃ before fill after, exchanges = before ++ (fill ++ after) ∧ RandomFill config fill ∧
      (∀ x ∈ before, x.1.command.formatsVolume = false) ∧ ∀ x ∈ after, AfterFill config x.1 := by
  rcases runs_execute_iff.mp hrun with ⟨-, ⟨⟩⟩ | ⟨mounted, tail, rfl, htail⟩
  split at htail
  · obtain ⟨x, hx, hzeroes⟩ := hwipes
    obtain rfl | hx := List.mem_cons.mp hx
    · simp [Command.zeroes] at hzeroes
    · obtain hcommand | hcommand := issues_keepExistingStorage.of_runs htail x hx <;>
        simp [hcommand, Command.zeroes] at hzeroes
  · rw [convergeStorage_eq] at htail
    obtain ⟨_, ⟨⟩, filesystems, rfl, hopen, hfilesystems⟩ := runs_bind_returned_iff.mp htail
    obtain ⟨cleanup, prepare, luks, rfl, hcleanup, hprepare, hluks⟩ :=
      runs_openStorage_returned_iff.mp hopen
    obtain ⟨wipe, partitions, rfl, hwipe, hpartitions⟩ := runs_prepareDisk_secure hmethod hprepare
    obtain ⟨erase, fill, rest, rfl, herase, hfill, hrest⟩ := runs_wipeDisk_secure hwipe
    have hcleanup' : ∀ x ∈ cleanup, x.1.command.formatsVolume = false := by
      refine IssuesGiven.of_runs (?_ : Issues (fun x => x.command.formatsVolume = false) _) hcleanup
      simp [cleanupStaleMounts, Command.formatsVolume]
    refine ⟨(unchecked (.mountpoint targetRoot), mounted) :: (cleanup ++ erase), fill,
      rest ++ (partitions ++ (luks ++ filesystems)), by simp, hfill, ?_, ?_⟩
    · simp only [List.forall_mem_cons, List.forall_mem_append]
      exact ⟨by simp [Command.formatsVolume], hcleanup', herase⟩
    · simp only [List.forall_mem_append]
      refine ⟨fun x hx => ?_, hpartitions, issues_setupLuks_afterFill.of_runs hluks,
        issues_fillStorage_afterFill.of_runs hfilesystems⟩
      simp [AfterFill, hrest x hx]

end Runs

/-! ## The sectors that hold random data -/

section Coverage

variable {Sector : Type} {covered covered' : Set Sector}

/-- The sectors of the target disk that hold the random data of a fill. A `dd` that fills a disk
to its end reports an error, so its exit code says nothing about what it covered. -/
def coverageWorld (Sector : Type) (config : InstallerConfig) :
    Machine Invocation CommandExecutionResult (Set Sector) := fun covered invocation answer covered' =>
  if config.storage.targetDisk ∈ invocation.command.fills then
    covered ⊆ covered' ∧ (invocation.command = .shred config.storage.targetDisk → answer.success →
      covered' = Set.univ)
  else if config.storage.targetDisk ∈ invocation.command.zeroes ∧
      config.storage.targetDisk ≠ config.storage.cryptrootDevice then
    covered' ⊆ covered
  else covered' = covered

theorem RandomFill.covers (hfill : RandomFill config exchanges)
    (hreplay : Replays (coverageWorld Sector config) covered exchanges covered')
    (hshredded : ∃ x ∈ exchanges, x.1.command = .shred config.storage.targetDisk ∧ x.2.success) :
    covered' = Set.univ := by
  cases hfill with
  | shredded hsuccess =>
    obtain ⟨_, hstep, hend⟩ := replays_cons_iff.mp hreplay
    obtain rfl := replays_nil_iff.mp hend
    simp only [coverageWorld, Command.fills, List.mem_singleton, if_true] at hstep
    exact hstep.2 trivial hsuccess
  | fallback hfailed =>
    simp [hfailed] at hshredded

/-- With a USB boot drive what the fill covered stays covered. -/
theorem AfterFill.keeps (husb : config.usbBoot.enabled) {invocation : Invocation}
    {answer : CommandExecutionResult} (h : AfterFill config invocation)
    (hstep : coverageWorld Sector config covered invocation answer covered') :
    covered ⊆ covered' := by
  unfold coverageWorld at hstep
  split at hstep
  · exact hstep.1
  · split at hstep
    · rename_i hzeroes
      obtain hvolume | ⟨hdisabled, -⟩ := h _ hzeroes.1
      · exact absurd hvolume hzeroes.2
      · simp [husb] at hdisabled
    · exact hstep.ge

end Coverage

/-- A machine with an empty disk and drive. `fills` says whether the two tools fill the disk, and
the state whether it is filled. -/
def emptyMachine (fills filled : Bool) (invocation : Invocation) : CommandExecutionResult × Bool :=
  match invocation.command with
  | .cryptsetupIsLuks _ => (⟨1, "", ""⟩, filled)
  | .shred disk | .ddRandom disk =>
    (⟨if fills then 0 else 1, "", ""⟩, filled || fills && disk == "/dev/sda")
  | .wipefs device | .sgdiskZap device => (answering "", filled && device != "/dev/sda")
  | _ => ((anyDisk () invocation).1, filled)

/-- All sectors of a disk of ten, or none. -/
def tenSectors (filled : Bool) : Set (Fin 10) := {_sector | filled}

theorem emptyMachine_step (filled : Bool) (invocation : Invocation) :
    coverageWorld (Fin 10) sampleUsbConfig (tenSectors filled) invocation
      (emptyMachine true filled invocation).1
      (tenSectors (emptyMachine true filled invocation).2) := by
  have hdisk : sampleUsbConfig.storage.targetDisk = "/dev/sda" := rfl
  have hvolume : "/dev/sda" ≠ sampleUsbConfig.storage.cryptrootDevice := by decide
  obtain ⟨command, _, _⟩ := invocation
  cases command <;>
    simp [coverageWorld, emptyMachine, Command.fills, Command.zeroes, hdisk, hvolume]
  all_goals
    split
    · subst_vars
      simp [tenSectors]
    · rename_i hother
      simp [beq_eq_false_iff_ne.mpr (Ne.symm hother), bne]

end ArchInstaller.StorageStepExecutor
