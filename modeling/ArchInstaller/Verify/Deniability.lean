import ArchInstaller.Verify.DeviceNames
import ArchInstaller.Verify.InstallRuns
import ArchInstaller.Verify.UsbBootRuns

/-! # What the internal disk receives

A whole installation with a USB boot drive. `diskOf` says which disk a device path lies on, so the
partitions of the target disk belong to it as well as every other name of it. A monitor follows the
installation: it knows whether the target disk was zeroed since its last random fill. -/

namespace ArchInstaller

open Interaction PyText Script
open UsbBootDriveStepExecutor (driveDevices)

variable {Disk : Type} {diskOf : String → Disk} {config : InstallerConfig} {exchanges : Exchanges}
  {outcome : Outcome InstallerError Unit} {safeDump : PlainValue → String}

/-! ## The headers -/

/-- The command names the header on the drive wherever it makes, opens or unlocks a LUKS volume,
unless it opens the old system. -/
def NamesHeader (config : InstallerConfig) : Command → Prop
  | .cryptsetupLuksFormat _ header _ | .cryptsetupTestPassphrase header _ =>
    header = some config.usbBoot.luksHeaderPartition
  | .cryptsetupOpen header _ name =>
    name ≠ oldMapperName → header = some config.usbBoot.luksHeaderPartition
  | _ => True

theorem namesHeader_of_unused {command : Command} (h : command.usesVolume = false) :
    NamesHeader config command := by
  cases command <;> simp_all [NamesHeader, Command.usesVolume]

theorem OpensOldSystem.namesHeader {invocation : Invocation} (h : OpensOldSystem invocation) :
    NamesHeader config invocation.command := by
  cases huses : invocation.command.usesVolume with
  | false => exact namesHeader_of_unused huses
  | true =>
    obtain ⟨partition, hcommand⟩ := h.2 huses
    simp [hcommand, NamesHeader]

/-- A format that names the header on the drive puts the ciphertext at the disk's first byte. -/
theorem NamesHeader.offset {luks : LuksConfig} {header : Option String} {device : String}
    (h : NamesHeader config (.cryptsetupLuksFormat luks header device)) :
    offsetOption header = s!"--header {config.usbBoot.luksHeaderPartition} --offset 0 " := by
  have hheader : header = some config.usbBoot.luksHeaderPartition := h
  rw [hheader, offsetOption]

/-! ## Partitions and file systems -/

/-- A command that creates partitions and file systems only on the USB boot drive and on the open
volume, and names the header on the drive. -/
def KeepsDeniable (config : InstallerConfig) (invocation : Invocation) : Prop :=
  invocation.command.createsOn ⊆ config.storage.cryptrootDevice :: driveDevices config ∧
    NamesHeader config invocation.command

section Issues

variable {allowed : Invocation → CommandExecutionResult → Prop}

theorem keepsDeniable_of_writes {invocation : Invocation} (hwrites : invocation.command.writes = [])
    (hheader : NamesHeader config invocation.command) : KeepsDeniable config invocation := by
  have hcreates := invocation.command.createsOn_subset_writes
  rw [hwrites] at hcreates
  exact ⟨List.Subset.trans hcreates (List.nil_subset _), hheader⟩

theorem LeavesDevices.keepsDeniable {invocation : Invocation} (h : LeavesDevices invocation) :
    KeepsDeniable config invocation :=
  keepsDeniable_of_writes h.1 (namesHeader_of_unused h.2)

theorem UsbBootDriveStepExecutor.issues_execute_deniable :
    IssuesGiven allowed (KeepsDeniable config) (execute config) := by
  have hchecks : IssuesGiven allowed (KeepsDeniable config) (requireDevices config) := by
    simp [requireDevices, UsbDriveInspector.requireDisk, stableDiskPath, KeepsDeniable,
      Command.createsOn, NamesHeader]
  have hkeeps : IssuesGiven allowed (KeepsDeniable config) (keepsExistingDrive config) := by
    simp [keepsExistingDrive, isMountpoint, UsbDriveInspector.holdsLuksHeader, KeepsDeniable,
      Command.createsOn, NamesHeader]
  have hprepare : IssuesGiven allowed (KeepsDeniable config) (prepareDrive config) := by
    refine issues_prepareDrive.mono fun invocation h => ⟨?_, namesHeader_of_unused h.volumes⟩
    exact List.subset_cons_of_subset _
      (List.Subset.trans invocation.command.createsOn_subset_writes h.writes)
  simp [execute, hchecks, hkeeps, hprepare]

theorem StorageStepExecutor.issues_execute_deniable (husb : config.usbBoot.enabled) :
    IssuesGiven allowed (KeepsDeniable config) (execute config) := by
  have hmount : ∀ subvolume,
      IssuesGiven allowed (KeepsDeniable config) (mountSubvolume config subvolume) := by
    simp [mountSubvolume, KeepsDeniable, Command.createsOn, NamesHeader]
  simp [execute, isMountpoint, keepExistingStorage, convergeStorage, cleanupStaleMounts,
    prepareDisk, husb, wipeDisk, eraseTable, fillWithRandomData, discardBlocks, setupLuks,
    formatLuks, openLuks, setupBtrfs, ensureBtrfs, createSubvolumes, createSubvolume,
    mountFilesystems, hmount, mountEfiPartition, createSwapfile, fileExists, KeepsDeniable,
    Command.createsOn, NamesHeader, detachedHeader_usb husb, InstallerConfig.efiPartition,
    driveDevices]

/-- Partitions, file systems and headers, over the whole installation. -/
theorem issues_install_deniable (husb : config.usbBoot.enabled) :
    IssuesGiven allowed (KeepsDeniable config) (Installer.install safeDump config) := by
  refine Installer.issues_install (fun step hstep => ?_) fun invocation h =>
    LeavesDevices.keepsDeniable ⟨h.1, h.2.1⟩
  rw [Installer.enabledSteps_eq] at hstep
  simp only [List.mem_append, List.mem_cons, List.mem_filter, List.not_mem_nil, or_false] at hstep
  obtain ⟨rfl | rfl, -⟩ | rfl | ⟨hafter, -⟩ := hstep
  · rw [InstallStep.execute]
    exact MigrationStagingStepExecutor.issues_execute.mono fun _ h =>
      keepsDeniable_of_writes h.1 h.namesHeader
  · rw [InstallStep.execute]
    exact UsbBootDriveStepExecutor.issues_execute_deniable
  · rw [InstallStep.execute]
    exact StorageStepExecutor.issues_execute_deniable husb
  · exact (issues_afterStorage hafter).mono fun _ h => h.keepsDeniable

end Issues

/-! ## The random fill -/

/-- The command overwrites a part of the target disk with zeros. -/
def ZeroesTarget (diskOf : String → Disk) (config : InstallerConfig) (command : Command) : Prop :=
  ∃ device ∈ command.zeroes, diskOf device = diskOf config.storage.targetDisk

/-- The command fills the whole target disk with random data. -/
def FillsTarget (config : InstallerConfig) (command : Command) : Prop :=
  config.storage.targetDisk ∈ command.fills

/-- Whether the target disk was zeroed since its last random fill. A LUKS volume may be formatted
only while it was not. -/
inductive FillMonitor (diskOf : String → Disk) (config : InstallerConfig) :
    Machine Invocation CommandExecutionResult Bool
  | zero : ZeroesTarget diskOf config invocation.command →
    FillMonitor diskOf config zeroed invocation answer true
  | fill : FillsTarget config invocation.command →
    FillMonitor diskOf config zeroed invocation answer false
  | format : invocation.command.formatsVolume →
    FillMonitor diskOf config false invocation answer false
  | other : ¬ ZeroesTarget diskOf config invocation.command →
    invocation.command.formatsVolume = false → FillMonitor diskOf config zeroed invocation answer zeroed

/-- Every zeroing of the target disk is followed by a random fill before the next format. -/
def FilledBeforeFormat (diskOf : String → Disk) (config : InstallerConfig)
    (exchanges : Exchanges) : Prop :=
  ∀ before x between y after, exchanges = before ++ x :: (between ++ y :: after) →
    ZeroesTarget diskOf config x.1.command → y.1.command.formatsVolume →
      ∃ z ∈ between, FillsTarget config z.1.command

section Monitor

variable {invocation : Invocation} {answer : CommandExecutionResult} {zeroed zeroed' : Bool}

theorem FillMonitor.zeroed_of_zeroes
    (h : FillMonitor diskOf config zeroed invocation answer zeroed')
    (hzeroes : ZeroesTarget diskOf config invocation.command) : zeroed' = true := by
  obtain ⟨device, hdevice, hdisk⟩ := hzeroes
  cases h with
  | zero => rfl
  | fill hfills =>
    cases hcommand : invocation.command <;> rw [hcommand] at hdevice hfills <;>
      simp [Command.zeroes, FillsTarget, Command.fills] at hdevice hfills
  | format hformats =>
    cases hcommand : invocation.command <;> rw [hcommand] at hdevice hformats <;>
      simp [Command.zeroes, Command.formatsVolume] at hdevice hformats
  | other hzeroes => exact absurd ⟨device, hdevice, hdisk⟩ hzeroes

theorem FillMonitor.not_zeroed_of_formats
    (h : FillMonitor diskOf config zeroed invocation answer zeroed')
    (hformats : invocation.command.formatsVolume) : zeroed = false := by
  cases h with
  | zero hzeroes =>
    obtain ⟨device, hdevice, -⟩ := hzeroes
    cases hcommand : invocation.command <;> rw [hcommand] at hdevice hformats <;>
      simp [Command.zeroes, Command.formatsVolume] at hdevice hformats
  | fill hfills =>
    cases hcommand : invocation.command <;> rw [hcommand] at hfills hformats <;>
      simp [FillsTarget, Command.fills, Command.formatsVolume] at hfills hformats
  | format => rfl
  | other _ hother => rw [hother] at hformats; cases hformats

theorem FillMonitor.stays_zeroed (h : FillMonitor diskOf config true invocation answer zeroed')
    (hfills : ¬ FillsTarget config invocation.command) : zeroed' = true := by
  cases h with
  | zero | other => rfl
  | fill hfills' => exact absurd hfills' hfills

/-- What the monitor accepts is filled before it is formatted. -/
theorem filledBeforeFormat_of_replays
    (h : Replays (FillMonitor diskOf config) zeroed exchanges zeroed') :
    FilledBeforeFormat diskOf config exchanges := by
  rintro before x between y after rfl hzeroes hformats
  by_contra! hunfilled
  simp only [replays_append_iff, replays_cons_iff] at h
  obtain ⟨_, -, _, hx, mid, hbetween, _, hy, -⟩ := h
  have hzeroed : mid = true := hbetween.preserves (P := (· = true))
    (fun z hz _ _ hs hstep => (hs ▸ hstep).stays_zeroed (hunfilled z hz)) (hx.zeroed_of_zeroes hzeroes)
  rw [hy.not_zeroed_of_formats hformats] at hzeroed
  cases hzeroed

end Monitor

/-! ### The monitor follows the installation -/

/-- A command that zeroes nothing on the target disk. -/
def KeepsFill (diskOf : String → Disk) (config : InstallerConfig) (invocation : Invocation) : Prop :=
  ∀ device ∈ invocation.command.zeroes, diskOf device ≠ diskOf config.storage.targetDisk

theorem keepsFill_of_writes {invocation : Invocation} {devices : List String}
    (hdevices : ∀ device ∈ devices, diskOf device ≠ diskOf config.storage.targetDisk)
    (h : invocation.command.writes ⊆ devices) : KeepsFill diskOf config invocation :=
  fun device hdevice => hdevices device (h (invocation.command.zeroes_subset_writes hdevice))

section Accepts

variable {α : Type} {p : Script α} {zeroed : Bool}

/-- While the disk is filled, anything may run that zeroes nothing on it. -/
theorem accepts_of_keepsFill (h : Issues (KeepsFill diskOf config) p) :
    Accepts (FillMonitor diskOf config) false p fun _ zeroed' => zeroed' = false := by
  refine h.accepts (I := (· = false)) ?_ rfl
  rintro invocation answer _ hkeeps rfl
  cases hformats : invocation.command.formatsVolume with
  | true => exact ⟨false, .format hformats, rfl⟩
  | false =>
    refine ⟨false, .other ?_ hformats, rfl⟩
    rintro ⟨device, hdevice, hdisk⟩
    exact hkeeps device hdevice hdisk

/-- Whatever the disk holds, anything may run that formats no volume. -/
theorem accepts_of_not_formats
    (h : Issues (fun invocation => invocation.command.formatsVolume = false) p) :
    Accepts (FillMonitor diskOf config) zeroed p fun _ _ => True := by
  refine h.accepts (I := fun _ => True) (fun invocation answer zeroed hformats _ => ?_) trivial
  by_cases hzeroes : ZeroesTarget diskOf config invocation.command
  · exact ⟨true, .zero hzeroes, trivial⟩
  · exact ⟨zeroed, .other hzeroes hformats, trivial⟩

namespace StorageStepExecutor

theorem accepts_fillWithRandomData :
    Accepts (FillMonitor diskOf config) zeroed (fillWithRandomData config.storage.targetDisk)
      fun _ zeroed' => zeroed' = false := by
  have hshred : Accepts (FillMonitor diskOf config) zeroed (probe (.shred config.storage.targetDisk))
      fun _ zeroed' => zeroed' = false := by
    refine accepts_probe fun result => ⟨false, .fill ?_, rfl⟩
    simp [FillsTarget, Command.fills]
  rw [fillWithRandomData, info, Program.log_bind, accepts_log, Program.ret_bind]
  refine hshred.bind fun shredded zeroed' hfilled => ?_
  subst hfilled
  apply accepts_of_keepsFill
  simp [KeepsFill, Command.zeroes]

/-- A secure wipe leaves the disk filled with random data. -/
theorem accepts_wipeDisk_secure :
    Accepts (FillMonitor diskOf config) zeroed (wipeDisk config .secure)
      fun _ zeroed' => zeroed' = false := by
  have herase : Accepts (FillMonitor diskOf config) zeroed
      (eraseTable config.storage.targetDisk) fun _ _ => True := by
    apply accepts_of_not_formats
    simp [eraseTable, Command.formatsVolume]
  rw [wipeDisk, info, Program.log_bind, accepts_log, Program.ret_bind]
  refine herase.bind fun _ _ _ => accepts_fillWithRandomData.bind fun _ _ hfilled => ?_
  subst hfilled
  apply accepts_of_keepsFill
  simp [KeepsFill, Command.zeroes]

/-- The validation leaves the methods `secure` and `skip`. -/
theorem wipeMethod_of_installProblems (husb : config.usbBoot.enabled)
    (hproblems : installProblems config = []) :
    wipeMethod config = .secure ∨ wipeMethod config = .skip := by
  have husbProblems : usbBootProblems config = [] := by
    simp only [installProblems, List.append_eq_nil_iff, husb, if_true] at hproblems
    exact hproblems.2
  have hmethod : ¬ (!config.migration.enabled &&
      [.quick, .discard].contains config.storage.wipeMethod) = true := by
    intro h
    simp only [usbBootProblems, List.append_eq_nil_iff, h, if_true] at husbProblems
    exact absurd husbProblems.2 (List.cons_ne_nil _ _)
  rw [wipeMethod]
  cases hmigration : config.migration.enabled with
  | true => simp [husb]
  | false =>
    rw [hmigration] at hmethod
    cases hwipe : config.storage.wipeMethod <;> simp_all

theorem accepts_prepareDisk (husb : config.usbBoot.enabled)
    (hmethod : wipeMethod config = .secure ∨ wipeMethod config = .skip) :
    Accepts (FillMonitor diskOf config) false (prepareDisk config)
      fun _ zeroed' => zeroed' = false := by
  rw [prepareDisk, if_pos husb]
  refine .onlyIf (fun hwipes => ?_) fun _ => rfl
  obtain hsecure | hskip := hmethod
  · rw [hsecure]
    exact accepts_wipeDisk_secure
  · simp [hskip] at hwipes

/-- The storage step zeroes the disk before it fills it, and formats the volume after that. -/
theorem accepts_execute (husb : config.usbBoot.enabled)
    (hmethod : wipeMethod config = .secure ∨ wipeMethod config = .skip) :
    Accepts (FillMonitor diskOf config) false (execute config) fun _ _ => True := by
  have hmounted : Accepts (FillMonitor diskOf config) false (isMountpoint targetRoot)
      fun _ zeroed' => zeroed' = false := by
    apply accepts_of_keepsFill
    simp [isMountpoint, KeepsFill, Command.zeroes]
  have hcleanup : Accepts (FillMonitor diskOf config) false cleanupStaleMounts
      fun _ zeroed' => zeroed' = false := by
    apply accepts_of_keepsFill
    simp [cleanupStaleMounts, KeepsFill, Command.zeroes]
  have hluks : Accepts (FillMonitor diskOf config) false (setupLuks config)
      fun _ zeroed' => zeroed' = false := by
    apply accepts_of_keepsFill
    simp [setupLuks, formatLuks, openLuks, KeepsFill, Command.zeroes]
  have hfillStorage : ∀ zeroed, Accepts (FillMonitor diskOf config) zeroed (fillStorage config)
      fun _ _ => True := fun zeroed => accepts_of_not_formats
    (issues_fillStorage_probes.mono fun _ h => Command.not_formatsVolume h.1)
  have hkeep : Accepts (FillMonitor diskOf config) false keepExistingStorage fun _ _ => True := by
    apply accepts_of_not_formats
    simp [keepExistingStorage, isMountpoint, Command.formatsVolume]
  refine hmounted.bind fun mounted _ hfilled => ?_
  subst hfilled
  cases mounted with
  | true => exact hkeep
  | false =>
    rw [if_neg Bool.false_ne_true, convergeStorage_eq, openStorage, info, Program.log_bind,
      Program.log_bind, accepts_log, Program.ret_bind, bind_assoc]
    refine hcleanup.bind fun _ _ hfilled => ?_
    subst hfilled
    rw [bind_assoc]
    refine (accepts_prepareDisk husb hmethod).bind fun _ _ hfilled => ?_
    subst hfilled
    exact hluks.bind fun _ _ _ => hfillStorage _

end StorageStepExecutor

/-- The steps before the storage step zero nothing on the target disk. -/
theorem issues_beforeStorage
    (hdrive : ∀ device ∈ driveDevices config, diskOf device ≠ diskOf config.storage.targetDisk)
    {step : InstallStep} (h : step ∈ [InstallStep.migrationStaging, .usbBootDrive]) :
    Issues (KeepsFill diskOf config) (step.execute config) := by
  have hnone : ∀ invocation : Invocation, invocation.command.writes = [] →
      KeepsFill diskOf config invocation := by
    intro invocation hwrites
    exact keepsFill_of_writes hdrive (hwrites ▸ List.nil_subset _)
  simp only [List.mem_cons, List.not_mem_nil, or_false] at h
  obtain rfl | rfl := h
  · rw [InstallStep.execute]
    exact MigrationStagingStepExecutor.issues_execute.mono fun _ h => hnone _ h.1
  · rw [InstallStep.execute, UsbBootDriveStepExecutor.execute]
    simp only [issues_bind, issues_onlyIf]
    refine ⟨?_, fun _ _ => ⟨?_, fun _ _ _ => ?_⟩⟩
    · exact UsbBootDriveStepExecutor.issues_requireDevices.mono fun _ h => hnone _ h.1
    · exact UsbBootDriveStepExecutor.issues_keepsExistingDrive.mono fun _ h => hnone _ h
    · exact UsbBootDriveStepExecutor.issues_prepareDrive.mono fun _ h =>
        keepsFill_of_writes hdrive h.writes

theorem accepts_install (husb : config.usbBoot.enabled) (hproblems : installProblems config = [])
    (hdrive : ∀ device ∈ driveDevices config, diskOf device ≠ diskOf config.storage.targetDisk) :
    Accepts (FillMonitor diskOf config) false (Installer.install safeDump config)
      fun _ _ => True := by
  have hstart : Accepts (FillMonitor diskOf config) false (Installer.start config)
      fun _ zeroed' => zeroed' = false := accepts_of_keepsFill Installer.issues_start
  have hstorage : Accepts (FillMonitor diskOf config) false (StorageStepExecutor.execute config)
      fun _ _ => True := StorageStepExecutor.accepts_execute husb
    (StorageStepExecutor.wipeMethod_of_installProblems husb hproblems)
  have hfinish : ∀ zeroed, Accepts (FillMonitor diskOf config) zeroed
      (Installer.finish safeDump config) fun _ _ => True := fun zeroed =>
    accepts_of_not_formats (Installer.issues_finish.mono fun _ h => Command.not_formatsVolume h.2.1)
  have hbefore : ∀ count index, Accepts (FillMonitor diskOf config) false
      (Installer.runSteps config count index
        ([.migrationStaging, .usbBootDrive].filter (InstallStep.enabled config)))
      fun _ zeroed' => zeroed' = false := fun _ _ =>
    accepts_of_keepsFill (Installer.issues_runSteps fun _ hstep =>
      issues_beforeStorage hdrive (List.mem_of_mem_filter hstep))
  have hafter : ∀ zeroed count index, Accepts (FillMonitor diskOf config) zeroed
      (Installer.runSteps config count index
        (stepsAfterStorage.filter (InstallStep.enabled config))) fun _ _ => True := fun _ _ _ =>
    accepts_of_not_formats (Installer.issues_runSteps fun _ hstep =>
      (issues_afterStorage (List.mem_of_mem_filter hstep)).mono fun _ h =>
        Command.not_formatsVolume h.2)
  rw [Installer.install_eq, Installer.enabledSteps_eq, Installer.runSteps_append, bind_assoc]
  refine hstart.bind fun _ _ hfilled => ?_
  subst hfilled
  refine (hbefore _ _).bind fun _ _ hfilled => ?_
  subst hfilled
  rw [Installer.runSteps, info, Program.log_bind, Program.log_bind, accepts_log, Program.ret_bind,
    bind_assoc]
  exact hstorage.bind fun _ _ _ => (hafter _ _ _).bind fun _ zeroed _ => hfinish zeroed

end Accepts

/-! ## The whole installation -/

/-- With a USB boot drive that does not lie on the target disk, an accepted configuration puts no
partition and no plain file system on the target disk, every volume but the old one has its header
on the drive and its ciphertext from the first byte on, and the random fill covers what was zeroed
before a volume is formatted. -/
theorem install_deniable (husb : config.usbBoot.enabled)
    (hdrive : ∀ device ∈ driveDevices config, diskOf device ≠ diskOf config.storage.targetDisk)
    (hrun : Runs (validateAndInstall safeDump config) exchanges outcome) :
    (∀ x ∈ exchanges, ∀ device ∈ x.1.command.createsOn,
      device ≠ config.storage.cryptrootDevice → diskOf device ≠ diskOf config.storage.targetDisk) ∧
    (∀ x ∈ exchanges, NamesHeader config x.1.command) ∧
    (∀ x ∈ exchanges, ∀ luks header device, x.1.command = .cryptsetupLuksFormat luks header device →
      offsetOption header = s!"--header {config.usbBoot.luksHeaderPartition} --offset 0 ") ∧
    FilledBeforeFormat diskOf config exchanges := by
  by_cases hissued : exchanges = []
  · subst hissued
    exact ⟨by simp, by simp, by simp, fun before x between y after h => by simp at h⟩
  obtain ⟨hproblems, hinstall⟩ := runs_validateAndInstall hrun hissued
  have hdeniable := issues_install_deniable husb exchanges outcome allAllowed_true hinstall
  obtain ⟨zeroed, hreplay, -⟩ := accepts_install husb hproblems hdrive exchanges outcome hinstall
  refine ⟨fun x hx device hdevice hvolume => ?_, fun x hx => (hdeniable x hx).2,
    fun x hx luks header device hcommand => ?_, filledBeforeFormat_of_replays hreplay⟩
  · obtain heq | hmem := List.mem_cons.mp ((hdeniable x hx).1 hdevice)
    · exact absurd heq hvolume
    · exact hdrive device hmem
  · have hnames := (hdeniable x hx).2
    rw [hcommand] at hnames
    exact hnames.offset

/-- A machine whose second partition of `/dev/sda` holds an old LUKS volume. -/
def oldSystemDisk : Unit → Invocation → CommandExecutionResult × Unit
  | (), invocation =>
    match invocation.command with
    | .lsblkNames _ => (answering "sda\nsda1\nsda2\n", ())
    | .cryptsetupIsLuks device => (⟨if device == "/dev/sda2" then 0 else 1, "", ""⟩, ())
    | _ => anyDisk () invocation

/-- The disk's name is the first eight characters of `/dev/sda`, `/dev/sda2` or `/dev/sdb1`. -/
def diskName (device : String) : List Char := device.toList.take 8

/-- An installation that is cut off after it has formatted the volume. -/
theorem install_deniable_formatted :
    let run := simulate oldSystemDisk (validateAndInstall (fun _ => "") sampleUsbConfig) 60 ()
    (∃ x ∈ run.exchanges, x.1.command.formatsVolume) ∧
      FilledBeforeFormat diskName sampleUsbConfig run.exchanges := by
  intro run
  exact ⟨by decide,
    (install_deniable rfl (by decide) (simulate_runs _ _ _ _)).2.2.2⟩

/-! ### The old system, and a partition of the drive as the target disk -/

/-- Migration opens a LUKS partition of the target disk without `--header`, and a partition of the
drive that is configured as the target disk gets the EFI file system. -/
theorem migration_opens_without_header :
    let migrating : InstallerConfig := { sampleUsbConfig with
      migration := { sampleUsbConfig.migration with enabled := true }
      credentials := { sampleUsbConfig.credentials with sourceLuksPassword := "old password" } }
    let nested : InstallerConfig := { sampleUsbConfig with
      storage := { sampleUsbConfig.storage with targetDisk := "/dev/sdb1" } }
    let migration := simulate oldSystemDisk (validateAndInstall (fun _ => "") migrating) 20 ()
    let install := simulate oldSystemDisk (validateAndInstall (fun _ => "") nested) 60 ()
    installProblems migrating = [] ∧ installProblems nested = [] ∧
    Runs (validateAndInstall (fun _ => "") migrating) migration.exchanges migration.outcome ∧
    Runs (validateAndInstall (fun _ => "") nested) install.exchanges install.outcome ∧
    (∃ x ∈ migration.exchanges, x.1.command = .cryptsetupOpen none "/dev/sda2" oldMapperName) ∧
    ∃ x ∈ install.exchanges, x.1.command = .mkfsVfat nested.storage.targetDisk := by
  intro migrating nested migration install
  exact ⟨by decide, by decide, simulate_runs _ _ _ _, simulate_runs _ _ _ _, by decide,
    by decide⟩

end ArchInstaller
