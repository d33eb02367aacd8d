import ArchInstaller.Executors.UsbBoot
import ArchInstaller.Verify.StorageRuns

/-! # Runs of the USB boot drive step

How a run of `UsbBootDriveStepExecutor.execute` splits into its parts, and what each part issues;
and what the storage step does differently with a USB boot drive. -/

namespace ArchInstaller

open Interaction PyText Script

variable {config : InstallerConfig} {exchanges : Exchanges}

namespace UsbBootDriveStepExecutor

/-- The LUKS header was found on the drive. -/
def FindsHeader (config : InstallerConfig) (exchanges : Exchanges) : Prop :=
  ∃ x ∈ exchanges, x.1.command = .cryptsetupIsLuks config.usbBoot.luksHeaderPartition ∧
    x.2.success

instance : Decidable (FindsHeader config exchanges) :=
  inferInstanceAs (Decidable (∃ x ∈ exchanges, _ ∧ _))

/-- A run that returns has checked the devices, and prepared the drive unless it keeps it. -/
theorem runs_execute_returned (hrun : Runs (execute config) exchanges (.returned ())) :
    ∃ checks look prepare keeps, exchanges = checks ++ (look ++ prepare) ∧
      Runs (requireDevices config) checks (.returned ()) ∧
      Runs (keepsExistingDrive config) look (.returned keeps) ∧
      if keeps then prepare = [] else Runs (prepareDrive config) prepare (.returned ()) := by
  obtain ⟨checks, ⟨⟩, rest, rfl, hchecks, hrest⟩ := runs_bind_returned_iff.mp hrun
  obtain ⟨look, keeps, prepare, rfl, hlook, hprepare⟩ := runs_bind_returned_iff.mp hrest
  refine ⟨checks, look, prepare, keeps, rfl, hchecks, hlook, ?_⟩
  cases keeps <;> simpa using hprepare

/-- The second half of `keepsExistingDrive`. -/
def lookForHeader (config : InstallerConfig) (resuming : Bool) : Script Bool := do
  let headerPartition := config.usbBoot.luksHeaderPartition
  if resuming then
    let holdsHeader ← UsbDriveInspector.holdsLuksHeader headerPartition
    Program.onlyIf holdsHeader
      (info s!"Keeping the USB boot drive, {headerPartition} holds the LUKS header")
    return holdsHeader
  else return false

theorem keepsExistingDrive_eq : keepsExistingDrive config =
    isMountpoint targetRoot >>= fun mounted => lookForHeader config
      (mounted || (config.storage.wipeMethod == .skip && !config.migration.enabled)) := by
  rw [keepsExistingDrive]
  congr 1
  funext mounted
  cases mounted <;> rfl

theorem runs_lookForHeader {resuming keeps : Bool}
    (hrun : Runs (lookForHeader config resuming) exchanges (.returned keeps)) :
    keeps = true ↔ FindsHeader config exchanges := by
  cases resuming with
  | false =>
    obtain ⟨rfl, rfl⟩ := runs_pure_returned_iff.mp hrun
    simp [FindsHeader]
  | true =>
    simp only [lookForHeader, if_true, UsbDriveInspector.holdsLuksHeader, runs_bind_returned_iff,
      runs_probe_returned_iff, runs_onlyIf_returned_iff, runs_info_returned_iff, ite_self,
      runs_pure_returned_iff] at hrun
    obtain ⟨_, _, _, rfl, ⟨result, rfl, rfl⟩, _, _, _, rfl, rfl, rfl, rfl⟩ := hrun
    simp [FindsHeader]

/-- The drive is kept where its header is found. -/
theorem runs_keepsExistingDrive {keeps : Bool}
    (hrun : Runs (keepsExistingDrive config) exchanges (.returned keeps)) :
    keeps = true ↔ FindsHeader config exchanges := by
  rw [keepsExistingDrive_eq] at hrun
  obtain ⟨mounts, mounted, rest, rfl, hmounts, hrest⟩ := runs_bind_returned_iff.mp hrun
  obtain ⟨result, rfl, rfl⟩ := runs_probe_returned_iff.mp hmounts
  rw [runs_lookForHeader hrest]
  simp [FindsHeader]

/-! ## What each part issues -/

section Issues

variable {allowed : Invocation → CommandExecutionResult → Prop}

/-- A command that writes no block device, and asks for no LUKS header. -/
def LooksOnly (invocation : Invocation) : Prop :=
  invocation.command.writes = [] ∧ invocation.command.probesData = false

theorem issues_requireDisk {device : String} :
    IssuesGiven allowed LooksOnly (UsbDriveInspector.requireDisk device) := by
  simp [UsbDriveInspector.requireDisk, LooksOnly, Command.writes, Command.probesData]

theorem issues_requireDevices :
    IssuesGiven allowed LooksOnly (requireDevices config) := by
  simp [requireDevices, issues_requireDisk, stableDiskPath, LooksOnly, Command.writes,
    Command.probesData]

theorem issues_keepsExistingDrive :
    IssuesGiven allowed (fun invocation => invocation.command.writes = [])
      (keepsExistingDrive config) := by
  simp [keepsExistingDrive, isMountpoint, UsbDriveInspector.holdsLuksHeader, Command.writes]

/-- The device paths of the drive and its partitions. -/
def driveDevices (config : InstallerConfig) : List String :=
  [config.usbBoot.device, config.usbBoot.efiPartition, config.usbBoot.luksHeaderPartition,
    config.usbBoot.recoveryPartition]

/-- A command of `prepareDrive`: it writes the drive alone, and makes and opens no LUKS volume. -/
structure PreparesDrive (config : InstallerConfig) (invocation : Invocation) : Prop where
  writes : invocation.command.writes ⊆ driveDevices config
  volumes : invocation.command.usesVolume = false
  probes : invocation.command.probesData = false

@[simp] theorem preparesDrive_iff {invocation : Invocation} : PreparesDrive config invocation ↔
    invocation.command.writes ⊆ driveDevices config ∧
      invocation.command.usesVolume = false ∧ invocation.command.probesData = false :=
  ⟨fun h => ⟨h.1, h.2, h.3⟩, fun h => ⟨h.1, h.2.1, h.2.2⟩⟩

theorem issues_parseNumber {good : Invocation → Prop} {text : String} :
    IssuesGiven allowed good (parseNumber text) := by
  unfold parseNumber
  split <;> simp

theorem issues_recoveryIso_sizeBytes {image : ArchIsoImage} :
    IssuesGiven allowed (PreparesDrive config) image.sizeBytes := by
  simp [ArchIsoImage.sizeBytes, ArchIsoImage.readText, ArchIsoImage.readNumber, ArchIsoImage.read,
    issues_parseNumber, Command.writes, Command.usesVolume, Command.probesData]

theorem issues_partition {recoverySizeMb : Int} :
    IssuesGiven allowed (PreparesDrive config) (partition config recoverySizeMb) := by
  have hwait : ∀ device node, IssuesGiven allowed (PreparesDrive config)
      (UsbDriveInspector.waitForPartition device node) := by
    intro device node
    apply issues_waitForNode <;> simp [Command.writes, Command.usesVolume, Command.probesData]
  simp [partition, hwait, driveDevices, Command.writes, Command.usesVolume, Command.probesData]

theorem issues_prepareDrive :
    IssuesGiven allowed (PreparesDrive config) (prepareDrive config) := by
  simp [prepareDrive, issues_recoveryIso_sizeBytes, requireCapacity, UsbDriveInspector.sizeBytes,
    issues_parseNumber, releaseDrive, issues_partition, storeRecoverySystem, ArchIsoImage.extractLiveSystem,
    driveDevices, Command.writes, Command.usesVolume, Command.probesData]

end Issues

/-- A command that creates a partition on the drive. -/
def PartitionsDrive (config : InstallerConfig) (invocation : Invocation) : Prop :=
  ∃ number size type, invocation.command = .sgdiskNew number size type config.usbBoot.device

theorem runs_partition {recoverySizeMb : Int}
    (hrun : Runs (partition config recoverySizeMb) exchanges (.returned ())) :
    ∃ x ∈ exchanges, PartitionsDrive config x.1 := by
  obtain ⟨_, _, _, rfl, -, hrun⟩ := runs_bind_returned_iff.mp hrun
  obtain ⟨_, _, _, rfl, -, hrun⟩ := runs_bind_returned_iff.mp hrun
  obtain ⟨_, _, _, rfl, hcreate, -⟩ := runs_bind_returned_iff.mp hrun
  obtain ⟨result, rfl, -⟩ := runs_run_unit_iff.mp hcreate
  exact ⟨_, List.mem_append_right _ (List.mem_append_right _ (List.mem_append_left _
    (List.mem_singleton_self _))), _, _, _, rfl⟩

/-- `prepareDrive`, for the size of the image that its recovery system comes from. -/
def prepareDriveFor (config : InstallerConfig) (isoSizeBytes : Int) : Script Unit := do
  let recoverySizeMb := if isoSizeBytes != 0 then recoveryPartitionSizeMb isoSizeBytes else 0
  requireCapacity config recoverySizeMb
  info s!"Preparing the USB boot drive {config.usbBoot.device}..."
  releaseDrive config
  partition config recoverySizeMb
  run_ (.mkfsVfat config.usbBoot.efiPartition)
  Program.onlyIf config.usbBoot.recoverySystem
    (storeRecoverySystem config ⟨config.usbBoot.isoPath⟩)

theorem prepareDrive_eq : prepareDrive config =
    (if config.usbBoot.recoverySystem then ArchIsoImage.sizeBytes ⟨config.usbBoot.isoPath⟩
      else pure 0) >>= prepareDriveFor config := by
  simp only [prepareDrive]
  by_cases hrecovery : config.usbBoot.recoverySystem = true
  · rw [if_pos hrecovery, if_pos hrecovery]
    rfl
  · rw [if_neg hrecovery, if_neg hrecovery]
    rfl

theorem runs_prepareDrive (hrun : Runs (prepareDrive config) exchanges (.returned ())) :
    ∃ x ∈ exchanges, PartitionsDrive config x.1 := by
  rw [prepareDrive_eq] at hrun
  obtain ⟨_, isoSizeBytes, _, rfl, -, hrun⟩ := runs_bind_returned_iff.mp hrun
  obtain ⟨_, _, _, rfl, -, hrun⟩ := runs_bind_returned_iff.mp hrun
  obtain ⟨_, _, _, rfl, -, hrun⟩ := runs_bind_returned_iff.mp hrun
  obtain ⟨_, _, _, rfl, -, hrun⟩ := runs_bind_returned_iff.mp hrun
  obtain ⟨_, _, _, rfl, hpartition, -⟩ := runs_bind_returned_iff.mp hrun
  obtain ⟨x, hx, hpartitions⟩ := runs_partition hpartition
  exact ⟨x, by simp [hx], hpartitions⟩

end UsbBootDriveStepExecutor

/-! ## The storage step with a USB boot drive -/

namespace StorageStepExecutor

variable {allowed : Invocation → CommandExecutionResult → Prop}

theorem issues_prepareDisk_usb (husb : config.usbBoot.enabled) :
    IssuesGiven allowed (RewritesDisk config) (prepareDisk config) := by
  simp only [prepareDisk, husb, if_true, issues_onlyIf, issues_wipeDisk, implies_true]

/-- A command that creates no partition. -/
def CreatesNoPartition (invocation : Invocation) : Prop :=
  ∀ number size type device, invocation.command ≠ .sgdiskNew number size type device

/-- With a USB boot drive the disk gets no partitions. -/
theorem issues_execute_usb (husb : config.usbBoot.enabled) :
    IssuesGiven allowed CreatesNoPartition (execute config) := by
  have hmount : ∀ subvolume,
      IssuesGiven allowed CreatesNoPartition (mountSubvolume config subvolume) := by
    simp [mountSubvolume, CreatesNoPartition]
  simp [execute, isMountpoint, keepExistingStorage, convergeStorage, cleanupStaleMounts,
    prepareDisk, husb, wipeDisk, eraseTable, fillWithRandomData, discardBlocks, setupLuks,
    formatLuks, openLuks, setupBtrfs, ensureBtrfs, createSubvolumes, createSubvolume,
    mountFilesystems, hmount, mountEfiPartition, createSwapfile, fileExists, CreatesNoPartition]

theorem detachedHeader_usb (husb : config.usbBoot.enabled) :
    detachedHeader config = some config.usbBoot.luksHeaderPartition := by
  simp [detachedHeader, husb]

theorem luksHeaderDevice_usb (husb : config.usbBoot.enabled) :
    config.luksHeaderDevice = config.usbBoot.luksHeaderPartition := by
  simp [InstallerConfig.luksHeaderDevice, husb]

end StorageStepExecutor

end ArchInstaller
