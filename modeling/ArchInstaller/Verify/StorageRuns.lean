import ArchInstaller.Config.Sample
import ArchInstaller.Core.Runs
import ArchInstaller.Executors.Storage
import ArchInstaller.World.Devices
import ArchInstaller.World.Disk

/-! # Runs of the storage step

How a run of `StorageStepExecutor.execute` splits into its parts, and what each part does to the
disk. -/

namespace ArchInstaller.StorageStepExecutor

open Interaction PyText Script

variable {config : InstallerConfig} {exchanges : Exchanges}

/-- The first part of `convergeStorage`, up to the open LUKS volume. -/
def openStorage (config : InstallerConfig) : Script Unit := do
  info s!"Converging storage on {config.storage.targetDisk}..."
  cleanupStaleMounts
  prepareDisk config
  setupLuks config

/-- The second part of `convergeStorage`, on the open LUKS volume. -/
def fillStorage (config : InstallerConfig) : Script Unit := do
  setupBtrfs config
  mountFilesystems config
  Program.onlyIf (config.storage.swap.enabled && decide (config.storage.swap.sizeMb > 0))
    (createSwapfile config)
  info "Storage provisioning complete."

/-- What `fillStorage` does after the mounts. -/
def finishStorage (config : InstallerConfig) : Script Unit := do
  Program.onlyIf (config.storage.swap.enabled && decide (config.storage.swap.sizeMb > 0))
    (createSwapfile config)
  info "Storage provisioning complete."

theorem convergeStorage_eq :
    convergeStorage config = openStorage config >>= fun _ => fillStorage config := by
  simp only [convergeStorage, openStorage, fillStorage, bind_assoc]

theorem runs_openStorage_returned_iff :
    Runs (openStorage config) exchanges (.returned ()) ↔ ∃ cleanup prepare luks,
      exchanges = cleanup ++ (prepare ++ luks) ∧ Runs cleanupStaleMounts cleanup (.returned ()) ∧
        Runs (prepareDisk config) prepare (.returned ()) ∧
        Runs (setupLuks config) luks (.returned ()) := by
  rw [openStorage, runs_info_bind]
  simp only [runs_bind_returned_iff]
  grind

theorem fillStorage_eq : fillStorage config =
    setupBtrfs config >>= fun _ => mountFilesystems config >>= fun _ => finishStorage config :=
  rfl

theorem runs_fillStorage_returned_iff :
    Runs (fillStorage config) exchanges (.returned ()) ↔ ∃ btrfs filesystems rest,
      exchanges = btrfs ++ (filesystems ++ rest) ∧ Runs (setupBtrfs config) btrfs (.returned ()) ∧
        Runs (mountFilesystems config) filesystems (.returned ()) ∧
        Runs (finishStorage config) rest (.returned ()) := by
  rw [fillStorage_eq]
  simp only [runs_bind_returned_iff]
  grind

/-- A partition is never the open volume: its path ends with its number. -/
theorem derivePartitionPath_ne_cryptrootPath (device : String) (number : Nat) :
    derivePartitionPath device number ≠ cryptrootPath := by
  intro h
  have hlast : cryptrootPath.toList.getLast? = some 't' := by decide
  have hdigits : (Nat.toDigits 10 number).getLast? ≠ some 't' := by
    intro hdigit
    have := Nat.isDigit_of_mem_toDigits (by decide) (by decide) (List.mem_of_getLast? hdigit)
    exact absurd this (by decide)
  rw [← h, derivePartitionPath] at hlast
  split at hlast
  · simp at hlast
  · split at hlast <;> simp [String.toList_append, List.getLast?_append] at hlast <;>
      exact hdigits hlast

/-- A run looks at the mountpoint first, and goes on by the answer. -/
theorem runs_execute_iff {outcome : Outcome InstallerError Unit} :
    Runs (execute config) exchanges outcome ↔ (exchanges = [] ∧ outcome = .stopped) ∨
      ∃ result tail, exchanges = (unchecked (.mountpoint targetRoot), result) :: tail ∧
        if result.success then Runs keepExistingStorage tail outcome
        else Runs (convergeStorage config) tail outcome := by
  simp only [execute, isMountpoint, runs_probe_bind_iff]
  grind

/-! ## What each part can issue -/

section Issues

variable {allowed : Invocation → CommandExecutionResult → Prop}

theorem issues_keepExistingStorage : IssuesGiven allowed
    (fun invocation => invocation.command = .findmntSource targetRoot ∨
      invocation.command = .mountpoint targetEfi) keepExistingStorage := by
  simp [keepExistingStorage, isMountpoint]

theorem issues_cleanupStaleMounts : IssuesGiven allowed
    (fun invocation => invocation.command ∈ [.umountRecursive targetRoot, .swapoffAll,
      .cryptsetupClose cryptrootMapperName, .cryptsetupClose "container", .dmsetupRemoveAll])
    cleanupStaleMounts := by
  simp [cleanupStaleMounts]

/-- A command of `prepareDisk`: it writes the target disk alone, and makes, opens and mounts
nothing. -/
structure PreparesDisk (config : InstallerConfig) (invocation : Invocation) : Prop where
  writes : invocation.command.writes ⊆ [config.storage.targetDisk]
  creates : invocation.command.creates = false
  mapping : invocation.command.changesMapping = false
  mounts : invocation.command.changesMounts = false

@[simp] theorem preparesDisk_iff {invocation : Invocation} : PreparesDisk config invocation ↔
    invocation.command.writes ⊆ [config.storage.targetDisk] ∧
      invocation.command.creates = false ∧ invocation.command.changesMapping = false ∧
      invocation.command.changesMounts = false :=
  ⟨fun h => ⟨h.1, h.2, h.3, h.4⟩, fun h => ⟨h.1, h.2.1, h.2.2.1, h.2.2.2⟩⟩

/-- A command of `prepareDisk` that does not ask what the partitions hold. -/
structure RewritesDisk (config : InstallerConfig) (invocation : Invocation) : Prop extends
    PreparesDisk config invocation where
  probes : invocation.command.probesData = false

@[simp] theorem rewritesDisk_iff {invocation : Invocation} : RewritesDisk config invocation ↔
    PreparesDisk config invocation ∧ invocation.command.probesData = false :=
  ⟨fun h => ⟨h.1, h.2⟩, fun h => ⟨h.1, h.2⟩⟩

attribute [local simp] Command.writes Command.creates Command.changesMapping Command.changesMounts
  Command.probesData in
theorem issues_wipeDisk {method : WipeMethod} :
    IssuesGiven allowed (RewritesDisk config) (wipeDisk config method) := by
  simp [wipeDisk, eraseTable, fillWithRandomData, discardBlocks, Command.writes, Command.creates,
    Command.changesMapping, Command.changesMounts, Command.probesData]

theorem issues_createLoopPartitionNode {line : String} :
    IssuesGiven allowed (RewritesDisk config) (createLoopPartitionNode line) := by
  unfold createLoopPartitionNode
  split <;> simp [pathExists, Command.writes, Command.creates, Command.changesMapping,
    Command.changesMounts, Command.probesData]

theorem issues_prepareLoopDevice {disk : String} :
    IssuesGiven allowed (RewritesDisk config) (prepareLoopDevice disk) := by
  unfold prepareLoopDevice loopDeviceSize
  simp [Command.writes, Command.creates, Command.changesMapping, Command.changesMounts,
    Command.probesData]

theorem issues_createPartitions :
    IssuesGiven allowed (RewritesDisk config) (createPartitions config) := by
  have hwait : IssuesGiven allowed (RewritesDisk config) (waitForPartitions config) := by
    apply issues_waitForNode <;>
      simp [Command.writes, Command.creates, Command.changesMapping, Command.changesMounts,
        Command.probesData]
  simp [createPartitions, createLoopPartitionNodes, issues_prepareLoopDevice,
    issues_createLoopPartitionNode, hwait, Command.writes, Command.creates,
    Command.changesMapping, Command.changesMounts, Command.probesData]

theorem issues_prepareDisk :
    IssuesGiven allowed (PreparesDisk config) (prepareDisk config) := by
  have hwipe : ∀ method, IssuesGiven allowed (PreparesDisk config) (wipeDisk config method) :=
    fun _ => issues_wipeDisk.mono fun _ h => h.toPreparesDisk
  have hcreate : IssuesGiven allowed (PreparesDisk config) (createPartitions config) :=
    issues_createPartitions.mono fun _ h => h.toPreparesDisk
  simp [prepareDisk, keepOrRecreatePartitions, partitionsExist, luksIsUsable, hwipe, hcreate,
    Command.writes, Command.creates, Command.changesMapping, Command.changesMounts]

/-- Without a USB boot drive, a method other than `skip` wipes the disk and partitions it. -/
theorem prepareDisk_eq_wipe (husb : config.usbBoot.enabled = false)
    (hmethod : wipeMethod config ≠ .skip) : prepareDisk config =
      wipeDisk config (wipeMethod config) >>= fun _ => createPartitions config := by
  simp [prepareDisk, husb, hmethod]

theorem issues_prepareDisk_wipe (husb : config.usbBoot.enabled = false)
    (hmethod : wipeMethod config ≠ .skip) :
    IssuesGiven allowed (RewritesDisk config) (prepareDisk config) := by
  rw [prepareDisk_eq_wipe husb hmethod]
  simp only [issues_bind, issues_wipeDisk, issues_createPartitions, implies_true, and_self]

/-- A command that leaves every device but the open volume alone, and keeps the volume open. -/
def KeepsVolume (config : InstallerConfig) (invocation : Invocation) : Prop :=
  invocation.command.erases ⊆ [config.storage.cryptrootDevice] ∧
    invocation.command.changesMapping = false

theorem issues_mountSubvolume {subvolume : SubvolumeConfig} :
    IssuesGiven allowed (KeepsVolume config) (mountSubvolume config subvolume) := by
  simp [mountSubvolume, KeepsVolume, Command.erases, Command.changesMapping]

theorem issues_fillStorage : IssuesGiven allowed (KeepsVolume config) (fillStorage config) := by
  simp [fillStorage, setupBtrfs, ensureBtrfs, isMountpoint, createSubvolumes, createSubvolume,
    mountFilesystems, issues_mountSubvolume, mountEfiPartition, createSwapfile, fileExists,
    KeepsVolume, Command.erases, Command.changesMapping]

/-- A command that makes and opens no LUKS volume, and looks only at the open volume and the EFI
partition. -/
def FillsVolume (config : InstallerConfig) (invocation : Invocation) : Prop :=
  invocation.command.usesVolume = false ∧ (invocation.command.probesData → invocation.command ∈
    [.blkid config.storage.cryptrootDevice, .blkid config.efiPartition])

theorem issues_fillStorage_probes :
    IssuesGiven allowed (FillsVolume config) (fillStorage config) := by
  have hmount : ∀ subvolume,
      IssuesGiven allowed (FillsVolume config) (mountSubvolume config subvolume) := by
    simp [mountSubvolume, FillsVolume, Command.usesVolume, Command.probesData]
  simp [fillStorage, setupBtrfs, ensureBtrfs, isMountpoint, createSubvolumes, createSubvolume,
    mountFilesystems, hmount, mountEfiPartition, createSwapfile, fileExists, FillsVolume,
    Command.usesVolume, Command.probesData]

/-- `setupBtrfs` leaves the EFI partition and the LUKS volume alone. -/
theorem issues_setupBtrfs :
    IssuesGiven allowed (fun invocation => invocation.command.changesMapping = false ∧
        (∀ device, invocation.command ≠ .mkfsVfat device) ∧
        (invocation.command.probesData → invocation.command =
          .blkid config.storage.cryptrootDevice))
      (setupBtrfs config) := by
  simp [setupBtrfs, ensureBtrfs, isMountpoint, createSubvolumes, createSubvolume,
    Command.changesMapping, Command.probesData]

theorem issues_finishStorage :
    IssuesGiven allowed
      (fun invocation => invocation.command.leavesDisk ∧ invocation.command.probesData = false)
      (finishStorage config) := by
  simp [finishStorage, createSwapfile, fileExists, Command.leavesDisk, Command.changesData,
    Command.changesMapping, Command.changesMounts, Command.probesData]

end Issues

/-! ## The LUKS volume -/

def statusCall : Invocation := unchecked (.cryptsetupStatus cryptrootMapperName)

def isLuksCall (config : InstallerConfig) : Invocation :=
  unchecked (.cryptsetupIsLuks config.luksHeaderDevice)

def formatCall (config : InstallerConfig) : Invocation :=
  ⟨.cryptsetupLuksFormat config.storage.luks (detachedHeader config) config.encryptedDevice, true,
    some config.credentials.luksPassword⟩

def openCall (config : InstallerConfig) : Invocation :=
  ⟨.cryptsetupOpen (detachedHeader config) config.encryptedDevice cryptrootMapperName, true,
    some config.credentials.luksPassword⟩

def settleCall : Invocation := unchecked .udevadmSettle

/-- `cryptsetup status` found `cryptroot` open. -/
def reportsOpen (status : CommandExecutionResult) : Bool :=
  status.success && contains "active" (lower status.stdout)

/-- The three ways in which `setupLuks` returns. -/
inductive SetupLuksRun (config : InstallerConfig) : Exchanges → Prop
  | alreadyOpen : reportsOpen status →
    (backingDevices status.stdout).contains config.encryptedDevice →
    SetupLuksRun config [(statusCall, status)]
  | opened : reportsOpen status = false → isLuks.success → opened.success →
    SetupLuksRun config [(statusCall, status), (isLuksCall config, isLuks),
      (openCall config, opened), (settleCall, settled)]
  | formatted : reportsOpen status = false → isLuks.success = false → formatted.success →
    opened.success →
    SetupLuksRun config [(statusCall, status), (isLuksCall config, isLuks),
      (formatCall config, formatted), (openCall config, opened), (settleCall, settled)]

theorem runs_setupLuks (hrun : Runs (setupLuks config) exchanges (.returned ())) :
    SetupLuksRun config exchanges := by
  simp only [setupLuks, runs_bind_returned_iff, runs_tryRun_returned_iff] at hrun
  obtain ⟨_, status, tail, rfl, rfl, hrun⟩ := hrun
  split at hrun
  · next hactive =>
    split at hrun
    · next hdevice =>
      obtain rfl := runs_info_returned_iff.mp hrun
      exact .alreadyOpen hactive hdevice
    · simp at hrun
  · next hinactive =>
    simp only [runs_bind_returned_iff, runs_probe_returned_iff, runs_onlyIf_iff, openLuks,
      runs_runWithInput_returned_iff, runs_tryRun_unit_iff] at hrun
    obtain ⟨_, _, _, rfl, ⟨isLuks, rfl, rfl⟩, _, _, _, rfl, hformat, _, opened, _, rfl,
      ⟨rfl, hopened⟩, settled, rfl⟩ := hrun
    cases hluks : isLuks.success with
    | true =>
      obtain rfl : _ = [] := by simpa [hluks] using hformat
      exact .opened (Bool.eq_false_iff.mpr hinactive) hluks hopened
    | false =>
      simp [hluks, formatLuks] at hformat
      obtain ⟨formatted, rfl, hformatted⟩ := hformat
      exact .formatted (Bool.eq_false_iff.mpr hinactive) hluks hformatted hopened
/-! What `setupLuks` does to the disk, for each way in which it returns. -/

section World

variable {disk : String} {locate : Locate} {s s' : DiskState}
  {status isLuks formatted opened settled : CommandExecutionResult}

/-- The place of the LUKS header. -/
def headerPlace (config : InstallerConfig) (locate : Locate) (s : DiskState) : Place :=
  locate s.table config.luksHeaderDevice

theorem detachedHeader_getD :
    (detachedHeader config).getD config.encryptedDevice = config.luksHeaderDevice := by
  unfold detachedHeader InstallerConfig.luksHeaderDevice
  split <;> rfl

/-- Cleaning up can close the volume and unmount file systems, and changes no data. -/
theorem replays_cleanupStaleMounts {outcome : Outcome InstallerError Unit}
    (hrun : Runs cleanupStaleMounts exchanges outcome)
    (hreplay : Replays (diskWorld disk locate) s exchanges s') :
    s.SameData s' ∧ (s'.cryptroot = none ∨ s'.cryptroot = s.cryptroot) ∧
      s'.mounts.Sublist s.mounts := by
  refine ⟨?_, ?_, ?_⟩
  · have hdata : Issues (fun invocation => invocation.command.changesData = false)
        cleanupStaleMounts := by
      simp [cleanupStaleMounts, Command.changesData]
    exact replays_sameData hdata allAllowed_true hrun hreplay
  · refine issues_cleanupStaleMounts.preserves
      (P := fun state => state.cryptroot = none ∨ state.cryptroot = s.cryptroot)
      ?_ allAllowed_true hrun hreplay (.inr rfl)
    rintro ⟨command, raises, inputData⟩ result state state' hcommand hstate hstep
    have heffect := hstep.2
    simp only [List.mem_cons, List.not_mem_nil, or_false] at hcommand
    rcases hcommand with rfl | rfl | rfl | rfl | rfl <;> simp only [DiskEffect] at heffect <;>
      grind
  · refine issues_cleanupStaleMounts.preserves
      (P := fun state => state.mounts.Sublist s.mounts) ?_ allAllowed_true hrun hreplay (.refl _)
    rintro ⟨command, raises, inputData⟩ result state state' hcommand hstate hstep
    have heffect := hstep.2
    simp only [List.mem_cons, List.not_mem_nil, or_false] at hcommand
    rcases hcommand with rfl | rfl | rfl | rfl | rfl <;> simp only [DiskEffect] at heffect <;>
      grind [List.Sublist.trans]

theorem replays_alreadyOpen (hopen : reportsOpen status)
    (hreplay : Replays (diskWorld disk locate) s [(statusCall, status)] s') :
    s' = s ∧ s.cryptroot.isSome := by
  simp [diskWorld, DiskAnswer, DiskEffect, statusCall] at hreplay
  unfold reportsOpen at hopen
  grind

theorem replays_opened (hopened : opened.success)
    (hreplay : Replays (diskWorld disk locate) s [(statusCall, status),
      (isLuksCall config, isLuks), (openCall config, opened), (settleCall, settled)] s') :
    ∃ volume, s.luksAt (headerPlace config locate s) = some volume ∧
      volume.password = config.credentials.luksPassword ∧
      s' = { s with cryptroot := some ⟨config.encryptedDevice, volume⟩ } := by
  simp [diskWorld, DiskAnswer, DiskEffect, statusCall, isLuksCall, openCall, settleCall, hopened,
    detachedHeader_getD] at hreplay
  unfold headerPlace
  grind

theorem replays_formatted (hformatted : formatted.success) (hopened : opened.success)
    (hreplay : Replays (diskWorld disk locate) s [(statusCall, status),
      (isLuksCall config, isLuks), (formatCall config, formatted), (openCall config, opened),
      (settleCall, settled)] s') :
    s' = { s.formatLuks (headerPlace config locate s) config.credentials.luksPassword
        config.storage.luks with
      cryptroot := some ⟨config.encryptedDevice,
        ⟨s.clock, config.credentials.luksPassword, config.storage.luks⟩⟩ } := by
  simp [diskWorld, DiskAnswer, DiskEffect, statusCall, isLuksCall, formatCall, openCall,
    settleCall, hopened, hformatted, detachedHeader_getD, DiskState.formatLuks] at hreplay
  unfold headerPlace DiskState.formatLuks
  grind

end World

/-! ## The mounts -/

section Mounts

variable {disk : String} {locate : Locate} {s s' : DiskState}

/-- The mount of a subvolume on the file system `fs`. -/
def subvolumeMount (fs : Nat) (subvolume : SubvolumeConfig) : Mount :=
  ⟨s!"{targetRoot}{subvolume.mountpoint}", .btrfs fs (some subvolume.name)⟩

/-- The mounts of the subvolumes, the newest first. -/
def subvolumeMounts (fs : Nat) (subvolumes : List SubvolumeConfig) : List Mount :=
  ((subvolumes.filter (·.name != "@")).map (subvolumeMount fs)).reverse

theorem cryptrootDevice_eq : config.storage.cryptrootDevice = cryptrootPath := rfl

theorem mountSubvolume_returned {fs : Nat} {subvolume : SubvolumeConfig}
    (hfs : s.cryptrootBtrfs = some fs)
    (hrun : Runs (mountSubvolume config subvolume) exchanges (.returned ()))
    (hreplay : Replays (diskWorld disk locate) s exchanges s') :
    (subvolume.name ≠ "@" → subvolume.name ∈ s.subvolumes fs) ∧
      s' = { s with mounts := subvolumeMounts fs [subvolume] ++ s.mounts } := by
  by_cases hname : subvolume.name = "@"
  · obtain rfl : exchanges = [] := by simpa [mountSubvolume, hname] using hrun
    rw [replays_nil_iff] at hreplay
    simp [hreplay, subvolumeMounts, hname]
  · simp only [mountSubvolume, hname, runs_bind_returned_iff, runs_onlyIf_returned_iff,
      bne_iff_ne, ne_eq, not_false_eq_true, if_true, runs_tryRun_unit_iff,
      runs_run_unit_iff] at hrun
    obtain ⟨_, _, _, rfl, ⟨made, rfl⟩, _, _, last, rfl, ⟨mounted, rfl, hmounted⟩, hchattr⟩ := hrun
    simp [diskWorld, DiskEffect, DiskAnswer, hmounted, cryptrootDevice_eq] at hreplay
    obtain ⟨fs', ⟨hfs', hmem⟩, hreplay⟩ := hreplay
    obtain rfl : fs = fs' := Option.some_inj.mp (hfs.symm.trans hfs')
    have hlast : s' = s.addMount s!"{targetRoot}{subvolume.mountpoint}"
        (.btrfs fs (some subvolume.name)) := by
      split at hchattr
      · obtain ⟨result, rfl⟩ := hchattr
        simpa [diskWorld, DiskEffect, DiskAnswer] using hreplay
      · subst hchattr
        exact replays_nil_iff.mp hreplay
    refine ⟨fun _ => hmem, ?_⟩
    simp [hlast, DiskState.addMount, subvolumeMounts, subvolumeMount, hname]

theorem mountSubvolumes_returned {fs : Nat} {subvolumes : List SubvolumeConfig}
    (hfs : s.cryptrootBtrfs = some fs)
    (hrun : Runs (Program.forEach subvolumes (mountSubvolume config)) exchanges (.returned ()))
    (hreplay : Replays (diskWorld disk locate) s exchanges s') :
    (∀ subvolume ∈ subvolumes, subvolume.name ≠ "@" → subvolume.name ∈ s.subvolumes fs) ∧
      s' = { s with mounts := subvolumeMounts fs subvolumes ++ s.mounts } := by
  induction subvolumes generalizing s exchanges with
  | nil =>
    obtain rfl : exchanges = [] := by simpa [Program.forEach] using hrun
    rw [replays_nil_iff] at hreplay
    simp [hreplay, subvolumeMounts]
  | cons subvolume subvolumes ih =>
    obtain ⟨first, ⟨⟩, second, rfl, hfirst, hsecond⟩ := runs_bind_returned_iff.mp hrun
    obtain ⟨mid, hreplayFirst, hreplaySecond⟩ := replays_append_iff.mp hreplay
    obtain ⟨hmem, hmid⟩ := mountSubvolume_returned hfs hfirst hreplayFirst
    obtain ⟨hmems, rfl⟩ := ih (by rw [hmid]; exact hfs) hsecond hreplaySecond
    subst hmid
    refine ⟨List.forall_mem_cons.mpr ⟨hmem, hmems⟩, ?_⟩
    by_cases hname : subvolume.name = "@" <;> simp [subvolumeMounts, hname]

/-! The EFI partition. -/

def efiBlkidCall (config : InstallerConfig) : Invocation := unchecked (.blkid config.efiPartition)

def mkfsVfatCall (config : InstallerConfig) : Invocation := checked (.mkfsVfat config.efiPartition)

def mkdirEfiCall : Invocation := checked (.mkdir targetEfi)

def mountEfiCall (config : InstallerConfig) : Invocation :=
  checked (.mountVfat config.efiPartition targetEfi)

/-- `blkid` found a FAT file system. -/
def showsVfat (result : CommandExecutionResult) : Bool := contains "TYPE=\"vfat\"" result.stdout

/-- The two ways in which `mountEfiPartition` returns. -/
inductive EfiPartitionRun (config : InstallerConfig) : Exchanges → Prop
  | kept : showsVfat blkid → mounted.success →
    EfiPartitionRun config [(efiBlkidCall config, blkid), (mkdirEfiCall, made),
      (mountEfiCall config, mounted)]
  | formatted : showsVfat blkid = false → formatted.success → mounted.success →
    EfiPartitionRun config [(efiBlkidCall config, blkid), (mkfsVfatCall config, formatted),
      (mkdirEfiCall, made), (mountEfiCall config, mounted)]

theorem runs_mountEfiPartition
    (hrun : Runs (mountEfiPartition config) exchanges (.returned ())) :
    EfiPartitionRun config exchanges := by
  simp only [mountEfiPartition, runs_bind_returned_iff, runs_query_returned_iff,
    runs_onlyIf_returned_iff, runs_run_unit_iff, runs_info_returned_iff] at hrun
  obtain ⟨_, _, _, rfl, ⟨blkid, rfl, rfl⟩, format, _, _, rfl, hformat, _, _, _, rfl,
    ⟨made, rfl, hmade⟩, mounted, rfl, hmounted⟩ := hrun
  split at hformat
  · next hvfat =>
    obtain ⟨_, _, _, rfl, rfl, formatted, rfl, hformatted⟩ := hformat
    exact .formatted (by simpa [showsVfat] using hvfat) hformatted hmounted
  · next hvfat =>
    subst hformat
    exact .kept (by simpa [showsVfat] using hvfat) hmounted

theorem replays_efiKept {blkid made mounted : CommandExecutionResult} (hmounted : mounted.success)
    (hreplay : Replays (diskWorld disk locate) s [(efiBlkidCall config, blkid),
      (mkdirEfiCall, made), (mountEfiCall config, mounted)] s') :
    ∃ id, s.fatAt (locate s.table config.efiPartition) = some id ∧
      s' = s.addMount targetEfi (.fat config.efiPartition id) := by
  simp [diskWorld, DiskAnswer, DiskEffect, efiBlkidCall, mkdirEfiCall, mountEfiCall,
    hmounted] at hreplay
  exact hreplay.2

theorem replays_efiFormatted {blkid formatted made mounted : CommandExecutionResult}
    (hformatted : formatted.success) (hmounted : mounted.success)
    (hreplay : Replays (diskWorld disk locate) s [(efiBlkidCall config, blkid),
      (mkfsVfatCall config, formatted), (mkdirEfiCall, made), (mountEfiCall config, mounted)] s') :
    s' = (s.formatFat (locate s.table config.efiPartition)).addMount targetEfi
      (.fat config.efiPartition s.clock) := by
  simp [diskWorld, DiskAnswer, DiskEffect, efiBlkidCall, mkfsVfatCall, mkdirEfiCall,
    mountEfiCall, hmounted, hformatted, DiskState.formatFat] at hreplay
  exact hreplay.2

def mountRootCall (config : InstallerConfig) : Invocation :=
  checked (.mountSubvolume "@" config.storage.btrfs.mountOptions config.storage.cryptrootDevice
    targetRoot)

theorem runs_mountFilesystems (hrun : Runs (mountFilesystems config) exchanges (.returned ())) :
    ∃ root subvolumes efi, exchanges = (mountRootCall config, root) :: (subvolumes ++ efi) ∧
      root.success ∧
      Runs (Program.forEach config.storage.btrfs.subvolumes (mountSubvolume config)) subvolumes
        (.returned ()) ∧
      EfiPartitionRun config efi := by
  simp only [mountFilesystems, runs_bind_returned_iff, runs_run_unit_iff] at hrun
  obtain ⟨_, _, _, rfl, ⟨root, rfl, hroot⟩, subvolumes, ⟨⟩, efi, rfl, hsubvolumes, hefi⟩ := hrun
  exact ⟨root, subvolumes, efi, rfl, hroot, hsubvolumes, runs_mountEfiPartition hefi⟩

/-- The mounts on the target root, from the newest on. -/
def filesystemMounts (config : InstallerConfig) (fs : Nat) : List Mount :=
  subvolumeMounts fs config.storage.btrfs.subvolumes ++ [⟨targetRoot, .btrfs fs (some "@")⟩]

/-- The btrfs of the open volume is mounted with all its subvolumes, before the EFI partition is. -/
theorem replays_mountSubvolumes {root : CommandExecutionResult} {subvolumes : Exchanges}
    (hroot : root.success)
    (hrun : Runs (Program.forEach config.storage.btrfs.subvolumes (mountSubvolume config))
      subvolumes (.returned ()))
    (hreplay : Replays (diskWorld disk locate) s ((mountRootCall config, root) :: subvolumes) s') :
    ∃ fs, s.cryptrootBtrfs = some fs ∧ "@" ∈ s.subvolumes fs ∧
      (∀ subvolume ∈ config.storage.btrfs.subvolumes, subvolume.name ≠ "@" →
        subvolume.name ∈ s.subvolumes fs) ∧
      s' = { s with mounts := filesystemMounts config fs ++ s.mounts } := by
  rw [replays_cons_iff] at hreplay
  simp only [diskWorld, DiskAnswer, DiskEffect, mountRootCall, hroot, cryptrootDevice_eq, if_true,
    forall_const, true_and] at hreplay
  obtain ⟨mid, ⟨fs, hfs, hmem, rfl⟩, hreplay⟩ := hreplay
  have hmid : (s.addMount targetRoot (.btrfs fs (some "@"))).cryptrootBtrfs = some fs := hfs
  obtain ⟨hmems, rfl⟩ := mountSubvolumes_returned hmid hrun hreplay
  exact ⟨fs, hfs, hmem, hmems, by simp [filesystemMounts, DiskState.addMount]⟩

/-- After `mountFilesystems` the newest mounts are the EFI partition's, the subvolumes' and the
target root's. -/
theorem mountFilesystems_returned
    (hrun : Runs (mountFilesystems config) exchanges (.returned ()))
    (hreplay : Replays (diskWorld disk locate) s exchanges s') :
    ∃ fs id, s.cryptrootBtrfs = some fs ∧ s'.cryptroot = s.cryptroot ∧ s'.inside = s.inside ∧
      s'.subvolumes = s.subvolumes ∧ "@" ∈ s.subvolumes fs ∧
      (∀ subvolume ∈ config.storage.btrfs.subvolumes, subvolume.name ≠ "@" →
        subvolume.name ∈ s.subvolumes fs) ∧
      s'.mounts = ⟨targetEfi, .fat config.efiPartition id⟩ :: (filesystemMounts config fs ++
        s.mounts) ∧
      ∃ root subvolumes efi, exchanges = (mountRootCall config, root) :: (subvolumes ++ efi) ∧
        Runs (Program.forEach config.storage.btrfs.subvolumes (mountSubvolume config)) subvolumes
          (.returned ()) ∧
        ∃ blkid rest, efi = (efiBlkidCall config, blkid) :: rest ∧
          (∀ x ∈ rest, x.1 ∈ [mkfsVfatCall config, mkdirEfiCall, mountEfiCall config]) ∧
          if showsVfat blkid then s.fatAt (locate s.table config.efiPartition) = some id
          else id = s.clock := by
  obtain ⟨root, subvolumes, efi, rfl, hroot, hsubvolumes, hefi⟩ := runs_mountFilesystems hrun
  obtain ⟨mid, hreplayMounts, hreplayEfi⟩ :=
    replays_append_iff.mp (List.cons_append ▸ hreplay)
  obtain ⟨fs, hfs, hroot', hnames, rfl⟩ := replays_mountSubvolumes hroot hsubvolumes hreplayMounts
  cases hefi with
  | kept hvfat hmounted =>
    obtain ⟨id, hid, rfl⟩ := replays_efiKept hmounted hreplayEfi
    exact ⟨fs, id, hfs, rfl, rfl, rfl, hroot', hnames, rfl, root, subvolumes, _, rfl, hsubvolumes, _, _,
      rfl, by simp, by simpa [hvfat] using hid⟩
  | formatted hvfat hformatted hmounted =>
    obtain rfl := replays_efiFormatted hformatted hmounted hreplayEfi
    exact ⟨fs, _, hfs, rfl, rfl, rfl, hroot', hnames, rfl, root, subvolumes, _, rfl, hsubvolumes, _, _,
      rfl, by simp, by simp [hvfat]⟩

end Mounts

/-! ## Simulated runs -/

/-- A run on the sample disk after an installation under the given password. -/
def runOnInstalledDisk (config : InstallerConfig) (password : String) :
    Simulation Invocation CommandExecutionResult InstallerError Unit DiskState :=
  simulate (DiskState.respond "/dev/sda" DiskState.sdaPlaces) (execute config) 200
    (DiskState.installedDisk password sampleStorage.luks 2048)

theorem runOnInstalledDisk_runs (config : InstallerConfig) (password : String) :
    Runs (execute config) (runOnInstalledDisk config password).exchanges
      (runOnInstalledDisk config password).outcome :=
  simulate_runs _ _ _ _

theorem runOnInstalledDisk_replays (config : InstallerConfig) (password : String) :
    Replays (diskWorld "/dev/sda" DiskState.sdaPlaces)
      (DiskState.installedDisk password sampleStorage.luks 2048)
      (runOnInstalledDisk config password).exchanges
      (runOnInstalledDisk config password).final :=
  simulate_replays DiskState.respond_step _ _ _

end ArchInstaller.StorageStepExecutor
