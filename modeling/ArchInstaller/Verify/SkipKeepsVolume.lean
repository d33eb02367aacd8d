import ArchInstaller.Verify.StorageRuns

/-! # Wipe method `skip` and an existing LUKS volume

With the wipe method `skip` the storage step keeps the volume it finds as long as every probe it
decides by succeeds: both partitions are listed, the header is recognised and the configured
password opens it. One probe that fails, for a mistyped password or for any other reason, and the
disk is partitioned again, which is the branch for unfinished installs. -/

namespace ArchInstaller.StorageStepExecutor

open Interaction PyText Script

variable {config : InstallerConfig} {exchanges : Exchanges}

/-- The probes by which `execute` decides whether to keep the volume it finds. -/
def decisiveProbes (config : InstallerConfig) : List Command :=
  [.lsblk config.efiPartition, .lsblk config.encryptedDevice,
    .cryptsetupIsLuks config.luksHeaderDevice,
    .cryptsetupTestPassphrase (detachedHeader config) config.encryptedDevice]

/-- An answer that lets `execute` keep the volume. -/
def ProbeSucceeds (config : InstallerConfig) (invocation : Invocation)
    (result : CommandExecutionResult) : Prop :=
  invocation.command ∈ decisiveProbes config → result.success

instance {invocation : Invocation} {result : CommandExecutionResult} :
    Decidable (ProbeSucceeds config invocation result) :=
  inferInstanceAs (Decidable (_ → _))

/-- The paths of the disk and its two partitions. -/
def diskDevices (config : InstallerConfig) : List String :=
  [config.storage.targetDisk, config.efiPartition, config.encryptedDevice]

theorem canReturn_partitionsExist {found : Bool}
    (h : CanReturn (ProbeSucceeds config) (partitionsExist config) found) : found = true := by
  simp [partitionsExist, ProbeSucceeds, decisiveProbes] at h
  grind

theorem canReturn_luksIsUsable {usable : Bool}
    (h : CanReturn (ProbeSucceeds config) (luksIsUsable config) usable) : usable = true := by
  simp [luksIsUsable, ProbeSucceeds, decisiveProbes] at h
  grind

/-! ## Up to the open volume -/

/-- A command that writes nothing to the disk. -/
def LeavesData (invocation : Invocation) : Prop :=
  invocation.command.erases = [] ∧ invocation.command.changesData = false

theorem issues_keepOrRecreatePartitions :
    IssuesGiven (ProbeSucceeds config)
      (fun invocation => LeavesData invocation ∧ invocation.command.changesMapping = false)
      (keepOrRecreatePartitions config) := by
  rw [keepOrRecreatePartitions, issues_bind]
  refine ⟨by simp [partitionsExist, LeavesData, Command.erases, Command.changesData,
    Command.changesMapping], fun found hfound => ?_⟩
  rw [canReturn_partitionsExist hfound, if_pos rfl, issues_bind]
  refine ⟨by simp [luksIsUsable, LeavesData, Command.erases, Command.changesData,
    Command.changesMapping], fun usable husable => ?_⟩
  rw [canReturn_luksIsUsable husable, if_pos rfl]
  exact issues_info

theorem issues_setupLuks :
    IssuesGiven (ProbeSucceeds config) LeavesData (setupLuks config) := by
  simp [setupLuks, openLuks, LeavesData, Command.erases, Command.changesData, ProbeSucceeds,
    decisiveProbes]
  grind

theorem prepareDisk_eq (hskip : wipeMethod config = .skip) (husb : config.usbBoot.enabled = false) :
    prepareDisk config = keepOrRecreatePartitions config := by
  simp [prepareDisk, hskip, husb]

theorem issues_openStorage (hskip : wipeMethod config = .skip)
    (husb : config.usbBoot.enabled = false) :
    IssuesGiven (ProbeSucceeds config) LeavesData (openStorage config) := by
  have hkeep : IssuesGiven (ProbeSucceeds config) LeavesData (keepOrRecreatePartitions config) :=
    issues_keepOrRecreatePartitions.mono fun _ h => h.1
  simp [openStorage, cleanupStaleMounts, prepareDisk_eq hskip husb, hkeep, issues_setupLuks,
    LeavesData, Command.erases, Command.changesData]

/-! ## A whole run -/

section World

variable {locate : Locate} {s s' : DiskState} {outcome : Outcome InstallerError Unit}

/-- The volume that is open after `openStorage` is the one on the disk, or was open before. -/
theorem openStorage_returned (hskip : wipeMethod config = .skip)
    (husb : config.usbBoot.enabled = false)
    (hallowed : AllAllowed (ProbeSucceeds config) exchanges)
    (hrun : Runs (openStorage config) exchanges (.returned ()))
    (hreplay : Replays (diskWorld config.storage.targetDisk locate) s exchanges s')
    {volume : LuksVolume} (hvolume : s.luksAt (headerPlace config locate s) = some volume) :
    ∃ mapping, s'.cryptroot = some mapping ∧
      (s.cryptroot = some mapping ∨ mapping = ⟨config.encryptedDevice, volume⟩) := by
  obtain ⟨cleanup, prepare, luks, rfl, hcleanup, hprepare, hluks⟩ :=
    runs_openStorage_returned_iff.mp hrun
  simp only [allAllowed_append, replays_append_iff] at hallowed hreplay
  obtain ⟨-, hprepareAllowed, hluksAllowed⟩ := hallowed
  obtain ⟨cleaned, hreplayCleanup, prepared, hreplayPrepare, hreplayLuks⟩ := hreplay
  obtain ⟨hcleanedData, hcleaned, -⟩ := replays_cleanupStaleMounts hcleanup hreplayCleanup
  rw [prepareDisk_eq hskip husb] at hprepare
  have hpreparedData : cleaned.SameData prepared :=
    replays_sameData (issues_keepOrRecreatePartitions.mono fun _ h => h.1.2) hprepareAllowed
      hprepare hreplayPrepare
  have hprepared : prepared.cryptroot = cleaned.cryptroot :=
    replays_cryptroot (issues_keepOrRecreatePartitions.mono fun _ h => h.2) hprepareAllowed
      hprepare hreplayPrepare
  have hdata : s.SameData prepared := hcleanedData.trans hpreparedData
  -- the header is recognised again, so `setupLuks` formats nothing
  cases runs_setupLuks hluks with
  | alreadyOpen hopen _ =>
    obtain ⟨rfl, hsome⟩ := replays_alreadyOpen hopen hreplayLuks
    obtain ⟨mapping, hmapping⟩ := Option.isSome_iff_exists.mp hsome
    exact ⟨mapping, hmapping, .inl (by grind)⟩
  | opened _ _ hopened =>
    obtain ⟨volume', hvolume', -, rfl⟩ := replays_opened hopened hreplayLuks
    simp only [headerPlace] at hvolume hvolume'
    rw [hdata.table, hdata.luksAt, hvolume] at hvolume'
    exact ⟨_, rfl, .inr (by rw [Option.some_inj.mp hvolume'])⟩
  | formatted _ hfailed _ _ =>
    simp [ProbeSucceeds, decisiveProbes, isLuksCall, hfailed] at hluksAllowed

theorem fillStorage_erases (hrun : Runs (fillStorage config) exchanges outcome) :
    ∀ x ∈ exchanges, x.1.command.erases ⊆ [config.storage.cryptrootDevice] :=
  fun x hx => (issues_fillStorage _ _ allAllowed_true hrun x hx).1

theorem cryptrootDevice_not_mem (husb : config.usbBoot.enabled = false)
    (hdisk : config.storage.targetDisk ≠ config.storage.cryptrootDevice) :
    config.storage.cryptrootDevice ∉ diskDevices config := by
  simp only [diskDevices, InstallerConfig.efiPartition, InstallerConfig.encryptedDevice, husb,
    Bool.false_eq_true, if_false, List.mem_cons, List.not_mem_nil, or_false, not_or]
  exact ⟨hdisk.symm, (derivePartitionPath_ne_cryptrootPath _ _).symm,
    (derivePartitionPath_ne_cryptrootPath _ _).symm⟩

/-- The run left the disk's devices alone, and has the volume open or ended early with the data
on the disk as it was. -/
def KeptVolume (config : InstallerConfig) (volume : LuksVolume) (exchanges : Exchanges)
    (outcome : Outcome InstallerError Unit) (s s' : DiskState) : Prop :=
  (∀ x ∈ exchanges, ∀ device ∈ x.1.command.erases, device ∉ diskDevices config) ∧
    ((∃ mapping, s'.cryptroot = some mapping ∧
      (s.cryptroot = some mapping ∨ mapping = ⟨config.encryptedDevice, volume⟩)) ∨
    (outcome ≠ .returned () ∧ s.SameData s'))

theorem convergeStorage_keeps_volume (hskip : wipeMethod config = .skip)
    (husb : config.usbBoot.enabled = false)
    (hdisk : config.storage.targetDisk ≠ config.storage.cryptrootDevice)
    {volume : LuksVolume} (hvolume : s.luksAt (headerPlace config locate s) = some volume)
    (hrun : Runs (convergeStorage config) exchanges outcome)
    (hreplay : Replays (diskWorld config.storage.targetDisk locate) s exchanges s')
    (hprobes : AllAllowed (ProbeSucceeds config) exchanges) :
    KeptVolume config volume exchanges outcome s s' := by
  have hopen := issues_openStorage hskip husb
  have hcryptroot := cryptrootDevice_not_mem husb hdisk
  rw [convergeStorage_eq] at hrun
  rcases runs_bind_iff.mp hrun with
    ⟨first, ⟨⟩, second, rfl, hfirst, hsecond⟩ | ⟨error, hraised, rfl⟩ | ⟨hstopped, rfl⟩
  · obtain ⟨opened, hreplayFirst, hreplaySecond⟩ := replays_append_iff.mp hreplay
    have hallowed := (allAllowed_append.mp hprobes).1
    obtain ⟨mapping, hmapping, horigin⟩ :=
      openStorage_returned hskip husb hallowed hfirst hreplayFirst hvolume
    refine ⟨fun x hx device hdevice => ?_, .inl ⟨mapping, ?_, horigin⟩⟩
    · rcases List.mem_append.mp hx with hx | hx
      · rw [(hopen _ _ hallowed hfirst x hx).1] at hdevice
        cases hdevice
      · have := fillStorage_erases hsecond x hx hdevice
        rwa [List.mem_singleton.mp this]
    · rw [← hmapping]
      exact replays_cryptroot (issues_fillStorage.mono fun _ h => h.2) allAllowed_true hsecond
        hreplaySecond
  -- the run ended before the volume was open
  · refine ⟨fun x hx => ?_, .inr ⟨by simp, ?_⟩⟩
    · simp [(hopen _ _ hprobes hraised x hx).1]
    · exact replays_sameData (hopen.mono fun _ h => h.2) hprobes hraised hreplay
  · refine ⟨fun x hx => ?_, .inr ⟨by simp, ?_⟩⟩
    · simp [(hopen _ _ hprobes hstopped x hx).1]
    · exact replays_sameData (hopen.mono fun _ h => h.2) hprobes hstopped hreplay

end World

/-! ## Runs on an installed disk -/

def skipConfig : InstallerConfig :=
  { sampleConfig with storage := { sampleStorage with wipeMethod := .skip } }

end ArchInstaller.StorageStepExecutor
