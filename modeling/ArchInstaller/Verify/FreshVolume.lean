import ArchInstaller.Config.Sample
import ArchInstaller.Verify.StorageRuns

/-! # What is on the disk after a wipe

A wipe that leaves the old partitions' contents where they are lets the probes of the later parts
find them again: a volume that is still open, a header that `isLuks` recognises, a file system on
the EFI partition. The storage that the run mounts is new exactly when no probe finds something
old. -/

namespace ArchInstaller

open Interaction PyText

namespace DiskState

/-- Everything on the disk was made before the clock. -/
structure Numbered (s : DiskState) : Prop where
  luksAt : ∀ place volume, s.luksAt place = some volume → volume.id < s.clock
  fatAt : ∀ place id, s.fatAt place = some id → id < s.clock
  cryptroot : ∀ mapping, s.cryptroot = some mapping → mapping.volume.id < s.clock

/-- The mounts that can be reached at or below a path: those made since its newest mount. -/
def mountedSince (path : String) : List Mount → List Mount
  | [] => []
  | mount :: older => mount :: if mount.path == path then [] else mountedSince path older

theorem mountedSince_subset {path : String} {newer older : List Mount} {source : Source} :
    mountedSince path (newer ++ ⟨path, source⟩ :: older) ⊆ newer ++ [⟨path, source⟩] := by
  induction newer with
  | nil => simp [mountedSince]
  | cons mount newer ih =>
    simp only [List.cons_append, mountedSince]
    split
    · simp
    · exact List.cons_subset_cons _ ih

end DiskState

/-- The file system was made when the clock had the given value, or later. -/
def Source.MadeSince (clock : Nat) : Source → Prop
  | .btrfs id _ | .fat _ id => clock ≤ id
  | .other => False

namespace StorageStepExecutor

open Script

variable {config : InstallerConfig} {exchanges : Exchanges}

/-- The open volume, its btrfs and everything mounted at the target were made since the clock had
the given value, the volume with the configured parameters and password. -/
structure Fresh (config : InstallerConfig) (clock : Nat) (s : DiskState) : Prop where
  volume : ∃ mapping, s.cryptroot = some mapping ∧ clock ≤ mapping.volume.id ∧
    mapping.volume.password = config.credentials.luksPassword ∧
    mapping.volume.parameters = config.storage.luks
  btrfs : ∃ fs, s.cryptrootBtrfs = some fs ∧ clock ≤ fs
  efi : ∃ id, s.mounts.find? (·.path == targetEfi) = some ⟨targetEfi, .fat config.efiPartition id⟩ ∧
    clock ≤ id
  mounts : ∀ mount ∈ DiskState.mountedSince targetRoot s.mounts, mount.source.MadeSince clock

/-- An answer that shows nothing old: `cryptroot` is not open, no LUKS header is on the partition,
and no FAT file system on the EFI partition. -/
def FindsNothingOld (config : InstallerConfig) (invocation : Invocation)
    (result : CommandExecutionResult) : Prop :=
  (invocation = statusCall → reportsOpen result = false) ∧
    (invocation = isLuksCall config → result.success = false) ∧
    (invocation = efiBlkidCall config → showsVfat result = false)

instance {invocation : Invocation} {result : CommandExecutionResult} :
    Decidable (FindsNothingOld config invocation result) :=
  inferInstanceAs (Decidable (_ ∧ _ ∧ _))

/-! ## The parts that look for nothing old -/

/-- A call that `FindsNothingOld` says nothing about. -/
def NoDecision (config : InstallerConfig) (invocation : Invocation) : Prop :=
  invocation ∉ [statusCall, isLuksCall config, efiBlkidCall config]

theorem findsNothingOld_of_issues {α : Type} {p : Script α} {outcome : Outcome InstallerError α}
    (h : Issues (NoDecision config) p) (hrun : Runs p exchanges outcome) :
    AllAllowed (FindsNothingOld config) exchanges := by
  intro x hx
  have := h _ _ allAllowed_true hrun x hx
  simp only [NoDecision, List.mem_cons, List.not_mem_nil, or_false, not_or] at this
  obtain ⟨hstatus, hluks, hblkid⟩ := this
  exact ⟨fun h => absurd h hstatus, fun h => absurd h hluks, fun h => absurd h hblkid⟩

theorem noDecision_of_probesData {invocation : Invocation}
    (h : invocation.command.probesData = false) : NoDecision config invocation := by
  intro hdecision
  simp only [List.mem_cons, List.not_mem_nil, or_false] at hdecision
  rcases hdecision with rfl | rfl | rfl <;>
    simp [statusCall, isLuksCall, efiBlkidCall, Command.probesData] at h

/-! ## Up to the open volume -/

section World

variable {locate : Locate} {s s' : DiskState}

/-- Before the LUKS volume is set up, nothing is made. -/
theorem prepared_old {cleanup prepare : Exchanges} (hs : s.Numbered)
    (husb : config.usbBoot.enabled = false) (hmethod : wipeMethod config ≠ .skip)
    (hcleanup : Runs cleanupStaleMounts cleanup (.returned ()))
    (hprepare : Runs (prepareDisk config) prepare (.returned ()))
    (hreplay : Replays (diskWorld config.storage.targetDisk locate) s (cleanup ++ prepare) s') :
    AllAllowed (FindsNothingOld config) (cleanup ++ prepare) ∧
      (∀ place volume, s'.luksAt place = some volume → volume.id < s.clock) ∧
      (∀ place id, s'.fatAt place = some id → id < s.clock) ∧
      ∀ mapping, s'.cryptroot = some mapping → mapping.volume.id < s.clock := by
  obtain ⟨cleaned, hreplayCleanup, hreplayPrepare⟩ := replays_append_iff.mp hreplay
  obtain ⟨hdata, hcleaned, -⟩ := replays_cleanupStaleMounts hcleanup hreplayCleanup
  have hissues : Issues (RewritesDisk config) (prepareDisk config) :=
    issues_prepareDisk_wipe husb hmethod
  refine ⟨allAllowed_append.mpr ⟨?_, ?_⟩, ?_, ?_, ?_⟩
  · refine findsNothingOld_of_issues ?_ hcleanup
    simp [cleanupStaleMounts, NoDecision, statusCall, isLuksCall, efiBlkidCall]
  · exact findsNothingOld_of_issues (hissues.mono fun _ h => noDecision_of_probesData h.probes)
      hprepare
  · refine hissues.preserves (P := fun state => ∀ place volume,
      state.luksAt place = some volume → volume.id < s.clock) ?_ allAllowed_true hprepare
      hreplayPrepare (hdata.luksAt ▸ hs.luksAt)
    intro invocation result state state' hgood hold hstep place volume hvolume
    refine hold place volume (diskWorld_luksAt hstep ?_ hvolume)
    intro luks header device hcommand
    simpa [hcommand, Command.creates] using hgood.creates
  · refine hissues.preserves (P := fun state => ∀ place id,
      state.fatAt place = some id → id < s.clock) ?_ allAllowed_true hprepare
      hreplayPrepare (hdata.fatAt ▸ hs.fatAt)
    intro invocation result state state' hgood hold hstep place id hid
    refine hold place id (diskWorld_fatAt hstep ?_ hid)
    intro device hcommand
    simpa [hcommand, Command.creates] using hgood.creates
  · have hkept : s'.cryptroot = cleaned.cryptroot :=
      replays_cryptroot (hissues.mono fun _ h => h.mapping) allAllowed_true hprepare hreplayPrepare
    intro mapping hmapping
    rw [hkept] at hmapping
    rcases hcleaned with hclosed | hsame
    · simp [hclosed] at hmapping
    · exact hs.cryptroot mapping (hsame ▸ hmapping)

/-- The volume that `openStorage` leaves open is new and empty, or a probe found an old one. -/
theorem openStorage_fresh (hs : s.Numbered) (husb : config.usbBoot.enabled = false)
    (hmethod : wipeMethod config ≠ .skip)
    (hrun : Runs (openStorage config) exchanges (.returned ()))
    (hreplay : Replays (diskWorld config.storage.targetDisk locate) s exchanges s') :
    ∃ mapping, s'.cryptroot = some mapping ∧
      (∀ place id, s'.fatAt place = some id → id < s.clock) ∧
      if AllAllowed (FindsNothingOld config) exchanges then
        s.clock ≤ mapping.volume.id ∧ mapping.volume.password = config.credentials.luksPassword ∧
          mapping.volume.parameters = config.storage.luks ∧ s'.inside mapping.volume.id = none
      else mapping.volume.id < s.clock := by
  obtain ⟨cleanup, prepare, luks, rfl, hcleanup, hprepare, hluks⟩ :=
    runs_openStorage_returned_iff.mp hrun
  rw [← List.append_assoc] at hreplay ⊢
  obtain ⟨prepared, hreplayPrepared, hreplayLuks⟩ := replays_append_iff.mp hreplay
  obtain ⟨hnothing, hluksOld, hfatOld, hmappingOld⟩ :=
    prepared_old hs husb hmethod hcleanup hprepare hreplayPrepared
  simp only [allAllowed_append, hnothing, true_and]
  cases runs_setupLuks hluks with
  | alreadyOpen hopen _ =>
    obtain ⟨rfl, hsome⟩ := replays_alreadyOpen hopen hreplayLuks
    obtain ⟨mapping, hmapping⟩ := Option.isSome_iff_exists.mp hsome
    refine ⟨mapping, hmapping, hfatOld, ?_⟩
    rw [if_neg (by simp [FindsNothingOld, hopen])]
    exact hmappingOld mapping hmapping
  | opened hclosed hluksFound hopened =>
    obtain ⟨volume, hvolume, -, rfl⟩ := replays_opened hopened hreplayLuks
    refine ⟨_, rfl, hfatOld, ?_⟩
    rw [if_neg (by simp [FindsNothingOld, hluksFound])]
    exact hluksOld _ volume hvolume
  | formatted hclosed hnoLuks hformatted hopened =>
    obtain rfl := replays_formatted hformatted hopened hreplayLuks
    refine ⟨_, rfl, fun place id hid => ?_, ?_⟩
    · rw [DiskState.formatLuks_fatAt] at hid
      split at hid
      · simp at hid
      · exact hfatOld place id hid
    · rw [if_pos (by simp [FindsNothingOld, hclosed, hnoLuks, statusCall, isLuksCall,
        efiBlkidCall, formatCall, openCall, settleCall])]
      exact ⟨replays_clock hreplayPrepared, rfl, rfl, by simp⟩

/-! ## Filling the open volume -/

/-- The open volume, with no file system in it from before the given time. -/
structure NewInside (clock : Nat) (mapping : Mapping) (s : DiskState) : Prop where
  cryptroot : s.cryptroot = some mapping
  le : clock ≤ s.clock
  inside : ∀ fs, s.inside mapping.volume.id = some fs → clock ≤ fs

theorem diskWorld_newInside {disk : String} {clock : Nat} {mapping : Mapping}
    {invocation : Invocation} {result : CommandExecutionResult}
    (hstep : diskWorld disk locate s invocation result s')
    (hmapping : invocation.command.changesMapping = false) (h : NewInside clock mapping s) :
    NewInside clock mapping s' := by
  refine ⟨(diskWorld_cryptroot hstep hmapping).trans h.cryptroot,
    h.le.trans (diskWorld_clock hstep), ?_⟩
  obtain ⟨hcryptroot, hclock, hinside⟩ := h
  obtain ⟨command, raises, inputData⟩ := invocation
  have heffect := hstep.2
  cases command <;> simp only [DiskEffect] at heffect <;>
    grind [Overwrites, DiskState.addMount, DiskState.erase, DiskState.clear,
      DiskState.formatFat, DiskState.createSubvolume, DiskState.addSubvolume]

theorem efiPartition_ne_cryptrootDevice (husb : config.usbBoot.enabled = false) :
    config.efiPartition ≠ config.storage.cryptrootDevice := by
  rw [InstallerConfig.efiPartition, husb, if_neg Bool.false_ne_true]
  exact derivePartitionPath_ne_cryptrootPath _ _

theorem issues_mountSubvolume_noDecision {subvolume : SubvolumeConfig} :
    Issues (NoDecision config) (mountSubvolume config subvolume) := by
  simp [mountSubvolume, NoDecision, statusCall, isLuksCall, efiBlkidCall]

/-- In the calls of `mountFilesystems`, only the look at the EFI partition can find something. -/
theorem findsNothingOld_mountFilesystems {root blkid : CommandExecutionResult}
    {subvolumes rest : Exchanges}
    (hrun : Runs (Program.forEach config.storage.btrfs.subvolumes (mountSubvolume config))
      subvolumes (.returned ()))
    (hrest : ∀ x ∈ rest, x.1 ∈ [mkfsVfatCall config, mkdirEfiCall, mountEfiCall config]) :
    AllAllowed (FindsNothingOld config)
        ((mountRootCall config, root) :: (subvolumes ++ (efiBlkidCall config, blkid) :: rest)) ↔
      showsVfat blkid = false := by
  have hsubvolumes : AllAllowed (FindsNothingOld config) subvolumes :=
    findsNothingOld_of_issues (by simp [issues_mountSubvolume_noDecision]) hrun
  have hlast : AllAllowed (FindsNothingOld config) rest := by
    intro x hx
    have hcall := hrest x hx
    simp only [List.mem_cons, List.not_mem_nil, or_false] at hcall
    rcases hcall with h | h | h <;>
      simp [FindsNothingOld, h, mkfsVfatCall, mkdirEfiCall, mountEfiCall, statusCall, isLuksCall,
        efiBlkidCall]
  simp [hsubvolumes, hlast, FindsNothingOld, mountRootCall, statusCall, isLuksCall, efiBlkidCall]

/-- What `fillStorage` mounts is new when the open volume was empty, but for an EFI partition that
`blkid` found formatted. -/
theorem fillStorage_fresh {clock : Nat} {mapping : Mapping}
    (husb : config.usbBoot.enabled = false) (hcryptroot : s.cryptroot = some mapping)
    (hfat : ∀ place id, s.fatAt place = some id → id < clock) (hclock : clock ≤ s.clock)
    (hrun : Runs (fillStorage config) exchanges (.returned ()))
    (hreplay : Replays (diskWorld config.storage.targetDisk locate) s exchanges s') :
    s'.cryptroot = some mapping ∧ ∃ fs id older, s'.cryptrootBtrfs = some fs ∧
      s'.mounts = ⟨targetEfi, .fat config.efiPartition id⟩ ::
        (filesystemMounts config fs ++ older) ∧
      (s.inside mapping.volume.id = none → clock ≤ fs) ∧
      (AllAllowed (FindsNothingOld config) exchanges ↔ clock ≤ id) := by
  obtain ⟨btrfs, filesystems, rest, rfl, hbtrfs, hfilesystems, hfinish⟩ :=
    runs_fillStorage_returned_iff.mp hrun
  simp only [replays_append_iff] at hreplay
  obtain ⟨made, hreplayBtrfs, mounted, hreplayMounts, hreplayRest⟩ := hreplay
  obtain rfl : s' = mounted :=
    replays_eq (issues_finishStorage.mono fun _ h => h.1) allAllowed_true hfinish hreplayRest
  obtain ⟨fs, id, hfs, hsame, hinside, -, -, -, hmounts, root, subvolumes, efi, rfl, hsubvolumes, blkid,
    last, rfl, hlast, hid⟩ := mountFilesystems_returned hfilesystems hreplayMounts
  have hissues : Issues (fun invocation => invocation.command.changesMapping = false ∧
      (∀ device, invocation.command ≠ .mkfsVfat device) ∧ (invocation.command.probesData →
        invocation.command = .blkid config.storage.cryptrootDevice))
      (setupBtrfs config) := issues_setupBtrfs
  have hmade : made.cryptroot = some mapping :=
    (replays_cryptroot (hissues.mono fun _ h => h.1) allAllowed_true hbtrfs hreplayBtrfs).trans
      hcryptroot
  refine ⟨hsame.trans hmade, fs, id, made.mounts, ?_, hmounts, fun hempty => ?_, ?_⟩
  · rw [← hfs, DiskState.cryptrootBtrfs, DiskState.cryptrootBtrfs, hsame, hinside]
  · have hnew : NewInside clock mapping made :=
      hissues.preserves (P := NewInside clock mapping)
        (fun _ _ _ _ hgood hs hstep => diskWorld_newInside hstep hgood.1 hs) allAllowed_true hbtrfs
        hreplayBtrfs ⟨hcryptroot, hclock, by simp [hempty]⟩
    refine hnew.inside fs ?_
    simpa [DiskState.cryptrootBtrfs, hmade] using hfs
  · have hbtrfsNothing : AllAllowed (FindsNothingOld config) btrfs := by
      refine findsNothingOld_of_issues (hissues.mono fun invocation h => ?_) hbtrfs
      rintro hdecision
      simp only [List.mem_cons, List.not_mem_nil, or_false] at hdecision
      rcases hdecision with rfl | rfl | rfl
      · simpa [statusCall] using h.2.2 rfl
      · simpa [isLuksCall] using h.2.2 rfl
      · have hdevice := h.2.2 rfl
        simp only [efiBlkidCall, Command.blkid.injEq] at hdevice
        exact efiPartition_ne_cryptrootDevice husb hdevice
    have hrestNothing : AllAllowed (FindsNothingOld config) rest :=
      findsNothingOld_of_issues
        (issues_finishStorage.mono fun _ h => noDecision_of_probesData h.2) hfinish
    have hfatMade : ∀ place id, made.fatAt place = some id → id < clock :=
      hissues.preserves (P := fun state => ∀ place id, state.fatAt place = some id → id < clock)
        (fun _ _ _ _ hgood hold hstep place id hid =>
          hold place id (diskWorld_fatAt hstep hgood.2.1 hid)) allAllowed_true hbtrfs
        hreplayBtrfs hfat
    simp only [allAllowed_append, hbtrfsNothing, hrestNothing, true_and, and_true]
    rw [findsNothingOld_mountFilesystems hsubvolumes hlast]
    cases hvfat : showsVfat blkid with
    | true =>
      rw [hvfat, if_pos rfl] at hid
      simpa using hfatMade _ id hid
    | false =>
      rw [hvfat, if_neg Bool.false_ne_true] at hid
      simpa [hid] using hclock.trans (replays_clock hreplayBtrfs)

/-! ## A whole run -/

theorem filesystemMounts_madeSince {clock fs : Nat} (h : clock ≤ fs) :
    ∀ mount ∈ filesystemMounts config fs, mount.source.MadeSince clock := by
  intro mount hmount
  simp only [filesystemMounts, subvolumeMounts, List.mem_append, List.mem_reverse, List.mem_map,
    List.mem_singleton] at hmount
  rcases hmount with ⟨subvolume, -, rfl⟩ | rfl <;> exact h

/-- With a new volume and a new btrfs, the EFI partition decides. -/
theorem fresh_iff {clock fs id : Nat} {mapping : Mapping} {older : List Mount}
    (hcryptroot : s.cryptroot = some mapping) (hvolume : clock ≤ mapping.volume.id)
    (hpassword : mapping.volume.password = config.credentials.luksPassword)
    (hparameters : mapping.volume.parameters = config.storage.luks)
    (hbtrfs : s.cryptrootBtrfs = some fs) (hfs : clock ≤ fs)
    (hmounts : s.mounts = ⟨targetEfi, .fat config.efiPartition id⟩ ::
      (filesystemMounts config fs ++ older)) :
    Fresh config clock s ↔ clock ≤ id := by
  constructor
  · intro h
    obtain ⟨id', hefi, hid'⟩ := h.efi
    simp only [hmounts, List.find?_cons, beq_self_eq_true, Option.some_inj, Mount.mk.injEq,
      Source.fat.injEq, true_and] at hefi
    exact hefi ▸ hid'
  · intro hid
    refine ⟨⟨mapping, hcryptroot, hvolume, hpassword, hparameters⟩, ⟨fs, hbtrfs, hfs⟩,
      ⟨id, by simp [hmounts], hid⟩, ?_⟩
    intro mount hmount
    have hnewer : s.mounts = (⟨targetEfi, .fat config.efiPartition id⟩ ::
        subvolumeMounts fs config.storage.btrfs.subvolumes) ++
          ⟨targetRoot, .btrfs fs (some "@")⟩ :: older := by
      simp [hmounts, filesystemMounts]
    rw [hnewer] at hmount
    have hmem := DiskState.mountedSince_subset hmount
    simp only [List.cons_append, List.mem_cons] at hmem
    rcases hmem with rfl | hmem
    · exact hid
    · exact filesystemMounts_madeSince hfs mount hmem

/-- A run that wipes the disk and returns leaves new storage mounted if and only if no probe found
an old volume or an old file system. -/
theorem execute_fresh_iff (hs : s.Numbered) (husb : config.usbBoot.enabled = false)
    (hmethod : wipeMethod config ≠ .skip) (hunmounted : s.isMounted targetRoot = false)
    (hrun : Runs (execute config) exchanges (.returned ()))
    (hreplay : Replays (diskWorld config.storage.targetDisk locate) s exchanges s') :
    Fresh config s.clock s' ↔ AllAllowed (FindsNothingOld config) exchanges := by
  rcases runs_execute_iff.mp hrun with ⟨-, ⟨⟩⟩ | ⟨result, tail, rfl, htail⟩
  obtain ⟨mid, ⟨hmounted, hmid⟩, hreplayTail⟩ := replays_cons_iff.mp hreplay
  obtain rfl : mid = s := hmid
  have hfailed : result.success = false := hmounted.trans hunmounted
  have hfirst : FindsNothingOld config (unchecked (.mountpoint targetRoot)) result := by
    simp [FindsNothingOld, statusCall, isLuksCall, efiBlkidCall]
  rw [hfailed, if_neg Bool.false_ne_true, convergeStorage_eq] at htail
  obtain ⟨first, ⟨⟩, second, rfl, hopen, hfill⟩ := runs_bind_returned_iff.mp htail
  obtain ⟨opened, hreplayOpen, hreplayFill⟩ := replays_append_iff.mp hreplayTail
  obtain ⟨mapping, hmapping, hfat, hvolume⟩ :=
    openStorage_fresh hs husb hmethod hopen hreplayOpen
  obtain ⟨hcryptroot, fs, id, older, hbtrfs, hmounts, hfs, hefi⟩ :=
    fillStorage_fresh husb hmapping hfat (replays_clock hreplayOpen) hfill hreplayFill
  rw [allAllowed_cons, allAllowed_append, hefi]
  simp only [hfirst, true_and]
  by_cases hnothing : AllAllowed (FindsNothingOld config) first
  · rw [if_pos hnothing] at hvolume
    obtain ⟨hnew, hpassword, hparameters, hempty⟩ := hvolume
    rw [fresh_iff hcryptroot hnew hpassword hparameters hbtrfs (hfs hempty) hmounts]
    simp [hnothing]
  · -- the volume that is open at the end is an old one
    rw [if_neg hnothing] at hvolume
    simp only [hnothing, false_and, iff_false]
    rintro ⟨⟨mapping', hmapping', hnew, -⟩, -⟩
    rw [hcryptroot, Option.some_inj] at hmapping'
    exact absurd (hmapping' ▸ hvolume) (Nat.not_lt.mpr hnew)

end World

/-! ## Runs on an installed disk -/

theorem installedDisk_numbered (password : String) (luks : LuksConfig) (efiSizeMb : Int) :
    (DiskState.installedDisk password luks efiSizeMb).Numbered := by
  constructor <;> simp [DiskState.installedDisk]

/-- The method `secure` on the sample disk: the random fill leaves nothing to find. -/
def secureConfig : InstallerConfig :=
  { sampleConfig with storage := { sampleStorage with wipeMethod := .secure } }

theorem execute_fresh_secure :
    Fresh secureConfig 3 (runOnInstalledDisk secureConfig "new password").final := by
  have hreturned : (runOnInstalledDisk secureConfig "new password").outcome = .returned () := by
    decide
  exact (execute_fresh_iff (installedDisk_numbered _ _ _) rfl (by decide) rfl
    (hreturned ▸ runOnInstalledDisk_runs secureConfig "new password")
    (runOnInstalledDisk_replays _ _)).mpr (by decide)

/-- The method `quick` erases the partition table and writes it again, and the run mounts the
volume of the earlier installation, which the same password opens. -/
theorem quick_wipe_mounts_old_volume :
    let s := DiskState.installedDisk "new password" sampleStorage.luks 2048
    let run := runOnInstalledDisk sampleConfig "new password"
    s.Numbered ∧ sampleConfig.usbBoot.enabled = false ∧ wipeMethod sampleConfig ≠ .skip ∧
    s.isMounted targetRoot = false ∧
    Runs (execute sampleConfig) run.exchanges (.returned ()) ∧
    Replays (diskWorld sampleConfig.storage.targetDisk DiskState.sdaPlaces) s run.exchanges
      run.final ∧
    ¬ Fresh sampleConfig s.clock run.final := by
  intro s run
  have hreturned : run.outcome = .returned () := by decide
  refine ⟨installedDisk_numbered _ _ _, rfl, by decide, rfl,
    hreturned ▸ runOnInstalledDisk_runs sampleConfig "new password",
    runOnInstalledDisk_replays _ _, ?_⟩
  rintro ⟨⟨mapping, hmapping, hnew, -⟩, -⟩
  have hold : run.final.cryptroot.map (·.volume.id) = some 0 := by decide
  rw [hmapping] at hold
  have hid : mapping.volume.id = 0 := Option.some_inj.mp hold
  rw [hid] at hnew
  exact absurd hnew (by decide)

end StorageStepExecutor

end ArchInstaller
