import ArchInstaller.Verify.UsbBootRuns

/-! # The LUKS header on the drive and the ciphertext on the disk

The USB boot drive step decides whether to keep the drive, and the storage step, later and by
probes of its own, whether to keep the disk. The two decisions agree on runs whose probes agree;
an unmount or a close that fails after the first decision makes them disagree. -/

namespace ArchInstaller

open Interaction PyText Script StorageStepExecutor
open UsbBootDriveStepExecutor (FindsHeader PartitionsDrive)

variable {config : InstallerConfig} {exchanges : Exchanges}

namespace UsbBootStorage

/-- The drive, its header partition and the disk. -/
def headerDevices (config : InstallerConfig) : List String :=
  [config.usbBoot.device, config.usbBoot.luksHeaderPartition, config.storage.targetDisk]

/-- A command that erases the drive, its header partition or the disk. -/
def ErasesHeader (config : InstallerConfig) (invocation : Invocation) : Prop :=
  ∃ device ∈ invocation.command.erases, device ∈ headerDevices config

/-- The `luksFormat` that puts a new header on the drive. -/
def FormatsHeader (config : InstallerConfig) (invocation : Invocation) : Prop :=
  ∃ luks device, invocation.command =
    .cryptsetupLuksFormat luks (some config.usbBoot.luksHeaderPartition) device

/-- Header and ciphertext were left alone, or a new header came after the drive was
partitioned. -/
def KeptOrRecreated (config : InstallerConfig) (exchanges : Exchanges) : Prop :=
  (∀ x ∈ exchanges, ¬ ErasesHeader config x.1) ∨
    ∃ before after, exchanges = before ++ after ∧
      (∃ x ∈ before, PartitionsDrive config x.1) ∧ ∃ x ∈ after, FormatsHeader config x.1

/-! ## What the storage step finds -/

/-- The target was mounted when the run began. -/
def FindsMounted (exchanges : Exchanges) : Prop :=
  ∃ result tail, exchanges = (unchecked (.mountpoint targetRoot), result) :: tail ∧ result.success

/-- `cryptroot` was open when the LUKS volume was set up. -/
def FindsOpen (exchanges : Exchanges) : Prop :=
  ∃ x ∈ exchanges, x.1 = statusCall ∧ reportsOpen x.2

instance : Decidable (FindsOpen exchanges) :=
  inferInstanceAs (Decidable (∃ x ∈ exchanges, _ ∧ _))

/-- The open volume held a btrfs. -/
def FindsBtrfs (config : InstallerConfig) (exchanges : Exchanges) : Prop :=
  ∃ x ∈ exchanges, x.1.command = .blkid config.storage.cryptrootDevice ∧
    contains "TYPE=\"btrfs\"" x.2.stdout

/-- The two steps decide alike. A disk or drive that is the open volume itself keeps its contents
only with a btrfs on it. -/
def Agree (config : InstallerConfig) (first second : Exchanges) : Prop :=
  (FindsHeader config first → FindsMounted second ∨ (wipeMethod config = .skip ∧
    (FindsOpen second ∨ FindsHeader config second) ∧
    (config.storage.cryptrootDevice ∈ headerDevices config → FindsBtrfs config second))) ∧
  (¬ FindsHeader config first → ¬ FindsMounted second ∧ ¬ FindsOpen second ∧
    ¬ FindsHeader config second)

/-! ## The first step -/

theorem erasesHeader_of_writes {invocation : Invocation} (h : invocation.command.writes = []) :
    ¬ ErasesHeader config invocation := by
  rintro ⟨device, hdevice, -⟩
  have := invocation.command.erases_subset_writes hdevice
  rw [h] at this
  cases this

theorem findsHeader_append {first second : Exchanges} : FindsHeader config (first ++ second) ↔
    FindsHeader config first ∨ FindsHeader config second := by
  simp only [FindsHeader, List.mem_append, or_and_right, exists_or]

/-- Without a probe nothing is found. -/
theorem finds_nothing (config : InstallerConfig)
    (h : ∀ x ∈ exchanges, x.1.command.probesData = false) :
    ¬ FindsOpen exchanges ∧ ¬ FindsHeader config exchanges ∧ ¬ FindsBtrfs config exchanges := by
  refine ⟨?_, ?_, ?_⟩
  · rintro ⟨x, hx, hcall, -⟩
    have := h x hx
    rw [hcall] at this
    cases this
  · rintro ⟨x, hx, hcommand, -⟩
    have := h x hx
    rw [hcommand] at this
    cases this
  · rintro ⟨x, hx, hcommand, -⟩
    have := h x hx
    rw [hcommand] at this
    cases this

/-- A run of the first step that keeps the drive writes nothing. -/
theorem usbDrive_kept (hrun : Runs (UsbBootDriveStepExecutor.execute config) exchanges
    (.returned ())) (hfinds : FindsHeader config exchanges) :
    ∀ x ∈ exchanges, x.1.command.writes = [] := by
  obtain ⟨checks, look, prepare, keeps, rfl, hchecks, hlook, hprepare⟩ :=
    UsbBootDriveStepExecutor.runs_execute_returned hrun
  have hchecksOnly := UsbBootDriveStepExecutor.issues_requireDevices _ _ allAllowed_true hchecks
  have hlookOnly := UsbBootDriveStepExecutor.issues_keepsExistingDrive _ _ allAllowed_true hlook
  have hkeeps := UsbBootDriveStepExecutor.runs_keepsExistingDrive hlook
  cases keeps with
  | true =>
    obtain rfl : prepare = [] := by simpa using hprepare
    intro x hx
    simp only [List.append_nil, List.mem_append] at hx
    rcases hx with hx | hx
    · exact (hchecksOnly x hx).1
    · exact hlookOnly x hx
  | false =>
    have hissues := UsbBootDriveStepExecutor.issues_prepareDrive _ _ allAllowed_true
      (by simpa using hprepare : Runs (UsbBootDriveStepExecutor.prepareDrive config) prepare _)
    simp only [findsHeader_append] at hfinds
    rcases hfinds with h | h | h
    · exact absurd h (finds_nothing config fun x hx => (hchecksOnly x hx).2).2.1
    · exact absurd (hkeeps.mpr h) Bool.false_ne_true
    · exact absurd h (finds_nothing config fun x hx => (hissues x hx).probes).2.1

/-- A run of the first step that does not keep the drive partitions it, and formats no header. -/
theorem usbDrive_prepared (hrun : Runs (UsbBootDriveStepExecutor.execute config) exchanges
    (.returned ())) (hfinds : ¬ FindsHeader config exchanges) :
    (∃ x ∈ exchanges, PartitionsDrive config x.1) ∧
      ∀ x ∈ exchanges, ¬ FormatsHeader config x.1 := by
  obtain ⟨checks, look, prepare, keeps, rfl, hchecks, hlook, hprepare⟩ :=
    UsbBootDriveStepExecutor.runs_execute_returned hrun
  have hchecksOnly := UsbBootDriveStepExecutor.issues_requireDevices _ _ allAllowed_true hchecks
  have hlookOnly := UsbBootDriveStepExecutor.issues_keepsExistingDrive _ _ allAllowed_true hlook
  obtain rfl : keeps = false := by
    rw [Bool.eq_false_iff, Ne, UsbBootDriveStepExecutor.runs_keepsExistingDrive hlook]
    simp only [findsHeader_append, not_or] at hfinds
    exact hfinds.2.1
  rw [if_neg Bool.false_ne_true] at hprepare
  have hissues := UsbBootDriveStepExecutor.issues_prepareDrive _ _ allAllowed_true hprepare
  obtain ⟨x, hx, hpartitions⟩ := UsbBootDriveStepExecutor.runs_prepareDrive hprepare
  refine ⟨⟨x, by simp [hx], hpartitions⟩, ?_⟩
  rintro y hy ⟨luks, device, hcommand⟩
  simp only [List.mem_append] at hy
  rcases hy with hy | hy | hy
  · simpa [hcommand, Command.writes] using (hchecksOnly y hy).1
  · simpa [hcommand, Command.writes] using hlookOnly y hy
  · simpa [hcommand, Command.usesVolume] using (hissues y hy).volumes

/-! ## The second step -/

/-- A run of the second step on a mounted target writes nothing. -/
theorem storage_mounted (hrun : Runs (StorageStepExecutor.execute config) exchanges
    (.returned ())) (hmounted : FindsMounted exchanges) :
    ∀ x ∈ exchanges, x.1.command.writes = [] := by
  obtain ⟨result, tail, rfl, hsuccess⟩ := hmounted
  rcases runs_execute_iff.mp hrun with ⟨h, -⟩ | ⟨result', tail', heq, htail⟩
  · cases h
  obtain ⟨hfirst, rfl⟩ := List.cons.inj heq
  obtain rfl : result = result' := congrArg Prod.snd hfirst
  rw [if_pos hsuccess] at htail
  have hissues := issues_keepExistingStorage _ _ allAllowed_true htail
  rw [List.forall_mem_cons]
  refine ⟨rfl, fun x hx => ?_⟩
  rcases hissues x hx with h | h <;> rw [h] <;> rfl

theorem findsOpen_append {first second : Exchanges} :
    FindsOpen (first ++ second) ↔ FindsOpen first ∨ FindsOpen second := by
  simp only [FindsOpen, List.mem_append, or_and_right, exists_or]

theorem findsBtrfs_append {first second : Exchanges} : FindsBtrfs config (first ++ second) ↔
    FindsBtrfs config first ∨ FindsBtrfs config second := by
  simp only [FindsBtrfs, List.mem_append, or_and_right, exists_or]

/-- The header is formatted exactly where neither an open volume nor a header is found. -/
theorem runs_setupLuks_usb (husb : config.usbBoot.enabled)
    (hrun : Runs (setupLuks config) exchanges (.returned ())) :
    ((∃ x ∈ exchanges, FormatsHeader config x.1) ↔
        ¬ FindsOpen exchanges ∧ ¬ FindsHeader config exchanges) ∧
      ((∀ x ∈ exchanges, ¬ ErasesHeader config x.1) ↔
        FindsOpen exchanges ∨ FindsHeader config exchanges) ∧
      ¬ FindsBtrfs config exchanges := by
  have hheader := detachedHeader_usb husb
  have hdevice := luksHeaderDevice_usb husb
  have hmem : config.usbBoot.luksHeaderPartition ∈ headerDevices config := by
    simp [headerDevices]
  cases runs_setupLuks hrun with
  | alreadyOpen hopen _ =>
    simp [FormatsHeader, ErasesHeader, FindsOpen, FindsHeader, FindsBtrfs, hopen, statusCall,
      Command.erases]
  | opened hclosed hluks hopened =>
    simp [FormatsHeader, ErasesHeader, FindsOpen, FindsHeader, FindsBtrfs, hclosed, hluks, hdevice,
      statusCall, isLuksCall, openCall, settleCall, Command.erases]
  | formatted hclosed hnoLuks hformatted hopened =>
    simp [FormatsHeader, ErasesHeader, FindsOpen, FindsHeader, FindsBtrfs, hclosed, hnoLuks,
      hdevice, hheader, hmem, statusCall, isLuksCall, formatCall, openCall, settleCall,
      Command.erases]

/-- The open volume is erased exactly where it holds no btrfs. -/
theorem runs_ensureBtrfs (hrun : Runs (ensureBtrfs config) exchanges (.returned ())) :
    (∃ x ∈ exchanges, x.1.command = .wipefs config.storage.cryptrootDevice) ↔
      ¬ FindsBtrfs config exchanges := by
  simp only [ensureBtrfs, runs_bind_returned_iff, runs_tryRun_unit_iff,
    runs_query_returned_iff] at hrun
  obtain ⟨_, _, _, rfl, ⟨settled, rfl⟩, _, _, rest, rfl, ⟨blkid, rfl, rfl⟩, hrest⟩ := hrun
  split at hrest
  · next hbtrfs =>
    obtain rfl := runs_info_returned_iff.mp hrest
    simp [FindsBtrfs, hbtrfs]
  · next hbtrfs =>
    rw [runs_info_bind] at hrest
    simp only [runs_bind_returned_iff, runs_tryRun_unit_iff, runs_run_unit_iff] at hrest
    obtain ⟨_, _, _, rfl, ⟨wiped, rfl⟩, _, _, _, rfl, ⟨synced, rfl, -⟩, made, rfl, -⟩ := hrest
    simp [FindsBtrfs, hbtrfs]

/-- `fillStorage` after `ensureBtrfs`. -/
def afterBtrfs (config : InstallerConfig) : Script Unit := do
  let mounted ← isMountpoint targetRoot
  Program.onlyIf (!mounted) (run_ (.mountBtrfs config.storage.cryptrootDevice targetRoot))
  createSubvolumes config
  run_ (.umount targetRoot)
  mountFilesystems config
  finishStorage config

theorem fillStorage_eq_afterBtrfs :
    fillStorage config = ensureBtrfs config >>= fun _ => afterBtrfs config := by
  simp only [fillStorage_eq, setupBtrfs, afterBtrfs, bind_assoc]

/-- A command that erases nothing and does not look at the open volume. -/
def IgnoresVolume (config : InstallerConfig) (invocation : Invocation) : Prop :=
  invocation.command.erases = [] ∧
    invocation.command ≠ .blkid config.storage.cryptrootDevice

theorem issues_afterBtrfs (husb : config.usbBoot.enabled) :
    Issues (IgnoresVolume config) (afterBtrfs config) := by
  have hmount : ∀ subvolume,
      Issues (IgnoresVolume config) (mountSubvolume config subvolume) := by
    simp [mountSubvolume, IgnoresVolume, Command.erases]
  have hefi : config.efiPartition ≠ config.storage.cryptrootDevice := by
    rw [InstallerConfig.efiPartition, if_pos husb]
    exact derivePartitionPath_ne_cryptrootPath _ _
  simp [afterBtrfs, isMountpoint, createSubvolumes, createSubvolume, mountFilesystems, hmount,
    mountEfiPartition, finishStorage, createSwapfile, fileExists, IgnoresVolume, Command.erases,
    hefi]

theorem issues_ensureBtrfs :
    Issues (fun invocation => invocation.command.erases = [] ∨
      invocation.command = .wipefs config.storage.cryptrootDevice) (ensureBtrfs config) := by
  simp [ensureBtrfs, Command.erases]

theorem runs_fillStorage_usb (husb : config.usbBoot.enabled)
    (hrun : Runs (fillStorage config) exchanges (.returned ())) :
    (∀ x ∈ exchanges, ¬ ErasesHeader config x.1) ↔
      (config.storage.cryptrootDevice ∈ headerDevices config → FindsBtrfs config exchanges) := by
  rw [fillStorage_eq_afterBtrfs] at hrun
  obtain ⟨ensure, ⟨⟩, rest, rfl, hensure, hrest⟩ := runs_bind_returned_iff.mp hrun
  have hensureOnly := issues_ensureBtrfs _ _ allAllowed_true hensure
  have hrestOnly := issues_afterBtrfs husb _ _ allAllowed_true hrest
  have hwipes := runs_ensureBtrfs hensure
  have hnoBtrfs : ¬ FindsBtrfs config rest := by
    rintro ⟨x, hx, hcommand, -⟩
    exact (hrestOnly x hx).2 hcommand
  rw [findsBtrfs_append, or_iff_left hnoBtrfs]
  constructor
  · intro hkept hmem
    by_contra hbtrfs
    obtain ⟨x, hx, hcommand⟩ := hwipes.mpr hbtrfs
    refine hkept x (List.mem_append_left _ hx) ⟨config.storage.cryptrootDevice, ?_, hmem⟩
    simp [hcommand, Command.erases]
  · rintro hfound x hx ⟨device, hdevice, hmem⟩
    rcases List.mem_append.mp hx with hx | hx
    · rcases hensureOnly x hx with hnone | hcommand
      · simp [hnone] at hdevice
      · obtain rfl : device = config.storage.cryptrootDevice := by
          simpa [hcommand, Command.erases] using hdevice
        exact hwipes.mp ⟨x, hx, hcommand⟩ (hfound hmem)
    · simp [(hrestOnly x hx).1] at hdevice

/-- `fillStorage` finds neither an open volume nor a header. -/
theorem fills_nothing (h : ∀ x ∈ exchanges, FillsVolume config x.1) :
    ¬ FindsOpen exchanges ∧ ¬ FindsHeader config exchanges := by
  constructor
  · rintro ⟨x, hx, hcall, -⟩
    simpa [hcall, statusCall, Command.probesData] using (h x hx).2
  · rintro ⟨x, hx, hcommand, -⟩
    simpa [hcommand, Command.probesData] using (h x hx).2

theorem runs_prepareDisk_usb (husb : config.usbBoot.enabled)
    (hrun : Runs (prepareDisk config) exchanges (.returned ())) :
    (∀ x ∈ exchanges, ¬ ErasesHeader config x.1) ↔ wipeMethod config = .skip := by
  simp only [prepareDisk, husb, if_true, runs_onlyIf_returned_iff, bne_iff_ne] at hrun
  by_cases hskip : wipeMethod config = .skip
  · obtain rfl : exchanges = [] := by simpa [hskip] using hrun
    simp [hskip]
  · rw [if_pos hskip, wipeDisk] at hrun
    simp only [runs_info_bind, eraseTable] at hrun
    obtain ⟨first, ⟨⟩, rest, rfl, hfirst, -⟩ := runs_bind_returned_iff.mp hrun
    obtain ⟨_, ⟨⟩, _, rfl, hwipe, -⟩ := runs_bind_returned_iff.mp hfirst
    obtain ⟨result, rfl⟩ := runs_tryRun_unit_iff.mp hwipe
    simp only [hskip, iff_false, not_forall]
    refine ⟨_, List.mem_append_left _ (List.mem_append_left _ (List.mem_singleton_self _)), ?_⟩
    rw [not_not]
    exact ⟨config.storage.targetDisk, by simp [Command.erases], by simp [headerDevices]⟩

/-- What a run of the second step on an unmounted target erases and formats, by what it finds. -/
theorem storage_unmounted (husb : config.usbBoot.enabled)
    (hrun : Runs (StorageStepExecutor.execute config) exchanges (.returned ()))
    (hunmounted : ¬ FindsMounted exchanges) :
    ((∀ x ∈ exchanges, ¬ ErasesHeader config x.1) ↔ wipeMethod config = .skip ∧
        (FindsOpen exchanges ∨ FindsHeader config exchanges) ∧
        (config.storage.cryptrootDevice ∈ headerDevices config →
          FindsBtrfs config exchanges)) ∧
      ((∃ x ∈ exchanges, FormatsHeader config x.1) ↔
        ¬ FindsOpen exchanges ∧ ¬ FindsHeader config exchanges) := by
  rcases runs_execute_iff.mp hrun with ⟨-, ⟨⟩⟩ | ⟨result, tail, rfl, htail⟩
  have hfailed : ¬ result.success := fun h => hunmounted ⟨result, tail, rfl, h⟩
  rw [if_neg hfailed, convergeStorage_eq] at htail
  obtain ⟨opening, ⟨⟩, fill, rfl, hopening, hfill⟩ := runs_bind_returned_iff.mp htail
  obtain ⟨cleanup, prepare, luks, rfl, hcleanup, hprepare, hluks⟩ :=
    runs_openStorage_returned_iff.mp hopening
  have hquiet : ∀ x ∈ (unchecked (.mountpoint targetRoot), result) :: cleanup,
      x.1.command.writes = [] ∧ x.1.command.probesData = false := by
    refine List.forall_mem_cons.mpr ⟨by simp [Command.writes, Command.probesData], ?_⟩
    intro x hx
    have := issues_cleanupStaleMounts _ _ allAllowed_true hcleanup x hx
    simp only [List.mem_cons, List.not_mem_nil, or_false] at this
    rcases this with h | h | h | h | h <;> simp [h, Command.writes, Command.probesData]
  have hprepareOnly := issues_prepareDisk_usb husb _ _ allAllowed_true hprepare
  have hfillOnly := issues_fillStorage_probes _ _ allAllowed_true hfill
  obtain ⟨hquietOpen, hquietHeader, hquietBtrfs⟩ :=
    finds_nothing config fun x hx => (hquiet x hx).2
  obtain ⟨hprepareOpen, hprepareHeader, hprepareBtrfs⟩ :=
    finds_nothing config fun x hx => (hprepareOnly x hx).probes
  obtain ⟨hluksFormats, hluksErases, hluksBtrfs⟩ := runs_setupLuks_usb husb hluks
  obtain ⟨hfillOpen, hfillHeader⟩ := fills_nothing hfillOnly
  rw [← List.cons_append, ← List.cons_append]
  simp only [findsOpen_append, findsHeader_append, findsBtrfs_append, hquietOpen, hquietHeader,
    hquietBtrfs, hprepareOpen, hprepareHeader, hprepareBtrfs, hluksBtrfs, hfillOpen, hfillHeader,
    List.forall_mem_append, false_or, or_false]
  constructor
  · rw [runs_prepareDisk_usb husb hprepare, hluksErases, runs_fillStorage_usb husb hfill]
    have hquietErases : ∀ x ∈ (unchecked (.mountpoint targetRoot), result) :: cleanup,
        ¬ ErasesHeader config x.1 := fun x hx => erasesHeader_of_writes (hquiet x hx).1
    simp only [iff_true_intro hquietErases, true_and, and_assoc]
  · rw [← hluksFormats]
    constructor
    · rintro ⟨x, hx, hformats⟩
      obtain ⟨luks, device, hcommand⟩ := hformats
      simp only [List.mem_append] at hx
      rcases hx with (hx | hx | hx) | hx
      · simpa [hcommand, Command.writes] using (hquiet x hx).1
      · simpa [hcommand, Command.creates] using (hprepareOnly x hx).creates
      · exact ⟨x, hx, luks, device, hcommand⟩
      · simpa [hcommand, Command.usesVolume] using (hfillOnly x hx).1
    · rintro ⟨x, hx, hformats⟩
      exact ⟨x, by simp [hx], hformats⟩

/-! ## Both steps -/

theorem partitionsDrive_writes {invocation : Invocation} (h : PartitionsDrive config invocation) :
    invocation.command.writes ≠ [] := by
  obtain ⟨number, size, type, hcommand⟩ := h
  simp [hcommand, Command.writes]

/-- When both steps return, header and ciphertext were kept together or made together if and only
if the two decisions agree. -/
theorem keptOrRecreated_iff {first second : Exchanges} (husb : config.usbBoot.enabled)
    (hfirst : Runs (UsbBootDriveStepExecutor.execute config) first (.returned ()))
    (hsecond : Runs (StorageStepExecutor.execute config) second (.returned ())) :
    KeptOrRecreated config (first ++ second) ↔ Agree config first second := by
  have hnoPartition : ∀ x ∈ second, ¬ PartitionsDrive config x.1 := by
    rintro x hx ⟨number, size, type, hcommand⟩
    exact issues_execute_usb husb _ _ allAllowed_true hsecond x hx _ _ _ _ hcommand
  by_cases hheader : FindsHeader config first
  · -- the drive is kept, so the disk must be
    have hkept := usbDrive_kept hfirst hheader
    have hnotMade : ∀ x ∈ first ++ second, ¬ PartitionsDrive config x.1 := by
      intro x hx hpartitions
      rcases List.mem_append.mp hx with hx | hx
      · exact partitionsDrive_writes hpartitions (hkept x hx)
      · exact hnoPartition x hx hpartitions
    have hiff : KeptOrRecreated config (first ++ second) ↔
        ∀ x ∈ second, ¬ ErasesHeader config x.1 := by
      constructor
      · rintro (hnone | ⟨before, after, heq, ⟨x, hx, hpartitions⟩, -⟩) y hy
        · exact hnone y (List.mem_append_right _ hy)
        · exact absurd hpartitions (hnotMade x (heq ▸ List.mem_append_left _ hx))
      · intro hnone
        refine .inl (List.forall_mem_append.mpr ⟨fun x hx => ?_, hnone⟩)
        exact erasesHeader_of_writes (hkept x hx)
    rw [hiff, Agree]
    simp only [hheader, not_true, true_imp_iff, false_imp_iff, and_true]
    by_cases hmounted : FindsMounted second
    · simp only [hmounted, true_or, iff_true]
      exact fun x hx => erasesHeader_of_writes (storage_mounted hsecond hmounted x hx)
    · simp only [hmounted, false_or]
      exact (storage_unmounted husb hsecond hmounted).1
  · -- the drive is made anew, so the header must be
    obtain ⟨⟨x, hx, hpartitions⟩, hnoFormat⟩ := usbDrive_prepared hfirst hheader
    have hiff : KeptOrRecreated config (first ++ second) ↔
        ∃ x ∈ second, FormatsHeader config x.1 := by
      constructor
      · rintro (hnone | ⟨before, after, heq, -, y, hy, hformats⟩)
        · refine absurd ?_ (hnone x (List.mem_append_left _ hx))
          obtain ⟨number, size, type, hcommand⟩ := hpartitions
          exact ⟨config.usbBoot.device, by simp [hcommand, Command.erases], by simp [headerDevices]⟩
        · have hmem : y ∈ first ++ second := heq ▸ List.mem_append_right _ hy
          rcases List.mem_append.mp hmem with hmem | hmem
          · exact absurd hformats (hnoFormat y hmem)
          · exact ⟨y, hmem, hformats⟩
      · intro hformats
        exact .inr ⟨first, second, rfl, ⟨x, hx, hpartitions⟩, hformats⟩
    rw [hiff, Agree]
    simp only [hheader, not_false_eq_true, true_imp_iff, false_imp_iff, true_and]
    by_cases hmounted : FindsMounted second
    · simp only [hmounted, not_true, false_and, iff_false]
      rintro ⟨y, hy, luks, device, hcommand⟩
      simpa [hcommand, Command.writes] using storage_mounted hsecond hmounted y hy
    · simp only [hmounted, not_false_eq_true, true_and]
      exact (storage_unmounted husb hsecond hmounted).2

/-! ## Runs after an interrupted attempt -/

/-- A machine where an earlier attempt left `cryptroot` open and the target unmounted: `busy`
tells whether closing the volume fails. -/
def openVolume (busy : Bool) : Unit → Invocation → CommandExecutionResult × Unit
  | (), ⟨command, _, _⟩ =>
    (match command with
    | .mountpoint _ | .umountRecursive _ | .cryptsetupIsLuks _ => DiskState.failed
    | .cryptsetupClose _ => DiskState.exitWith (!busy)
    | .cryptsetupStatus _ =>
      if busy then ⟨0, "/dev/mapper/cryptroot is active.\n  device:  /dev/sda", ""⟩
      else DiskState.failed
    | .lsblkType _ => ⟨0, "disk\n", ""⟩
    | .readlinkById _ => ⟨0, "/dev/disk/by-id/wwn-0x5000c500a1b2c3d4\n", ""⟩
    | .blockdevSize _ => ⟨0, "64000000000\n", ""⟩
    | _ => DiskState.done, ())

def usbDriveRun (busy : Bool) : Simulation Invocation CommandExecutionResult InstallerError Unit Unit :=
  simulate (openVolume busy) (UsbBootDriveStepExecutor.execute sampleUsbConfig) 200 ()

def storageRun (busy : Bool) : Simulation Invocation CommandExecutionResult InstallerError Unit Unit :=
  simulate (openVolume busy) (StorageStepExecutor.execute sampleUsbConfig) 200 ()

theorem usbDriveRun_runs {busy : Bool} (h : (usbDriveRun busy).outcome = .returned ()) :
    Runs (UsbBootDriveStepExecutor.execute sampleUsbConfig) (usbDriveRun busy).exchanges
      (.returned ()) :=
  h ▸ simulate_runs _ _ _ _

theorem storageRun_runs {busy : Bool} (h : (storageRun busy).outcome = .returned ()) :
    Runs (StorageStepExecutor.execute sampleUsbConfig) (storageRun busy).exchanges (.returned ()) :=
  h ▸ simulate_runs _ _ _ _

/-- The volume is closed: the drive is partitioned, and gets a new header. -/
theorem keptOrRecreated_closed :
    KeptOrRecreated sampleUsbConfig ((usbDriveRun false).exchanges ++ (storageRun false).exchanges) := by
  refine (keptOrRecreated_iff rfl (usbDriveRun_runs (by decide))
    (storageRun_runs (by decide))).mpr ⟨fun h => ?_, fun _ => ⟨?_, ?_, ?_⟩⟩
  · exact absurd h (by decide)
  · rintro ⟨result, tail, heq, hsuccess⟩
    have hfirst : (storageRun false).exchanges.head?.map (·.2.success) = some false := by
      decide
    simp [heq, hsuccess] at hfirst
  · decide
  · decide

/-- The volume stays open: the drive is partitioned, the disk is overwritten, and no header is
made for the volume that the run goes on to fill. -/
theorem open_volume_loses_header :
    Runs (UsbBootDriveStepExecutor.execute sampleUsbConfig) (usbDriveRun true).exchanges
      (.returned ()) ∧
    Runs (StorageStepExecutor.execute sampleUsbConfig) (storageRun true).exchanges (.returned ()) ∧
    ¬ KeptOrRecreated sampleUsbConfig ((usbDriveRun true).exchanges ++ (storageRun true).exchanges) := by
  refine ⟨usbDriveRun_runs (by decide), storageRun_runs (by decide), ?_⟩
  rintro (hnone | ⟨before, after, heq, -, x, hx, luks, device, hcommand⟩)
  · have herased : ∃ x ∈ (usbDriveRun true).exchanges, "/dev/sdb" ∈ x.1.command.erases := by
      decide
    obtain ⟨x, hx, hdevice⟩ := herased
    exact hnone x (List.mem_append_left _ hx) ⟨_, hdevice, List.mem_cons_self⟩
  · have hnoFormat : ∀ x ∈ (usbDriveRun true).exchanges ++ (storageRun true).exchanges,
        x.1.command.usesVolume = false := by
      decide
    have := hnoFormat x (heq ▸ List.mem_append_right _ hx)
    simp [hcommand, Command.usesVolume] at this

end UsbBootStorage

end ArchInstaller
