import ArchInstaller.Verify.UsbBootRuns

/-! # The checks before the USB drive is erased

`UsbBootDriveStepExecutor.execute` is a part that only asks, followed by a part that erases and
fills the drive. The second part is reached when every answer of the first was a good one. -/

namespace ArchInstaller

open Interaction PyText Script

/-- The commands that unmount, close, wipe, partition or format. -/
def Command.isDestructive : Command → Bool
  | umount _ | umountRecursive _ | swapoffAll | cryptsetupClose _ | dmsetupRemoveAll => true
  | wipefs _ | shred _ | ddRandom _ | ddCopy .. | blkdiscard _ => true
  | sgdiskZap _ | sgdiskNew .. | sgdiskReplicate .. | sgdiskMoveEnd _ => true
  | cryptsetupLuksFormat .. | mkfsBtrfs .. | mkfsVfat _ | mkfsExt4 _ | mkswap _ => true
  | _ => false

namespace UsbBootDriveStepExecutor

inductive Check where
  | otherDisk
  | disk
  | stableName
  | notResuming
  | isoSignature
  | isoFiles
  | capacity
  deriving DecidableEq

section Calls

variable (config : InstallerConfig)

def typeCall : Invocation := unchecked (.lsblkType config.usbBoot.device)

def linksCall : Invocation := unchecked (.readlinkById config.storage.targetDisk)

def mountedCall : Invocation := unchecked (.mountpoint targetRoot)

def headerCall : Invocation :=
  unchecked (.cryptsetupIsLuks config.usbBoot.luksHeaderPartition)

def isoReadCall (offset length : Nat) (formatCommand : String) : Invocation :=
  checked (.ddRead config.usbBoot.isoPath offset length formatCommand)

def signatureCall : Invocation :=
  isoReadCall config iso9660SignatureOffset iso9660Signature.length "cat"

def filesCall : Invocation := unchecked (.bsdtarList config.usbBoot.isoPath
  s!"{archisoKernel} {archisoInitramfs} {archisoRootImage}")

def blockCountCall : Invocation := isoReadCall config iso9660BlockCountOffset 4 s!"od -An -tu{4}"

def blockSizeCall : Invocation := isoReadCall config iso9660BlockSizeOffset 2 s!"od -An -tu{2}"

def sizeCall : Invocation := checked (.blockdevSize config.usbBoot.device)

end Calls

/-! ## What the answers say -/

def IsDisk (answer : CommandExecutionResult) : Prop :=
  answer.success ∧ strip answer.stdout = "disk"

def IsNamed (answer : CommandExecutionResult) : Prop := fields answer.stdout ≠ []

def IsIso (answer : CommandExecutionResult) : Prop :=
  answer.success ∧ strip answer.stdout = iso9660Signature

def ReadsNumber (number : Int) (answer : CommandExecutionResult) : Prop :=
  answer.success ∧ parseInt (strip answer.stdout) = some number

/-- The target is mounted, or the storage step keeps what it finds. -/
def Resuming (config : InstallerConfig) (mounted : CommandExecutionResult) : Prop :=
  mounted.success ∨ config.storage.wipeMethod = .skip ∧ config.migration.enabled = false

/-- The drive has room for the partitions. -/
def HasRoom (config : InstallerConfig) (recoverySizeMb : Int) (answer : CommandExecutionResult) :
    Prop :=
  ∃ bytes, ReadsNumber bytes answer ∧ partitionTableSizeMb + config.storage.efiSizeMb +
    luksHeaderPartitionSizeMb + recoverySizeMb ≤ bytes / mebibyte

/-- Somewhere in the trace the call got such an answer. -/
def Answered (trace : Exchanges) (call : Invocation) (good : CommandExecutionResult → Prop) :
    Prop :=
  ∃ answer, (call, answer) ∈ trace ∧ good answer

/-- The size of the recovery partition that the answers lead to. -/
def RecoverySize (config : InstallerConfig) (trace : Exchanges) (recoverySizeMb : Int) : Prop :=
  if config.usbBoot.recoverySystem then
    ∃ blockCount blockSize, Answered trace (blockCountCall config) (ReadsNumber blockCount) ∧
      Answered trace (blockSizeCall config) (ReadsNumber blockSize) ∧ recoverySizeMb =
        if blockCount * blockSize != 0 then recoveryPartitionSizeMb (blockCount * blockSize) else 0
  else recoverySizeMb = 0

namespace Check

/-- The image is looked at only when the recovery system is wanted. -/
def wanted (config : InstallerConfig) : Check → Bool
  | isoSignature | isoFiles => config.usbBoot.recoverySystem
  | _ => true

/-- The trace has established what the check is for. -/
def Passed (config : InstallerConfig) (trace : Exchanges) : Check → Prop
  | otherDisk => config.usbBoot.device ≠ config.storage.targetDisk
  | disk => Answered trace (typeCall config) IsDisk
  | stableName => Answered trace (linksCall config) IsNamed
  | notResuming => Answered trace mountedCall fun mounted =>
      Resuming config mounted → Answered trace (headerCall config) fun header => ¬ header.success
  | isoSignature => Answered trace (signatureCall config) IsIso
  | isoFiles => Answered trace (filesCall config) fun listed => listed.success
  | capacity => ∃ recoverySizeMb, RecoverySize config trace recoverySizeMb ∧
      Answered trace (sizeCall config) (HasRoom config recoverySizeMb)

/-- The trace has an answer that speaks against it, or that cannot be read. -/
def Failed (config : InstallerConfig) (trace : Exchanges) : Check → Prop
  | otherDisk => config.usbBoot.device = config.storage.targetDisk
  | disk => Answered trace (typeCall config) fun type => ¬ IsDisk type
  | stableName => Answered trace (linksCall config) fun links => ¬ IsNamed links
  | notResuming => Answered trace mountedCall (Resuming config) ∧
      Answered trace (headerCall config) fun header => header.success
  | isoSignature => Answered trace (signatureCall config) fun signature => ¬ IsIso signature
  | isoFiles => Answered trace (filesCall config) fun listed => ¬ listed.success
  | capacity =>
      Answered trace (blockCountCall config) (fun count => ∀ number, ¬ ReadsNumber number count) ∨
      Answered trace (blockSizeCall config) (fun size => ∀ number, ¬ ReadsNumber number size) ∨
      Answered trace (sizeCall config) fun size => ∀ recoverySizeMb,
        RecoverySize config trace recoverySizeMb → ¬ HasRoom config recoverySizeMb size

end Check

/-! ## The two parts of the step -/

section Parts

variable (config : InstallerConfig)

def planSize (isoSizeBytes : Int) : Script (Option Int) := do
  let recoverySizeMb := if isoSizeBytes != 0 then recoveryPartitionSizeMb isoSizeBytes else 0
  requireCapacity config recoverySizeMb
  return some recoverySizeMb

/-- The part that asks. It returns the size of the recovery partition, unless it keeps the drive. -/
def checkDrive : Script (Option Int) := do
  requireDevices config
  let keeps ← keepsExistingDrive config
  if keeps then return none
  else
    (if config.usbBoot.recoverySystem then ArchIsoImage.sizeBytes ⟨config.usbBoot.isoPath⟩
      else pure 0) >>= planSize config

/-- The part that erases the drive and fills it. -/
def fillDrive (recoverySizeMb : Int) : Script Unit := do
  info s!"Preparing the USB boot drive {config.usbBoot.device}..."
  releaseDrive config
  partition config recoverySizeMb
  run_ (.mkfsVfat config.usbBoot.efiPartition)
  Program.onlyIf config.usbBoot.recoverySystem
    (storeRecoverySystem config ⟨config.usbBoot.isoPath⟩)

theorem execute_eq_checkDrive : execute config =
    checkDrive config >>= fun plan => plan.elim (pure ()) (fillDrive config) := by
  simp only [execute, checkDrive, bind_assoc]
  congr 1
  funext _
  congr 1
  funext keeps
  cases keeps with
  | true => rfl
  | false =>
    show prepareDrive config = _
    rw [prepareDrive_eq]
    simp only [Bool.false_eq_true, if_false, bind_assoc]
    congr 1
    funext isoSizeBytes
    simp only [planSize, bind_assoc, pure_bind]
    rfl

end Parts

/-! ## Runs of the part that asks -/

section Runs

variable {config : InstallerConfig} {exchanges : Exchanges}

def removableCall (config : InstallerConfig) : Invocation :=
  unchecked (.cat s!"/sys/block/{afterLastSlash config.usbBoot.device}/removable")

theorem runs_parseNumber_returned {text : String} {number : Int} :
    Runs (parseNumber text) exchanges (.returned number) ↔
      exchanges = [] ∧ parseInt text = some number := by
  unfold parseNumber
  cases parseInt text with
  | none => simp
  | some value => simp [eq_comm]

theorem runs_readNumber_returned {image : ArchIsoImage} {offset length : Nat} {number : Int} :
    Runs (image.readNumber offset length) exchanges (.returned number) →
      ∃ answer, exchanges =
          [(checked (.ddRead image.source offset length s!"od -An -tu{length}"), answer)] ∧
        ReadsNumber number answer := by
  intro hrun
  obtain ⟨reading, text, parsing, rfl, hreading, hparsing⟩ := runs_bind_returned_iff.mp hrun
  obtain ⟨call, answer, _, rfl, hcall, hpure⟩ := runs_bind_returned_iff.mp hreading
  obtain ⟨rfl, hsuccess⟩ := runs_run_returned_iff.mp hcall
  obtain ⟨rfl, rfl⟩ := runs_pure_returned_iff.mp hpure
  obtain ⟨rfl, hnumber⟩ := runs_parseNumber_returned.mp hparsing
  exact ⟨answer, rfl, hsuccess, hnumber⟩

theorem runs_requireDisk_returned {device : String}
    (hrun : Runs (UsbDriveInspector.requireDisk device) exchanges (.returned ())) :
    ∃ type removable, exchanges = [(unchecked (.lsblkType device), type),
      (unchecked (.cat s!"/sys/block/{afterLastSlash device}/removable"), removable)] ∧
        IsDisk type := by
  obtain ⟨call, type, rest, rfl, hcall, hrest⟩ := runs_bind_returned_iff.mp hrun
  obtain rfl := runs_tryRun_returned_iff.mp hcall
  split at hrest
  · exact (runs_raise_returned_iff.mp hrest).elim
  · next hdisk =>
    obtain ⟨look, removable, _, rfl, hlook, hwarning⟩ := runs_bind_returned_iff.mp hrest
    obtain rfl := runs_tryRun_returned_iff.mp hlook
    simp only [runs_onlyIf_returned_iff, runs_warning_returned_iff, ite_self] at hwarning
    subst hwarning
    exact ⟨type, removable, rfl, by simpa [IsDisk] using hdisk⟩

theorem isNamed_of_stableDiskPath {disk stablePath : String}
    (hrun : Runs (stableDiskPath disk) exchanges (.returned stablePath)) (hpath : stablePath ≠ "") :
    ∃ links, exchanges = [(unchecked (.readlinkById disk), links)] ∧ IsNamed links := by
  obtain ⟨call, listing, _, rfl, hcall, hpure⟩ := runs_bind_returned_iff.mp hrun
  obtain ⟨links, rfl, rfl⟩ := runs_query_returned_iff.mp hcall
  obtain ⟨rfl, rfl⟩ := runs_pure_returned_iff.mp hpure
  refine ⟨links, rfl, fun hnone => hpath ?_⟩
  simp [hnone, sorted]

theorem runs_requireDevices_returned
    (hrun : Runs (requireDevices config) exchanges (.returned ())) :
    ∃ type removable links, exchanges = [(typeCall config, type),
        (removableCall config, removable), (linksCall config, links)] ∧
      config.usbBoot.device ≠ config.storage.targetDisk ∧ IsDisk type ∧ IsNamed links := by
  simp only [requireDevices] at hrun
  split at hrun
  · exact (runs_raise_returned_iff.mp hrun).elim
  · next hother =>
    obtain ⟨checking, _, rest, rfl, hdisk, hrest⟩ := runs_bind_returned_iff.mp hrun
    obtain ⟨type, removable, rfl, htype⟩ := runs_requireDisk_returned hdisk
    obtain ⟨naming, stablePath, _, rfl, hnaming, hraise⟩ := runs_bind_returned_iff.mp hrest
    simp only [runs_onlyIf_returned_iff, runs_raise_returned_iff, if_false_left,
      beq_iff_eq] at hraise
    obtain ⟨hpath, rfl⟩ := hraise
    obtain ⟨links, rfl, hnamed⟩ := isNamed_of_stableDiskPath hnaming hpath
    exact ⟨type, removable, links, rfl, by simpa using hother, htype, hnamed⟩

theorem runs_keepsExistingDrive_false
    (hrun : Runs (keepsExistingDrive config) exchanges (.returned false)) :
    ∃ mounted headers, exchanges = (mountedCall, mounted) :: headers ∧
      (headers = [] ∧ ¬ Resuming config mounted ∨
        ∃ header, headers = [(headerCall config, header)] ∧ ¬ header.success) := by
  rw [keepsExistingDrive_eq] at hrun
  obtain ⟨mounts, isMounted, rest, rfl, hmounts, hrest⟩ := runs_bind_returned_iff.mp hrun
  obtain ⟨mounted, rfl, rfl⟩ := runs_probe_returned_iff.mp hmounts
  refine ⟨mounted, rest, rfl, ?_⟩
  cases hresuming : (mounted.success ||
      (config.storage.wipeMethod == .skip && !config.migration.enabled)) with
  | false =>
    rw [hresuming] at hrest
    obtain ⟨rfl, -⟩ := runs_pure_returned_iff.mp hrest
    refine .inl ⟨rfl, fun h => ?_⟩
    simp only [Bool.or_eq_false_iff, Bool.and_eq_false_iff] at hresuming
    rcases h with h | ⟨hskip, hmigration⟩
    · simp [h] at hresuming
    · simp [hskip, hmigration] at hresuming
  | true =>
    rw [hresuming] at hrest
    simp only [lookForHeader, if_true, UsbDriveInspector.holdsLuksHeader, runs_bind_returned_iff,
      runs_probe_returned_iff, runs_onlyIf_returned_iff, runs_info_returned_iff, ite_self,
      runs_pure_returned_iff] at hrest
    obtain ⟨_, _, _, rfl, ⟨header, rfl, rfl⟩, _, _, _, rfl, rfl, rfl, hkeeps⟩ := hrest
    exact .inr ⟨header, rfl, by simp [← hkeeps]⟩

theorem runs_sizeBytes_returned {size : Int}
    (hrun : Runs (ArchIsoImage.sizeBytes ⟨config.usbBoot.isoPath⟩) exchanges (.returned size)) :
    ∃ signature listed count block blockCount blockSize, exchanges =
        [(signatureCall config, signature), (filesCall config, listed),
          (blockCountCall config, count), (blockSizeCall config, block)] ∧
      IsIso signature ∧ listed.success ∧ ReadsNumber blockCount count ∧
      ReadsNumber blockSize block ∧ size = blockCount * blockSize := by
  obtain ⟨reading, text, rest, rfl, hreading, hrest⟩ := runs_bind_returned_iff.mp hrun
  obtain ⟨call, signature, _, rfl, hcall, hpure⟩ := runs_bind_returned_iff.mp hreading
  obtain ⟨rfl, hsuccess⟩ := runs_run_returned_iff.mp hcall
  obtain ⟨rfl, rfl⟩ := runs_pure_returned_iff.mp hpure
  split at hrest
  · exact (runs_raise_returned_iff.mp hrest).elim
  · next hsignature =>
    obtain ⟨listing, found, rest, rfl, hlisting, hrest⟩ := runs_bind_returned_iff.mp hrest
    obtain ⟨listed, rfl, rfl⟩ := runs_probe_returned_iff.mp hlisting
    split at hrest
    · exact (runs_raise_returned_iff.mp hrest).elim
    · next hlisted =>
      obtain ⟨_, blockCount, numbers, rfl, hcounting, hnumbers⟩ := runs_bind_returned_iff.mp hrest
      obtain ⟨count, rfl, hcount⟩ := runs_readNumber_returned hcounting
      obtain ⟨_, blockSize, last, rfl, hsizing, hlast⟩ := runs_bind_returned_iff.mp hnumbers
      obtain ⟨block, rfl, hblock⟩ := runs_readNumber_returned hsizing
      obtain ⟨rfl, rfl⟩ := runs_pure_returned_iff.mp hlast
      exact ⟨signature, listed, count, block, blockCount, blockSize, rfl,
        ⟨hsuccess, by simpa using hsignature⟩, by simpa using hlisted, hcount, hblock, rfl⟩

theorem runs_requireCapacity_returned {recoverySizeMb : Int}
    (hrun : Runs (requireCapacity config recoverySizeMb) exchanges (.returned ())) :
    ∃ size, exchanges = [(sizeCall config, size)] ∧ HasRoom config recoverySizeMb size := by
  obtain ⟨sizing, bytes, _, rfl, hsizing, hraise⟩ := runs_bind_returned_iff.mp hrun
  obtain ⟨call, size, parsing, rfl, hcall, hparsing⟩ := runs_bind_returned_iff.mp hsizing
  obtain ⟨rfl, hsuccess⟩ := runs_run_returned_iff.mp hcall
  obtain ⟨rfl, hbytes⟩ := runs_parseNumber_returned.mp hparsing
  simp only [runs_onlyIf_returned_iff, runs_raise_returned_iff, if_false_left,
    decide_eq_true_eq] at hraise
  obtain ⟨hroom, rfl⟩ := hraise
  exact ⟨size, rfl, bytes, ⟨hsuccess, hbytes⟩, not_lt.mp hroom⟩

/-- The answers of a part that asked everything and goes on to erase the drive. -/
structure GoodAnswers (config : InstallerConfig) (recoverySizeMb : Int) where
  type : CommandExecutionResult
  removable : CommandExecutionResult
  links : CommandExecutionResult
  mounted : CommandExecutionResult
  headers : Exchanges
  image : Exchanges
  size : CommandExecutionResult
  otherDisk : config.usbBoot.device ≠ config.storage.targetDisk
  isDisk : IsDisk type
  isNamed : IsNamed links
  notResuming : headers = [] ∧ ¬ Resuming config mounted ∨
    ∃ header, headers = [(headerCall config, header)] ∧ ¬ header.success
  isArchIso : if config.usbBoot.recoverySystem then
      ∃ signature listed count block blockCount blockSize, image =
        [(signatureCall config, signature), (filesCall config, listed),
          (blockCountCall config, count), (blockSizeCall config, block)] ∧
      IsIso signature ∧ listed.success ∧ ReadsNumber blockCount count ∧
      ReadsNumber blockSize block ∧ recoverySizeMb =
        if blockCount * blockSize != 0 then recoveryPartitionSizeMb (blockCount * blockSize) else 0
    else image = [] ∧ recoverySizeMb = 0
  hasRoom : HasRoom config recoverySizeMb size

namespace GoodAnswers

variable {recoverySizeMb : Int} (answers : GoodAnswers config recoverySizeMb)

def trace : Exchanges :=
  [(typeCall config, answers.type), (removableCall config, answers.removable),
    (linksCall config, answers.links), (mountedCall, answers.mounted)] ++
    (answers.headers ++ (answers.image ++ [(sizeCall config, answers.size)]))

theorem of_runs (hrun : Runs (checkDrive config) exchanges (.returned (some recoverySizeMb))) :
    ∃ answers : GoodAnswers config recoverySizeMb, exchanges = answers.trace := by
  obtain ⟨requiring, ⟨⟩, later, rfl, hrequiring, hlater⟩ := runs_bind_returned_iff.mp hrun
  obtain ⟨type, removable, links, rfl, hother, htype, hlinks⟩ :=
    runs_requireDevices_returned hrequiring
  obtain ⟨keeping, keeps, planning, rfl, hkeeping, hplanning⟩ := runs_bind_returned_iff.mp hlater
  cases keeps with
  | true =>
    obtain ⟨-, ⟨⟩⟩ := runs_pure_returned_iff.mp hplanning
  | false =>
    obtain ⟨mounted, headers, rfl, hheaders⟩ := runs_keepsExistingDrive_false hkeeping
    rw [if_neg Bool.false_ne_true] at hplanning
    obtain ⟨image, isoSizeBytes, room, rfl, himage, hroom⟩ := runs_bind_returned_iff.mp hplanning
    obtain ⟨sizing, ⟨⟩, last, rfl, hsizing, hlast⟩ := runs_bind_returned_iff.mp hroom
    obtain ⟨rfl, hsize⟩ := runs_pure_returned_iff.mp hlast
    obtain rfl := Option.some_inj.mp hsize
    obtain ⟨size, rfl, hfits⟩ := runs_requireCapacity_returned hsizing
    refine ⟨⟨type, removable, links, mounted, headers, image, size, hother, htype, hlinks, hheaders,
      ?_, hfits⟩, rfl⟩
    split at himage
    · next hrecovery =>
      obtain ⟨signature, listed, count, block, blockCount, blockSize, heq, hsignature, hlisted,
        hcount, hblock, rfl⟩ := runs_sizeBytes_returned himage
      rw [if_pos hrecovery]
      exact ⟨signature, listed, count, block, blockCount, blockSize, heq, hsignature, hlisted,
        hcount, hblock, rfl⟩
    · next hrecovery =>
      obtain ⟨rfl, rfl⟩ := runs_pure_returned_iff.mp himage
      rw [if_neg hrecovery]
      exact ⟨rfl, rfl⟩

theorem recoverySize : RecoverySize config answers.trace recoverySizeMb := by
  have himage := answers.isArchIso
  unfold RecoverySize
  split at himage
  · next hrecovery =>
    obtain ⟨signature, listed, count, block, blockCount, blockSize, heq, hanswers⟩ := himage
    rw [if_pos hrecovery]
    refine ⟨blockCount, blockSize, ⟨count, ?_, hanswers.2.2.1⟩, ⟨block, ?_, hanswers.2.2.2.1⟩,
      hanswers.2.2.2.2⟩ <;> simp [trace, heq]
  · next hrecovery =>
    rw [if_neg hrecovery]
    exact himage.2

theorem passed (check : Check) (hwanted : check.wanted config) :
    check.Passed config answers.trace := by
  cases check with
  | otherDisk => exact answers.otherDisk
  | disk => exact ⟨answers.type, by simp [trace], answers.isDisk⟩
  | stableName => exact ⟨answers.links, by simp [trace], answers.isNamed⟩
  | notResuming =>
    refine ⟨answers.mounted, by simp [trace], fun hresuming => ?_⟩
    rcases answers.notResuming with ⟨-, hfresh⟩ | ⟨header, heq, hheader⟩
    · exact absurd hresuming hfresh
    · exact ⟨header, by simp [trace, heq], hheader⟩
  | isoSignature =>
    have himage := answers.isArchIso
    change config.usbBoot.recoverySystem = true at hwanted
    rw [if_pos hwanted] at himage
    obtain ⟨signature, listed, count, block, blockCount, blockSize, heq, hsignature, -⟩ := himage
    exact ⟨signature, by simp [trace, heq], hsignature⟩
  | isoFiles =>
    have himage := answers.isArchIso
    change config.usbBoot.recoverySystem = true at hwanted
    rw [if_pos hwanted] at himage
    obtain ⟨signature, listed, count, block, blockCount, blockSize, heq, -, hlisted, -⟩ := himage
    exact ⟨listed, by simp [trace, heq], hlisted⟩
  | capacity => exact ⟨recoverySizeMb, answers.recoverySize, answers.size, by simp [trace], answers.hasRoom⟩

/-- What an exchange of the trace says, by the call that it answers. -/
structure Agrees (x : Invocation × CommandExecutionResult) : Prop where
  type : x.1 = typeCall config → IsDisk x.2
  links : x.1 = linksCall config → IsNamed x.2
  mounted : x.1 = mountedCall → x.2 = answers.mounted
  header : x.1 = headerCall config → ¬ (Resuming config answers.mounted ∧ x.2.success)
  signature : x.1 = signatureCall config → IsIso x.2
  files : x.1 = filesCall config → x.2.success
  blockCount : x.1 = blockCountCall config → ∃ number, ReadsNumber number x.2
  blockSize : x.1 = blockSizeCall config → ∃ number, ReadsNumber number x.2
  size : x.1 = sizeCall config → HasRoom config recoverySizeMb x.2

theorem agrees_of_mem {x : Invocation × CommandExecutionResult} (hx : x ∈ answers.trace) :
    answers.Agrees x := by
  simp only [trace, List.mem_append, List.mem_cons, List.not_mem_nil, or_false] at hx
  rcases hx with (rfl | rfl | rfl | rfl) | hheader | himage | rfl
  · constructor <;> simp [typeCall, linksCall, mountedCall, headerCall, signatureCall, filesCall,
      blockCountCall, blockSizeCall, sizeCall, isoReadCall, answers.isDisk]
  · constructor <;> simp [removableCall, typeCall, linksCall, mountedCall, headerCall,
      signatureCall, filesCall, blockCountCall, blockSizeCall, sizeCall, isoReadCall]
  · constructor <;> simp [typeCall, linksCall, mountedCall, headerCall, signatureCall, filesCall,
      blockCountCall, blockSizeCall, sizeCall, isoReadCall, answers.isNamed]
  · constructor <;> simp [typeCall, linksCall, mountedCall, headerCall, signatureCall, filesCall,
      blockCountCall, blockSizeCall, sizeCall, isoReadCall]
  · rcases answers.notResuming with ⟨hnone, -⟩ | ⟨header, heq, habsent⟩
    · simp [hnone] at hheader
    · obtain rfl := List.mem_singleton.mp (heq ▸ hheader)
      constructor <;> simp [typeCall, linksCall, mountedCall, headerCall, signatureCall, filesCall,
        blockCountCall, blockSizeCall, sizeCall, isoReadCall, habsent]
  · have himages := answers.isArchIso
    split at himages
    · obtain ⟨signature, listed, count, block, blockCount, blockSize, heq, hsignature, hlisted,
        hcount, hblock, -⟩ := himages
      simp only [heq, List.mem_cons, List.not_mem_nil, or_false] at himage
      have hcountReads : ∃ number, ReadsNumber number count := ⟨blockCount, hcount⟩
      have hblockReads : ∃ number, ReadsNumber number block := ⟨blockSize, hblock⟩
      rcases himage with rfl | rfl | rfl | rfl <;> constructor <;>
        simp [typeCall, linksCall, mountedCall, headerCall, signatureCall, filesCall,
          blockCountCall, blockSizeCall, sizeCall, isoReadCall, iso9660SignatureOffset,
          iso9660BlockCountOffset, iso9660BlockSizeOffset, hsignature, hlisted, hcountReads,
          hblockReads]
    · simp [himages.1] at himage
  · constructor <;> simp [typeCall, linksCall, mountedCall, headerCall, signatureCall, filesCall,
      blockCountCall, blockSizeCall, sizeCall, isoReadCall, answers.hasRoom]

theorem not_failed (check : Check) : ¬ check.Failed config answers.trace := by
  cases check with
  | otherDisk => exact answers.otherDisk
  | disk =>
    rintro ⟨type, hmem, hbad⟩
    exact hbad ((answers.agrees_of_mem hmem).type rfl)
  | stableName =>
    rintro ⟨links, hmem, hbad⟩
    exact hbad ((answers.agrees_of_mem hmem).links rfl)
  | notResuming =>
    rintro ⟨⟨mounted, hmem, hresuming⟩, header, hmem', hfound⟩
    obtain rfl := (answers.agrees_of_mem hmem).mounted rfl
    exact (answers.agrees_of_mem hmem').header rfl ⟨hresuming, hfound⟩
  | isoSignature =>
    rintro ⟨signature, hmem, hbad⟩
    exact hbad ((answers.agrees_of_mem hmem).signature rfl)
  | isoFiles =>
    rintro ⟨listed, hmem, hbad⟩
    exact hbad ((answers.agrees_of_mem hmem).files rfl)
  | capacity =>
    rintro (⟨count, hmem, hbad⟩ | ⟨block, hmem, hbad⟩ | ⟨size, hmem, hbad⟩)
    · obtain ⟨number, hnumber⟩ := (answers.agrees_of_mem hmem).blockCount rfl
      exact hbad number hnumber
    · obtain ⟨number, hnumber⟩ := (answers.agrees_of_mem hmem).blockSize rfl
      exact hbad number hnumber
    · exact hbad recoverySizeMb answers.recoverySize ((answers.agrees_of_mem hmem).size rfl)

end GoodAnswers

end Runs

/-! ## Traces of the whole step -/

section Traces

variable {config : InstallerConfig} {trace later : Exchanges} {call : Invocation}
  {good : CommandExecutionResult → Prop}

theorem Answered.append (h : Answered trace call good) (later : Exchanges) :
    Answered (trace ++ later) call good := by
  obtain ⟨answer, hmem, hgood⟩ := h
  exact ⟨answer, List.mem_append_left _ hmem, hgood⟩

theorem RecoverySize.append {recoverySizeMb : Int} (h : RecoverySize config trace recoverySizeMb)
    (later : Exchanges) : RecoverySize config (trace ++ later) recoverySizeMb := by
  unfold RecoverySize at h ⊢
  split
  · next hrecovery =>
    rw [if_pos hrecovery] at h
    obtain ⟨blockCount, blockSize, hcount, hblock, heq⟩ := h
    exact ⟨blockCount, blockSize, hcount.append later, hblock.append later, heq⟩
  · next hrecovery => rwa [if_neg hrecovery] at h

/-- What was established stays established. -/
theorem Check.Passed.append {check : Check} (h : check.Passed config trace) (later : Exchanges) :
    check.Passed config (trace ++ later) := by
  cases check with
  | otherDisk => exact h
  | disk | stableName | isoSignature | isoFiles => exact Answered.append h later
  | notResuming =>
    obtain ⟨mounted, hmem, hheader⟩ := h
    exact ⟨mounted, List.mem_append_left _ hmem, fun hresuming => (hheader hresuming).append later⟩
  | capacity =>
    obtain ⟨recoverySizeMb, hsize, hroom⟩ := h
    exact ⟨recoverySizeMb, hsize.append later, hroom.append later⟩

/-- A call whose answer a check looks at. -/
def IsCheckCall (config : InstallerConfig) (call : Invocation) : Prop :=
  call ∈ [typeCall config, linksCall config, mountedCall, headerCall config, signatureCall config,
    filesCall config, blockCountCall config, blockSizeCall config, sizeCall config]

theorem Answered.of_append (h : Answered (trace ++ later) call good)
    (hcall : IsCheckCall config call) (hlater : ∀ x ∈ later, ¬ IsCheckCall config x.1) :
    Answered trace call good := by
  obtain ⟨answer, hmem, hgood⟩ := h
  rcases List.mem_append.mp hmem with hmem | hmem
  · exact ⟨answer, hmem, hgood⟩
  · exact absurd hcall (hlater _ hmem)

/-- A check fails by an answer to its own call. -/
theorem Check.Failed.of_append {check : Check} (h : check.Failed config (trace ++ later))
    (hlater : ∀ x ∈ later, ¬ IsCheckCall config x.1) : check.Failed config trace := by
  cases check with
  | otherDisk => exact h
  | disk | stableName | isoSignature | isoFiles =>
    exact Answered.of_append h (by simp [IsCheckCall]) hlater
  | notResuming =>
    exact ⟨h.1.of_append (by simp [IsCheckCall]) hlater, h.2.of_append (by simp [IsCheckCall]) hlater⟩
  | capacity =>
    rcases h with h | h | h
    · exact .inl (h.of_append (by simp [IsCheckCall]) hlater)
    · exact .inr (.inl (h.of_append (by simp [IsCheckCall]) hlater))
    · obtain ⟨size, hmem, hbad⟩ := h.of_append (by simp [IsCheckCall]) hlater
      exact .inr (.inr ⟨size, hmem, fun recoverySizeMb hsize => hbad recoverySizeMb (hsize.append later)⟩)

def Harmless (call : Invocation) : Prop := call.command.isDestructive = false

theorem issues_checkDrive : Issues Harmless (checkDrive config) := by
  have hplan : ∀ isoSizeBytes, Issues Harmless (planSize config isoSizeBytes) := by
    simp [planSize, requireCapacity, UsbDriveInspector.sizeBytes, issues_parseNumber, Harmless, Command.isDestructive]
  simp [checkDrive, requireDevices, UsbDriveInspector.requireDisk, stableDiskPath, keepsExistingDrive, isMountpoint, hplan, UsbDriveInspector.holdsLuksHeader,
    ArchIsoImage.sizeBytes, ArchIsoImage.readText, ArchIsoImage.readNumber, ArchIsoImage.read, issues_parseNumber, Harmless, Command.isDestructive]

/-- A command that no check looks at. -/
def AsksNothing (config : InstallerConfig) (call : Invocation) : Prop := ¬ IsCheckCall config call

theorem asksNothing_of_command {call : Invocation}
    (h : call.command.isDestructive ∨ call.command ∈ [.partprobe config.usbBoot.device,
      .udevadmSettle, .mkdir recoveryMount,
      .mountExt4 config.usbBoot.recoveryPartition recoveryMount,
      .bsdtarExtract config.usbBoot.isoPath recoveryMount archisoDirectory,
      .syncFilesystem recoveryMount] ∨ ∃ node, call.command = .test .exists node) :
    AsksNothing config call := by
  intro hcall
  simp only [IsCheckCall, List.mem_cons, List.not_mem_nil, or_false] at hcall
  rcases hcall with rfl | rfl | rfl | rfl | rfl | rfl | rfl | rfl | rfl <;>
    simp [typeCall, linksCall, mountedCall, headerCall, signatureCall, filesCall, blockCountCall,
      blockSizeCall, sizeCall, isoReadCall, Command.isDestructive] at h

theorem issues_fillDrive {recoverySizeMb : Int} :
    Issues (AsksNothing config) (fillDrive config recoverySizeMb) := by
  have hwait : ∀ node, Issues (AsksNothing config)
      (UsbDriveInspector.waitForPartition config.usbBoot.device node) := by
    intro node
    exact issues_waitForNode (asksNothing_of_command (.inr (.inr ⟨node, rfl⟩)))
      (asksNothing_of_command (.inr (.inl List.mem_cons_self)))
  simp [fillDrive, releaseDrive, partition, hwait, storeRecoverySystem,
    ArchIsoImage.extractLiveSystem, asksNothing_of_command, Command.isDestructive]

/-- The drive is erased only after every check has passed, and when a check fails it is left
alone. -/
theorem execute_checked {exchanges : Exchanges} {outcome : Outcome InstallerError Unit}
    (hrun : Runs (execute config) exchanges outcome) :
    (∀ before x after, exchanges = before ++ x :: after → x.1.command.isDestructive →
      ∀ check : Check, check.wanted config → check.Passed config before) ∧
    ∀ check : Check, check.Failed config exchanges →
      ∀ x ∈ exchanges, x.1.command.isDestructive = false := by
  have hsplit : (∃ x ∈ exchanges, x.1.command.isDestructive) →
      ∃ recoverySizeMb, ∃ answers : GoodAnswers config recoverySizeMb, ∃ rest,
        exchanges = answers.trace ++ rest ∧ (∀ x ∈ answers.trace, Harmless x.1) ∧
          ∀ x ∈ rest, ¬ IsCheckCall config x.1 := by
    rintro ⟨x, hx, hdestructive⟩
    rw [execute_eq_checkDrive] at hrun
    obtain ⟨first, plan, rest, rfl, hfirst, hrest, hharmless⟩ :=
      issues_checkDrive.runs_past allAllowed_true hrun ⟨x, hx, by simp [Harmless, hdestructive]⟩
    cases plan with
    | none =>
      obtain ⟨rfl, -⟩ := runs_pure_iff.mp hrest
      rw [List.append_nil] at hx
      exact absurd (hharmless x hx) (by simp [Harmless, hdestructive])
    | some recoverySizeMb =>
      obtain ⟨answers, rfl⟩ := GoodAnswers.of_runs hfirst
      exact ⟨recoverySizeMb, answers, rest, rfl, hharmless, issues_fillDrive.of_runs hrest⟩
  constructor
  · intro before x after heq hdestructive check hwanted
    obtain ⟨recoverySizeMb, answers, rest, htrace, hharmless, -⟩ :=
      hsplit ⟨x, by simp [heq], hdestructive⟩
    have hpassed := answers.passed check hwanted
    rcases List.append_eq_append_iff.mp (heq.symm.trans htrace) with
      ⟨middle, hbefore, hmiddle⟩ | ⟨middle, rfl, -⟩
    · -- the answers reach past `before`, so the destructive command would be one of them
      cases middle with
      | nil => rwa [hbefore, List.append_nil] at hpassed
      | cons y middle =>
        obtain ⟨rfl, -⟩ := List.cons.inj hmiddle
        have hx := hharmless x (hbefore ▸ List.mem_append_right _ List.mem_cons_self)
        simp [Harmless, hdestructive] at hx
    · exact hpassed.append middle
  · intro check hfailed x hx
    by_contra hdestructive
    obtain ⟨recoverySizeMb, answers, rest, rfl, -, hasks⟩ :=
      hsplit ⟨x, hx, by simpa using hdestructive⟩
    exact answers.not_failed check (hfailed.of_append hasks)

end Traces

/-- A drive that passes every check, with the recovery system wanted. -/
def recoveryConfig : InstallerConfig :=
  { sampleUsbConfig with
    usbBoot := { sampleUsbConfig.usbBoot with recoverySystem := true, isoPath := "/dev/sr0" } }

def respondWell (_ : Unit) (call : Invocation) : CommandExecutionResult × Unit :=
  match call.command with
  | .lsblkType _ => (⟨0, "disk\n", ""⟩, ())
  | .readlinkById _ => (⟨0, "/dev/disk/by-id/wwn-0x5000c500a1b2c3d4\n", ""⟩, ())
  | .mountpoint _ => (⟨1, "", ""⟩, ())
  | .ddRead _ offset _ _ =>
    (⟨0, if offset = iso9660SignatureOffset then "CD001"
      else if offset = iso9660BlockCountOffset then " 512000\n" else " 2048\n", ""⟩, ())
  | .blockdevSize _ => (⟨0, "16000000000\n", ""⟩, ())
  | _ => (⟨0, "", ""⟩, ())

def goodDriveRun : Simulation Invocation CommandExecutionResult InstallerError Unit Unit :=
  simulate respondWell (execute recoveryConfig) 100 ()

theorem execute_checked_goodDriveRun :
    (∃ x ∈ goodDriveRun.exchanges, x.1.command.isDestructive) ∧
      (∀ before x after, goodDriveRun.exchanges = before ++ x :: after →
        x.1.command.isDestructive → ∀ check : Check, check.wanted recoveryConfig →
          check.Passed recoveryConfig before) ∧
      ∀ check : Check, check.Failed recoveryConfig goodDriveRun.exchanges →
        ∀ x ∈ goodDriveRun.exchanges, x.1.command.isDestructive = false :=
  ⟨by decide, execute_checked (simulate_runs _ _ _ _)⟩

end UsbBootDriveStepExecutor

end ArchInstaller
