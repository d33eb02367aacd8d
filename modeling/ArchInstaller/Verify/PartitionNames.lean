import ArchInstaller.Config.Sample
import ArchInstaller.Core.Runs
import ArchInstaller.Executors.UsbBoot
import ArchInstaller.Python.Digits
import ArchInstaller.World.Devices

/-! # The names of partitions

The kernel puts a `p` between a disk's name and the number of a partition when the name ends in a
digit. `derive_partition_path` puts it after a name with `nvme` or `loop` in it, and the two agree
on every number, or on none. -/

namespace ArchInstaller

open Interaction PyText Script

def endsInDigit (name : String) : Bool := (name.toList.getLast?.map Char.isDigit).getD false

/-- The kernel's name of a partition. -/
def kernelPartitionPath (disk : String) (number : Nat) : String :=
  disk ++ (if endsInDigit disk then "p" else "") ++ toString number

/-- The disks whose partition numbers `derive_partition_path` puts a `p` before. -/
def isNvmeOrLoop (disk : String) : Bool := contains "nvme" disk || contains "loop" disk

/-- Every `dd` of one partition to another goes from a partition that satisfies `source` to one
that satisfies `spare`. -/
def CopiesPartitions (source spare : String → Prop) (invocation : Invocation) : Prop :=
  ∀ sourcePartition sparePartition,
    invocation.command = .ddCopy sourcePartition sparePartition →
      source sourcePartition ∧ spare sparePartition

/-- One of the partitions of a USB boot drive, by the kernel's name. -/
def IsDrivePartition (disk path : String) : Prop :=
  ∃ number ∈ [1, 2, 3], path = kernelPartitionPath disk number

/-- Every place that combines the disk with a number has the kernel's name of that partition. -/
structure PartitionsNamed (disk : String) : Prop where
  named : ∀ number, 0 < number → derivePartitionPath disk number = kernelPartitionPath disk number
  distinct : ∀ number number', 0 < number → 0 < number' →
    derivePartitionPath disk number = derivePartitionPath disk number' → number = number'
  ne_disk : ∀ number, 0 < number → derivePartitionPath disk number ≠ disk
  internal : ∀ config : InstallerConfig, config.usbBoot.enabled = false →
    config.storage.targetDisk = disk →
      config.efiPartition = kernelPartitionPath disk 1 ∧
        config.encryptedDevice = kernelPartitionPath disk 2 ∧
        config.luksHeaderDevice = kernelPartitionPath disk 2
  usb : ∀ config : InstallerConfig, config.usbBoot.enabled → config.usbBoot.device = disk →
    config.efiPartition = kernelPartitionPath disk 1 ∧
      config.luksHeaderDevice = kernelPartitionPath disk 2 ∧
      config.usbBoot.recoveryPartition = kernelPartitionPath disk 3
  clonedFrom : ∀ spare, Issues (CopiesPartitions (IsDrivePartition disk) fun _ => True)
    (UsbBootDriveCloner.clone disk spare)
  clonedTo : ∀ source, Issues (CopiesPartitions (fun _ => True) (IsDrivePartition disk))
    (UsbBootDriveCloner.clone source disk)

theorem derivePartitionPath_of_ne_empty {disk : String} (hdisk : disk ≠ "") (number : Nat) :
    derivePartitionPath disk number =
      disk ++ ((if isNvmeOrLoop disk then "p" else "") ++ toString number) := by
  rw [derivePartitionPath, if_neg (by simpa using hdisk), ← isNvmeOrLoop]
  by_cases hp : isNvmeOrLoop disk
  · rw [if_pos hp, if_pos hp, ← String.append_assoc]
    rfl
  · rw [if_neg hp, if_neg hp, String.empty_append]
    rfl

section

variable {disk : String}

theorem append_left_cancel {first second second' : String}
    (h : first ++ second = first ++ second') : second = second' := by
  have hchars := congrArg String.toList h
  rw [String.toList_append, String.toList_append] at hchars
  exact String.toList_injective (List.append_cancel_left hchars)

theorem derivePartitionPath_inj (hdisk : disk ≠ "") {number number' : Nat}
    (h : derivePartitionPath disk number = derivePartitionPath disk number') :
    number = number' := by
  rw [derivePartitionPath_of_ne_empty hdisk, derivePartitionPath_of_ne_empty hdisk] at h
  exact toString_nat_inj (append_left_cancel (append_left_cancel h))

theorem derivePartitionPath_ne_disk (hdisk : disk ≠ "") (number : Nat) :
    derivePartitionPath disk number ≠ disk := by
  rw [derivePartitionPath_of_ne_empty hdisk]
  intro h
  have hempty : (if isNvmeOrLoop disk then "p" else "") ++ toString number = "" := by
    have hdiskEmpty : disk ++ _ = disk ++ "" := h.trans String.append_empty.symm
    exact append_left_cancel hdiskEmpty
  exact toString_nat_ne_empty number (String.append_eq_empty_iff.mp hempty).2

theorem derivePartitionPath_eq_kernelPartitionPath_iff (hdisk : disk ≠ "") (number : Nat) :
    derivePartitionPath disk number = kernelPartitionPath disk number ↔
      isNvmeOrLoop disk = endsInDigit disk := by
  rw [derivePartitionPath_of_ne_empty hdisk, kernelPartitionPath, String.append_assoc]
  constructor
  · intro h
    have hlength := congrArg String.length (append_left_cancel h)
    rw [String.length_append, String.length_append] at hlength
    cases hderived : isNvmeOrLoop disk <;> cases hkernel : endsInDigit disk <;>
      simp [hderived, hkernel] at hlength ⊢
  · intro h
    rw [h]

/-! ## Cloning a USB boot drive -/

theorem sublist_of_canReturn_existing {allowed : Invocation → CommandExecutionResult → Prop}
    {partitions found : List String}
    (h : CanReturn allowed (UsbBootDriveCloner.existing partitions) found) :
    found.Sublist partitions := by
  induction partitions generalizing found with
  | nil =>
    obtain rfl := canReturn_pure.mp h
    exact .slnil
  | cons partition partitions ih =>
    simp only [UsbBootDriveCloner.existing, canReturn_bind, canReturn_pure] at h
    obtain ⟨isFound, -, others, hothers, rfl⟩ := h
    cases isFound with
    | false => exact (ih hothers).cons _
    | true => exact (ih hothers).cons_cons _

/-- A partition of a USB boot drive, by the name the program computes. -/
def IsDerived (disk path : String) : Prop :=
  ∃ number ∈ [1, 2, 3], path = derivePartitionPath disk number

variable {source spare : String} {partitions : List String}

theorem issues_requireClonable :
    Issues (CopiesPartitions (IsDerived source) (IsDerived spare))
      (UsbBootDriveCloner.requireClonable source spare) := by
  have hexisting : ∀ partitions, Issues (CopiesPartitions (IsDerived source) (IsDerived spare))
      (UsbBootDriveCloner.existing partitions) := by
    intro partitions
    induction partitions with
    | nil => exact issues_pure
    | cons partition partitions ih =>
      simp [UsbBootDriveCloner.existing, pathExists, ih, CopiesPartitions]
  simp [UsbBootDriveCloner.requireClonable, UsbDriveInspector.requireDisk,
    UsbDriveInspector.holdsLuksHeader, UsbBootDriveCloner.existingPartitions, hexisting,
    CopiesPartitions]

theorem sublist_of_canReturn_requireClonable
    {allowed : Invocation → CommandExecutionResult → Prop}
    (h : CanReturn allowed (UsbBootDriveCloner.requireClonable source spare) partitions) :
    partitions.Sublist ([1, 2, 3].map (derivePartitionPath source)) := by
  simp only [UsbBootDriveCloner.requireClonable, canReturn_bind] at h
  obtain ⟨-, -, -, -, found, hfound, h⟩ := h
  split at h
  · obtain ⟨holdsHeader, hnone, h⟩ := canReturn_bind.mp h
    obtain rfl := canReturn_pure.mp hnone
    exact (canReturn_scriptRaise.mp h).elim
  · obtain ⟨holdsHeader, -, h⟩ := canReturn_bind.mp h
    split at h
    · exact (canReturn_scriptRaise.mp h).elim
    · obtain ⟨mountpoints, -, h⟩ := canReturn_bind.mp h
      split at h
      · exact (canReturn_scriptRaise.mp h).elim
      · obtain rfl := canReturn_pure.mp h
        exact sublist_of_canReturn_existing hfound

theorem issues_copyDrive
    (hpartitions : partitions.Sublist ([1, 2, 3].map (derivePartitionPath source))) :
    Issues (CopiesPartitions (IsDerived source) (IsDerived spare))
      (UsbBootDriveCloner.copyDrive source spare partitions) := by
  have hwait : ∀ device node, Issues (CopiesPartitions (IsDerived source) (IsDerived spare))
      (UsbDriveInspector.waitForPartition device node) := by
    intro device node
    apply issues_waitForNode <;> simp [CopiesPartitions]
  have hcopies : ∀ pair ∈ partitions.zip ((List.range partitions.length).map fun i =>
      derivePartitionPath spare (i + 1)),
      Issues (CopiesPartitions (IsDerived source) (IsDerived spare))
        (UsbBootDriveCloner.copyPartition spare pair.1 pair.2) := by
    rintro ⟨partition, sparePartition⟩ hpair
    obtain ⟨hpartition, hspare⟩ := List.of_mem_zip hpair
    obtain ⟨number, hnumber, rfl⟩ := List.mem_map.mp (hpartitions.subset hpartition)
    obtain ⟨i, hi, rfl⟩ := List.mem_map.mp hspare
    have hlength := hpartitions.length_le
    rw [List.mem_range] at hi
    simp only [List.length_map, List.length_cons, List.length_nil] at hlength
    have hnumbers : i + 1 ∈ [1, 2, 3] := by
      simp
      omega
    have hcopy : CopiesPartitions (IsDerived source) (IsDerived spare)
        (checked (.ddCopy (derivePartitionPath source number)
          (derivePartitionPath spare (i + 1)))) := by
      rintro _ _ ⟨⟩
      exact ⟨⟨number, hnumber, rfl⟩, i + 1, hnumbers, rfl⟩
    simp [UsbBootDriveCloner.copyPartition, hwait, hcopy]
  simp [UsbBootDriveCloner.copyDrive, IssuesGiven.forEach hcopies, CopiesPartitions]

theorem issues_clone (source spare : String) :
    Issues (CopiesPartitions (IsDerived source) (IsDerived spare))
      (UsbBootDriveCloner.clone source spare) := by
  unfold UsbBootDriveCloner.clone
  split
  · exact issues_scriptRaise
  · refine issues_bind.mpr ⟨issues_requireClonable, fun partitions hpartitions => ?_⟩
    exact issues_copyDrive (sublist_of_canReturn_requireClonable hpartitions)

theorem IsDerived.isDrivePartition {path : String}
    (hnamed : ∀ number, derivePartitionPath disk number = kernelPartitionPath disk number)
    (h : IsDerived disk path) : IsDrivePartition disk path := by
  obtain ⟨number, hnumber, rfl⟩ := h
  exact ⟨number, hnumber, hnamed number⟩

end

/-! ## The two rules -/

theorem partitionsNamed {disk : String} (hdisk : disk ≠ "")
    (hrules : isNvmeOrLoop disk = endsInDigit disk) : PartitionsNamed disk := by
  have hnamed number := (derivePartitionPath_eq_kernelPartitionPath_iff hdisk number).mpr hrules
  constructor
  case named => exact fun number _ => hnamed number
  case distinct => exact fun number number' _ _ h => derivePartitionPath_inj hdisk h
  case ne_disk => exact fun number _ => derivePartitionPath_ne_disk hdisk number
  case internal =>
    rintro config husb rfl
    simp [InstallerConfig.efiPartition, InstallerConfig.encryptedDevice,
      InstallerConfig.luksHeaderDevice, husb, hnamed]
  case usb =>
    rintro config husb rfl
    simp [InstallerConfig.efiPartition, InstallerConfig.luksHeaderDevice,
      UsbBootConfig.efiPartition, UsbBootConfig.luksHeaderPartition,
      UsbBootConfig.recoveryPartition, usbEfiPartitionNumber, usbLuksHeaderPartitionNumber,
      usbRecoveryPartitionNumber, husb, hnamed]
  case clonedFrom =>
    intro spare
    refine (issues_clone disk spare).mono fun invocation hcopies source copy hcopy => ?_
    exact ⟨(hcopies source copy hcopy).1.isDrivePartition hnamed, trivial⟩
  case clonedTo =>
    intro source
    refine (issues_clone source disk).mono fun invocation hcopies partition copy hcopy => ?_
    exact ⟨trivial, (hcopies partition copy hcopy).2.isDrivePartition hnamed⟩

/-- The computed names are the kernel's exactly for the disks on which the two rules agree. -/
theorem partitionsNamed_iff {name : String} (hname : name ≠ "") :
    PartitionsNamed ("/dev/" ++ name) ↔
      isNvmeOrLoop ("/dev/" ++ name) = endsInDigit ("/dev/" ++ name) := by
  have hdisk : "/dev/" ++ name ≠ "" := by
    intro h
    exact hname (String.append_eq_empty_iff.mp h).2
  constructor
  · intro h
    exact (derivePartitionPath_eq_kernelPartitionPath_iff hdisk 1).mp (h.named 1 Nat.one_pos)
  · exact partitionsNamed hdisk

theorem partitionsNamed_iff_sda :
    "sda" ≠ "" ∧ (PartitionsNamed ("/dev/" ++ "sda") ↔
      isNvmeOrLoop ("/dev/" ++ "sda") = endsInDigit ("/dev/" ++ "sda")) :=
  ⟨by decide, partitionsNamed_iff (by decide)⟩

/-- The first partition of an SD card is `/dev/mmcblk0p1`, not `/dev/mmcblk01`. -/
theorem not_partitionsNamed : ¬ ∀ name, name ≠ "" → PartitionsNamed ("/dev/" ++ name) := by
  intro h
  have hnamed := (h "mmcblk0" (by decide)).named 1 Nat.one_pos
  have hderived : derivePartitionPath "/dev/mmcblk0" 1 = "/dev/mmcblk01" := by decide
  have hkernel : kernelPartitionPath "/dev/mmcblk0" 1 = "/dev/mmcblk0p1" := by decide
  rw [show "/dev/" ++ "mmcblk0" = "/dev/mmcblk0" by decide, hderived, hkernel] at hnamed
  exact absurd hnamed (by decide)

end ArchInstaller
