import ArchInstaller.Executors.Base

/-! # The USB boot drive

`executors/usb_boot.py`: preparing the drive, the safeguards on the installed system, and cloning
a spare. -/

namespace ArchInstaller

open Interaction.Program (forEach onlyIf tryFinally)
open PyText Script

def mebibyte : Int := 1024 * 1024

/-- A LUKS2 header with its default keyslot area takes 16 MiB. -/
def luksHeaderPartitionSizeMb : Int := 32

/-- GPT structures and partition alignment at both ends of the drive. -/
def partitionTableSizeMb : Int := 2

def recoveryMount : String := "/run/dali/usb-recovery"

def archisoDirectory : String := "arch"

def archisoKernel : String := "arch/boot/x86_64/vmlinuz-linux"

def archisoInitramfs : String := "arch/boot/x86_64/initramfs-linux.img"

def archisoRootImage : String := "arch/x86_64/airootfs.sfs"

def archisoVersionFile : String := "arch/version"

/-! The ISO 9660 primary volume descriptor: its signature, and the image size as a block count
and a block size. -/

def iso9660Signature : String := "CD001"

def iso9660SignatureOffset : Nat := 32769

def iso9660BlockCountOffset : Nat := 32848

def iso9660BlockSizeOffset : Nat := 32896

/-- `int(text)`. -/
def parseNumber (text : String) : Script Int :=
  match parseInt text with
  | some number => return number
  | none => raise (.value s!"invalid literal for int() with base 10: {PyText.repr text}")

/-- The source divides in floating point, which is exact for sizes below 2 ^ 53. -/
def recoveryPartitionSizeMb (isoSizeBytes : Int) : Int :=
  let isoSizeMb := -(-isoSizeBytes / mebibyte)
  isoSizeMb + isoSizeMb / 10 + 64

namespace UsbDriveInspector

def requireDisk (device : String) : Script Unit := do
  let result ← tryRun (.lsblkType device)
  if !result.success || strip result.stdout != "disk" then
    raise (.usbBootDrive s!"{device} is not a disk")
  else
    let removable ← tryRun (.cat s!"/sys/block/{afterLastSlash device}/removable")
    -- virtio disks in a VM report non-removable, so this is a warning not a failure
    onlyIf (removable.success && strip removable.stdout == "0")
      (warning s!"{device} reports as non-removable, make sure it is the USB drive")

def sizeBytes (device : String) : Script Int := do
  parseNumber (strip (← run (.blockdevSize device)).stdout)

def waitForPartition (device partition : String) : Script Unit :=
  waitForNode device partition (.usbBootDrive s!"{partition} did not appear on {device}") 15

def holdsLuksHeader (partition : String) : Script Bool := probe (.cryptsetupIsLuks partition)

end UsbDriveInspector

/-- A file, or a block device holding the image such as the live medium. -/
structure ArchIsoImage where
  source : String

namespace ArchIsoImage

variable (image : ArchIsoImage)

def read (offset length : Nat) (formatCommand : String) : Script String := do
  return strip (← run (.ddRead image.source offset length formatCommand)).stdout

def readText (offset length : Nat) : Script String := image.read offset length "cat"

def readNumber (offset length : Nat) : Script Int := do
  parseNumber (← image.read offset length s!"od -An -tu{length}")

def sizeBytes : Script Int := do
  let signature ← image.readText iso9660SignatureOffset iso9660Signature.length
  if signature != iso9660Signature then
    raise (.usbBootDrive s!"{image.source} is not an ISO 9660 image")
  else
    let listed ← probe
      (.bsdtarList image.source s!"{archisoKernel} {archisoInitramfs} {archisoRootImage}")
    if !listed then
      raise (.usbBootDrive (s!"{image.source} is not an Arch Linux ISO " ++
        s!"({archisoKernel}, {archisoInitramfs}, {archisoRootImage})"))
    else
      let blockCount ← image.readNumber iso9660BlockCountOffset 4
      let blockSize ← image.readNumber iso9660BlockSizeOffset 2
      return blockCount * blockSize

def extractLiveSystem (directory : String) : Script Unit := do
  run_ (.bsdtarExtract image.source directory archisoDirectory)
  run_ (.syncFilesystem directory)

end ArchIsoImage

namespace UsbBootDriveStepExecutor

variable (config : InstallerConfig)

/-- A resumed installation keeps the storage it finds, and that storage can only be unlocked with
the header already on the drive. -/
def keepsExistingDrive : Script Bool := do
  let resuming ← do
    if ← isMountpoint targetRoot then pure true
    else pure (config.storage.wipeMethod == .skip && !config.migration.enabled)
  let headerPartition := config.usbBoot.luksHeaderPartition
  if resuming then
    let holdsHeader ← UsbDriveInspector.holdsLuksHeader headerPartition
    onlyIf holdsHeader
      (info s!"Keeping the USB boot drive, {headerPartition} holds the LUKS header")
    return holdsHeader
  else return false

def requireCapacity (recoverySizeMb : Int) : Script Unit := do
  let device := config.usbBoot.device
  let neededMb := partitionTableSizeMb + config.storage.efiSizeMb + luksHeaderPartitionSizeMb +
    recoverySizeMb
  let availableMb := (← UsbDriveInspector.sizeBytes device) / mebibyte
  onlyIf (decide (neededMb > availableMb))
    (raise (.usbBootDrive
      s!"{device} holds {availableMb} MiB, the USB boot drive needs {neededMb} MiB"))

/-- A previous attempt may still use the drive: the open volume holds its header. -/
def releaseDrive : Script Unit := do
  let usbBoot := config.usbBoot
  tryRun_ (.umountRecursive targetRoot)
  tryRun_ (.umount recoveryMount)
  tryRun_ .swapoffAll
  tryRun_ (.cryptsetupClose cryptrootMapperName)
  tryRun_ (.umount usbBoot.efiPartition)
  tryRun_ (.umount usbBoot.recoveryPartition)

def partition (recoverySizeMb : Int) : Script Unit := do
  let usbBoot := config.usbBoot
  let device := usbBoot.device
  tryRun_ (.wipefs device)
  run_ (.sgdiskZap device)
  run_ (.sgdiskNew 1 (.mebibytes config.storage.efiSizeMb) "ef00" device)
  run_ (.sgdiskNew 2 (.mebibytes luksHeaderPartitionSizeMb) "8300" device)
  onlyIf (recoverySizeMb != 0) (run_ (.sgdiskNew 3 (.mebibytes recoverySizeMb) "8300" device))
  let lastPartition :=
    if recoverySizeMb != 0 then usbBoot.recoveryPartition else usbBoot.luksHeaderPartition
  tryRun_ (.partprobe device)
  tryRun_ .udevadmSettle
  UsbDriveInspector.waitForPartition device lastPartition
  -- an old header must not linger until the storage step formats a new one
  tryRun_ (.wipefs usbBoot.luksHeaderPartition)

def storeRecoverySystem (recoveryIso : ArchIsoImage) : Script Unit := do
  let recoveryPartition := config.usbBoot.recoveryPartition
  info s!"Copying the live system of {recoveryIso.source} to the recovery partition..."
  run_ (.mkfsExt4 recoveryPartition)
  run_ (.mkdir recoveryMount)
  run_ (.mountExt4 recoveryPartition recoveryMount)
  tryFinally (recoveryIso.extractLiveSystem recoveryMount) (tryRun_ (.umount recoveryMount))

/-- What `execute` does with a drive it does not keep. -/
def prepareDrive : Script Unit := do
  let usbBoot := config.usbBoot
  let recoveryIso : ArchIsoImage := ⟨usbBoot.isoPath⟩
  let isoSizeBytes ← if usbBoot.recoverySystem then recoveryIso.sizeBytes else pure 0
  let recoverySizeMb := if isoSizeBytes != 0 then recoveryPartitionSizeMb isoSizeBytes else 0
  requireCapacity config recoverySizeMb
  info s!"Preparing the USB boot drive {usbBoot.device}..."
  releaseDrive config
  partition config recoverySizeMb
  run_ (.mkfsVfat usbBoot.efiPartition)
  onlyIf usbBoot.recoverySystem (storeRecoverySystem config recoveryIso)

/-- The checks of `execute` before it looks at the drive's contents. -/
def requireDevices : Script Unit := do
  let device := config.usbBoot.device
  let targetDisk := config.storage.targetDisk
  if device == targetDisk then
    raise (.usbBootDrive s!"{device} is the target disk, not a USB drive")
  else
    UsbDriveInspector.requireDisk device
    let stablePath ← stableDiskPath targetDisk
    onlyIf (stablePath == "")
      (raise (.usbBootDrive (s!"{targetDisk} has no /dev/disk/by-id name. Without a partition " ++
        "table the boot finds the disk only by that name")))

def execute : Script Unit := do
  requireDevices config
  let keeps ← keepsExistingDrive config
  onlyIf (!keeps) (prepareDrive config)

end UsbBootDriveStepExecutor

/-! ## The safeguards on the installed system -/

def usbBootSettingsFile : String := "/etc/default/usb-boot-drive"

def usbBootGuardScript : String := "/usr/local/bin/check-usb-boot-drive"

def usbBootGuardHook : String := "/etc/pacman.d/hooks/00-usb-boot-drive.hook"

def snapshotCatchUpService : String := "snapshot-ukis-catch-up.service"

def snapshotCatchUpRule : String := "/etc/udev/rules.d/90-usb-boot-drive.rules"

/-- `manage-snapshot-ukis` leaves this marker when the drive was away during a refresh. -/
def snapshotRefreshPendingMarker : String := "/var/lib/manage-snapshot-ukis/refresh-pending"

def snapshotManager : String := "/usr/local/bin/manage-snapshot-ukis"

/-- Mounted on access and unmounted when idle, so the drive can be pulled at any time. -/
def removableEfiMountOptions : String :=
  "umask=0077,noauto,nofail,x-systemd.automount," ++
    "x-systemd.idle-timeout=60s,x-systemd.device-timeout=5s"

/-- Every one of these rewrites a file on the drive's EFI partition. -/
def bootFileTargets : List String :=
  ["boot/*", "efi/*", "usr/lib/initcpio/*", "usr/lib/firmware/*", "usr/lib/modules/*/vmlinuz",
    "usr/lib/modules/*/extramodules/*", "usr/lib/modprobe.d/", "usr/src/*/dkms.conf",
    "usr/lib/systemd/systemd", "usr/lib/systemd/systemd-udevd", "usr/lib/**/efi/*.efi*",
    "usr/share/**/*.efi*", "usr/bin/cryptsetup", "usr/bin/lvm", "usr/bin/mdadm",
    "usr/bin/pdata_tools", "usr/lib/libcryptsetup.so", "usr/lib/libp11-kit.so",
    "usr/lib/libpcsclite.so"]

def removableEfiFstab (fstab efiPartitionUuid : String) : String :=
  let entry := s!"PARTUUID={efiPartitionUuid}\t/efi\tvfat\t{removableEfiMountOptions}\t0 2"
  let keptLines := (splitlines fstab).filter fun line => ((fields line).drop 1).take 1 != ["/efi"]
  join "\n" (keptLines ++ [entry]) ++ "\n"

def usbBootSettings (efiPartitionUuid : String) : String :=
  unlines
    ["# the USB boot drive this system starts from, written by the DALI installer",
      s!"EFI_PARTITION_UUID={efiPartitionUuid}"]

def usbBootGuardScriptContent : String :=
  unlines
    ["#!/usr/bin/env bash",
      "# run by pacman before a transaction that rewrites boot files: they live on the USB boot",
      "# drive, and a kernel update without it would leave the drive's UKIs behind the modules",
      "set -uo pipefail",
      "",
      s!". {usbBootSettingsFile}",
      "",
      "# listing /efi mounts the drive (automount) when it is plugged in",
      "ls /efi >/dev/null 2>&1",
      "mounted_uuid=$(findmnt -n -t vfat -o PARTUUID --mountpoint /efi 2>/dev/null)",
      "if [ \"$mounted_uuid\" != \"$EFI_PARTITION_UUID\" ]; then",
      "    echo \"The USB boot drive is not plugged in. This transaction rewrites boot files on\" >&2",
      "    echo \"its EFI partition (PARTUUID $EFI_PARTITION_UUID): plug it in and run it again.\" >&2",
      "    exit 1",
      "fi"]

def usbBootGuardHookContent : String :=
  unlines
    (["# refuses transactions that rewrite boot files while the USB boot drive is unplugged",
      "# sorts before every other hook, so nothing (snap-pac included) runs before the check",
      "",
      "[Trigger]",
      "Type = Path",
      "Operation = Install",
      "Operation = Upgrade",
      "Operation = Remove"] ++
    bootFileTargets.map (fun target => s!"Target = {target}") ++
    ["",
      "[Trigger]",
      "Type = Package",
      "Operation = Install",
      "Operation = Upgrade",
      "Target = mkinitcpio",
      "",
      "[Action]",
      "Description = Checking that the USB boot drive is plugged in...",
      "When = PreTransaction",
      s!"Exec = {usbBootGuardScript}",
      "AbortOnFail"])

def snapshotCatchUpRuleContent (efiPartitionUuid : String) : String :=
  unlines
    ["# builds the snapshot UKIs skipped while the USB boot drive was unplugged",
      "ACTION==\"add\", SUBSYSTEM==\"block\", ENV\x7bID_PART_ENTRY_UUID\x7d==\"" ++
        efiPartitionUuid ++ "\", TAG+=\"systemd\", ENV\x7bSYSTEMD_WANTS\x7d+=\"" ++
        snapshotCatchUpService ++ "\""]

def snapshotCatchUpServiceContent : String :=
  unlines
    ["[Unit]",
      "Description=Build the snapshot UKIs skipped while the USB boot drive was unplugged",
      s!"ConditionPathExists={snapshotRefreshPendingMarker}",
      "",
      "[Service]",
      "Type=oneshot",
      s!"ExecStart={snapshotManager} refresh"]

namespace UsbBootSafeguardsStepExecutor

variable (config : InstallerConfig)

def mountEfiOnDemand (efiPartitionUuid : String) : Script Unit := do
  let fstabPath := s!"{targetRoot}/etc/fstab"
  let fstab := (← run (.cat fstabPath)).stdout
  writeFile fstabPath (removableEfiFstab fstab efiPartitionUuid)

def installUpdateGuard (efiPartitionUuid : String) : Script Unit := do
  writeFile s!"{targetRoot}{usbBootSettingsFile}" (usbBootSettings efiPartitionUuid)
  let guardScript := s!"{targetRoot}{usbBootGuardScript}"
  run_ (.mkdir s!"{targetRoot}/etc/pacman.d/hooks {targetRoot}/usr/local/bin")
  writeFile guardScript usbBootGuardScriptContent
  run_ (.chmod "755" guardScript)
  writeFile s!"{targetRoot}{usbBootGuardHook}" usbBootGuardHookContent

def installSnapshotCatchUp (efiPartitionUuid : String) : Script Unit := do
  run_ (.mkdir s!"{targetRoot}/etc/udev/rules.d")
  writeFile s!"{targetRoot}{snapshotCatchUpRule}" (snapshotCatchUpRuleContent efiPartitionUuid)
  writeFile s!"{targetRoot}/etc/systemd/system/{snapshotCatchUpService}"
    snapshotCatchUpServiceContent

def execute : Script Unit := do
  let efiPartitionUuid ← partitionUuid config.usbBoot.efiPartition
  info "Installing the USB boot drive safeguards..."
  mountEfiOnDemand efiPartitionUuid
  installUpdateGuard efiPartitionUuid
  onlyIf config.boot.enableSnapshotBoot (installSnapshotCatchUp efiPartitionUuid)

end UsbBootSafeguardsStepExecutor

/-! ## Cloning a spare -/

namespace UsbBootDriveCloner

/-- `[partition for partition in partitions if path_exists(runner, partition)]`. -/
def existing : List String → Script (List String)
  | [] => return []
  | partition :: partitions => do
    let found ← pathExists partition
    let others ← existing partitions
    return if found then partition :: others else others

/-- The EFI and header partitions, then the recovery partition when there is one. -/
def existingPartitions (device : String) : Script (List String) :=
  existing ([1, 2, 3].map (derivePartitionPath device))

/-- The checks of `clone` after the comparison of the names: they return the partitions to copy. -/
def requireClonable (sourceDevice spareDevice : String) : Script (List String) := do
  UsbDriveInspector.requireDisk sourceDevice
  UsbDriveInspector.requireDisk spareDevice
  let sourcePartitions ← existingPartitions sourceDevice
  let holdsHeader ← if sourcePartitions.length < 2 then pure false
    else UsbDriveInspector.holdsLuksHeader (sourcePartitions.getD 1 "")
  if !holdsHeader then
    raise (.usbBootDrive s!"{sourceDevice} is not a USB boot drive (no LUKS header)")
  else
    let mountpoints := (← run (.lsblkMountpoints spareDevice)).stdout
    if strip mountpoints != "" then
      raise (.usbBootDrive s!"{spareDevice} has mounted partitions")
    else return sourcePartitions

/-- The body of the loop over the pairs of partitions. -/
def copyPartition (spareDevice sourcePartition sparePartition : String) : Script Unit := do
  UsbDriveInspector.waitForPartition spareDevice sparePartition
  run_ (.ddCopy sourcePartition sparePartition)

def copyDrive (sourceDevice spareDevice : String) (sourcePartitions : List String) :
    Script Unit := do
  info s!"Cloning {sourceDevice} to {spareDevice}..."
  tryRun_ (.wipefs spareDevice)
  -- copies the partition table with its partition UUIDs, which the system boots by
  run_ (.sgdiskReplicate sourceDevice spareDevice)
  tryRun_ (.sgdiskMoveEnd spareDevice)
  tryRun_ (.partprobe spareDevice)
  tryRun_ .udevadmSettle
  let sparePartitions := (List.range sourcePartitions.length).map fun i =>
    derivePartitionPath spareDevice (i + 1)
  forEach (sourcePartitions.zip sparePartitions) fun (source, spare) =>
    copyPartition spareDevice source spare
  run_ (.cmp (sourcePartitions.getD 1 "") (sparePartitions.getD 1 ""))
  info (s!"{spareDevice} is a spare USB boot drive. Keep it apart from the original: both carry " ++
    "the same partition UUIDs")

def clone (sourceDevice spareDevice : String) : Script Unit :=
  if sourceDevice == spareDevice then
    raise (.usbBootDrive "The spare drive must be another drive than the USB boot drive")
  else do
    let sourcePartitions ← requireClonable sourceDevice spareDevice
    copyDrive sourceDevice spareDevice sourcePartitions

end UsbBootDriveCloner

end ArchInstaller
