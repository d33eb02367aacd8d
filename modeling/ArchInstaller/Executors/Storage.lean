import ArchInstaller.Executors.Base

/-! # The storage step

`executors/storage.py`: disk wipe, partitions, LUKS, btrfs subvolumes, EFI partition and
swapfile. With a USB boot drive the whole disk is the encrypted device, without a partition
table, and the LUKS header goes on the drive. -/

namespace ArchInstaller.StorageStepExecutor

open Interaction.Program (forEach ofExcept onlyIf)
open PyText Script

variable (config : InstallerConfig)

/-- The wipe method in effect: migration copied the old data to staging already and needs a new
LUKS volume, so its disk is always wiped. Ciphertext without a header only hides in random data,
so a USB boot drive needs the random fill. -/
def wipeMethod : WipeMethod :=
  if !config.migration.enabled then config.storage.wipeMethod
  else if config.usbBoot.enabled then .secure else .quick

def cleanupStaleMounts : Script Unit := do
  tryRun_ (.umountRecursive targetRoot)
  tryRun_ .swapoffAll
  tryRun_ (.cryptsetupClose cryptrootMapperName)
  -- leftover mapping from an interrupted secure wipe
  tryRun_ (.cryptsetupClose "container")
  tryRun_ .dmsetupRemoveAll

/-- `--header` of the commands that read the volume. -/
def detachedHeader : Option String :=
  if config.usbBoot.enabled then some config.usbBoot.luksHeaderPartition else none

def partitionsExist : Script Bool := do
  if ← probe (.lsblk config.efiPartition) then probe (.lsblk config.encryptedDevice)
  else return false

def luksIsUsable : Script Bool := do
  if ← probe (.cryptsetupIsLuks config.luksHeaderDevice) then
    let unlocks := (← tryRunWithInput
      (.cryptsetupTestPassphrase (detachedHeader config) config.encryptedDevice)
      config.credentials.luksPassword).success
    onlyIf (!unlocks) (info "LUKS password doesn't match, the volume needs re-creation")
    return unlocks
  else
    info s!"No valid LUKS header on {config.luksHeaderDevice}"
    return false

/-- The branch of `_wipe_disk` for the method `secure`. -/
def fillWithRandomData (disk : String) : Script Unit := do
  info "Filling disk with random data (this will take some time)..."
  let shredded ← probe (.shred disk)
  onlyIf (!shredded) do
    info "shred failed, falling back to dd..."
    tryRun_ (.ddRandom disk)
  run_ .sync
  tryRun_ (.blockdevFlush disk)

/-- The branch of `_wipe_disk` for the method `discard`. -/
def discardBlocks (disk : String) : Script Unit := do
  info "Discarding blocks (blkdiscard)..."
  tryRun_ (.blkdiscard disk)

/-- The partition table goes first: erasing it writes zeros, which the random fill then covers. -/
def eraseTable (disk : String) : Script Unit := do
  tryRun_ (.wipefs disk)
  tryRun_ (.sgdiskZap disk)
  tryRun_ (.wipefs disk)

def wipeDisk (method : WipeMethod) : Script Unit := do
  let disk := config.storage.targetDisk
  info s!"Wiping {disk} using method: {method.value}..."
  eraseTable disk
  onlyIf (method == .secure) (fillWithRandomData disk)
  onlyIf (method == .discard) (discardBlocks disk)
  -- make the kernel forget everything it cached about the old layout
  tryRun_ (.blockdevReread disk)
  tryRun_ .udevadmSettle
  tryRun_ (.partprobe disk)

def loopDeviceSize (disk : String) : Script String := do
  return strip (← query (.blockdevSize disk))

def prepareLoopDevice (disk : String) : Script Unit := do
  let size ← loopDeviceSize disk
  if size == "" || size == "0" then
    tryRun_ (.losetupCapacity disk)
    let size ← loopDeviceSize disk
    if size == "" || size == "0" then
      raise (.runtime s!"Loop device {disk} has 0 size. Cannot partition.")
    else info s!"Loop device size: {size} bytes"
  else info s!"Loop device size: {size} bytes"

/-- The body of the loop in `_create_loop_partition_nodes`, for one line of the listing. -/
def createLoopPartitionNode (line : String) : Script Unit := do
  match fields line with
  | name :: majorMinor :: kind :: _ =>
    onlyIf (kind == "part") do
      let deviceNode := s!"/dev/{name}"
      let found ← pathExists deviceNode
      onlyIf (!found) do
        let (major, minor) ← ofExcept (unpackPair (split ":" majorMinor))
        info s!"Creating device node {deviceNode} ({majorMinor})"
        run_ (.mknod deviceNode major minor)
  | _ => return ()

def createLoopPartitionNodes (disk : String) : Script Unit := do
  let listing := (← run (.lsblkNodes disk)).stdout
  forEach (split "\n" (strip listing)) createLoopPartitionNode

def waitForPartitions : Script Unit :=
  waitForNode config.storage.targetDisk config.encryptedDevice
    (.runtime s!"Partition {config.encryptedDevice} failed to appear") 20

def createPartitions : Script Unit := do
  let disk := config.storage.targetDisk
  info s!"Creating partitions on {disk}..."
  onlyIf (contains "loop" disk) (prepareLoopDevice disk)
  run_ (.sgdiskZap disk)
  run_ (.sgdiskNew 1 (.mebibytes config.storage.efiSizeMb) "ef00" disk)
  run_ (.sgdiskNew 2 .rest "8304" disk)
  tryRun_ (.partprobe disk)
  tryRun_ (.blockdevReread disk)
  onlyIf (contains "loop" disk) (createLoopPartitionNodes disk)
  waitForPartitions config

/-- The branch of `execute` without a USB boot drive and with the method `skip`. -/
def keepOrRecreatePartitions : Script Unit := do
  if ← partitionsExist config then
    if ← luksIsUsable config then
      info "Partitions already exist."
    else
      info "Partitions exist but LUKS is unusable, re-partitioning..."
      wipeDisk config .quick
      createPartitions config
  else createPartitions config

/-- What `execute` does to the disk before the LUKS volume. -/
def prepareDisk : Script Unit :=
  if config.usbBoot.enabled then
    -- the whole disk is the encrypted device, so there is nothing to partition
    onlyIf (wipeMethod config != .skip) (wipeDisk config (wipeMethod config))
  else if wipeMethod config != .skip then do
    wipeDisk config (wipeMethod config)
    createPartitions config
  else keepOrRecreatePartitions config

/-- The devices that `cryptsetup status` names as backing an open volume. -/
def backingDevices (status : String) : List String :=
  ((splitlines status).filter (contains "device:")).map fun line => (fields line).getLastD ""

def formatLuks : Script Unit := do
  let _ ← runWithInput
    (.cryptsetupLuksFormat config.storage.luks (detachedHeader config) config.encryptedDevice)
    config.credentials.luksPassword

def openLuks : Script Unit := do
  let _ ← runWithInput
    (.cryptsetupOpen (detachedHeader config) config.encryptedDevice cryptrootMapperName)
    config.credentials.luksPassword
  tryRun_ .udevadmSettle

def setupLuks : Script Unit := do
  let status ← tryRun (.cryptsetupStatus cryptrootMapperName)
  if status.success && contains "active" (lower status.stdout) then
    -- the whole device name is compared: /dev/vda is a prefix of /dev/vda2
    if (backingDevices status.stdout).contains config.encryptedDevice then
      info s!"LUKS volume already open on {config.encryptedDevice}"
    else raise (.runtime s!"{cryptrootMapperName} is open but points to the wrong device")
  else
    let isLuks ← probe (.cryptsetupIsLuks config.luksHeaderDevice)
    onlyIf (!isLuks) do
      info "Formatting LUKS volume..."
      formatLuks config
    openLuks config

/-- The names in `btrfs subvolume list`, whose lines look like
`ID 256 gen 7 top level 5 path @home`. -/
def listedSubvolumes (listing : String) : List String :=
  ((split "\n" (strip listing)).filter (contains " path ")).map fun line =>
    strip ((split " path " line).getLastD "")

def createSubvolume (existing : List String) (subvolume : SubvolumeConfig) : Script Unit :=
  if existing.contains subvolume.name then info s!"Subvolume {subvolume.name} exists."
  else do
    info s!"Creating subvolume {subvolume.name}..."
    run_ (.subvolumeCreate targetRoot subvolume.name)

def createSubvolumes : Script Unit := do
  let listing ← query (.subvolumeList targetRoot)
  forEach config.storage.btrfs.subvolumes (createSubvolume (listedSubvolumes listing))

/-- The first half of `_setup_btrfs`: a btrfs on the open volume. -/
def ensureBtrfs : Script Unit := do
  let cryptroot := config.storage.cryptrootDevice
  let label := config.storage.btrfs.label
  tryRun_ .udevadmSettle
  if contains "TYPE=\"btrfs\"" (← query (.blkid cryptroot)) then
    info "BTRFS filesystem detected."
  else
    info s!"Formatting BTRFS with label '{label}'..."
    tryRun_ (.wipefs cryptroot)
    run_ .sync
    run_ (.mkfsBtrfs label cryptroot)

def setupBtrfs : Script Unit := do
  ensureBtrfs config
  let mounted ← isMountpoint targetRoot
  onlyIf (!mounted) (run_ (.mountBtrfs config.storage.cryptrootDevice targetRoot))
  createSubvolumes config
  run_ (.umount targetRoot)

/-- The body of the loop in `_mount_filesystems`. -/
def mountSubvolume (subvolume : SubvolumeConfig) : Script Unit :=
  onlyIf (subvolume.name != "@") do
    let mountpoint := s!"{targetRoot}{subvolume.mountpoint}"
    tryRun_ (.mkdir mountpoint)
    run_ (.mountSubvolume subvolume.name config.storage.btrfs.mountOptions
      config.storage.cryptrootDevice mountpoint)
    onlyIf subvolume.nocow (tryRun_ (.chattrNocow mountpoint))

def mountEfiPartition : Script Unit := do
  let efiPartition := config.efiPartition
  let formatted := contains "TYPE=\"vfat\"" (← query (.blkid efiPartition))
  onlyIf (!formatted) do
    info "Formatting EFI partition..."
    run_ (.mkfsVfat efiPartition)
  run_ (.mkdir targetEfi)
  run_ (.mountVfat efiPartition targetEfi)

def mountFilesystems : Script Unit := do
  run_ (.mountSubvolume "@" config.storage.btrfs.mountOptions config.storage.cryptrootDevice
    targetRoot)
  forEach config.storage.btrfs.subvolumes (mountSubvolume config)
  mountEfiPartition config

def createSwapfile : Script Unit := do
  let swap := config.storage.swap
  let swapPath := s!"{targetRoot}{swap.path}"
  if ← fileExists swapPath then
    info "Swapfile already exists."
    tryRun_ (.swapon swapPath)
  else
    info s!"Creating {swap.sizeMb}MB swapfile..."
    -- a swapfile on btrfs must be NOCOW and uncompressed before any data is written
    run_ (.truncate swapPath)
    tryRun_ (.chattrNocow swapPath)
    tryRun_ (.disableCompression swapPath)
    let allocated ← probe (.fallocate swap.sizeMb swapPath)
    onlyIf (!allocated) (run_ (.ddZero swapPath swap.sizeMb))
    run_ (.chmod "600" swapPath)
    run_ (.mkswap swapPath)
    run_ (.swapon swapPath)

/-- What `execute` does when the target is mounted already. -/
def keepExistingStorage : Script Unit := do
  let source := strip (← query (.findmntSource targetRoot))
  info s!"{targetRoot} is already mounted from {source}, keeping the existing storage"
  let efiMounted ← isMountpoint targetEfi
  onlyIf (!efiMounted)
    (warning s!"{targetEfi} is not mounted. Please ensure it is mounted.")

/-- What `execute` does when the target is not mounted. -/
def convergeStorage : Script Unit := do
  let storage := config.storage
  info s!"Converging storage on {storage.targetDisk}..."
  cleanupStaleMounts
  prepareDisk config
  setupLuks config
  setupBtrfs config
  mountFilesystems config
  onlyIf (storage.swap.enabled && decide (storage.swap.sizeMb > 0)) (createSwapfile config)
  info "Storage provisioning complete."

def execute : Script Unit := do
  if ← isMountpoint targetRoot then keepExistingStorage
  else convergeStorage config

end ArchInstaller.StorageStepExecutor
