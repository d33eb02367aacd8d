import ArchInstaller.Executors.Base

/-! # The migration steps

`executors/migration.py`: staging copies the data of an existing encrypted btrfs install before
the storage step wipes the disk; restoring copies it into the new system after the packages
step. -/

namespace ArchInstaller

open Interaction.Program (forEach onlyIf tryFinally)
open PyText Script

def stagingDirectory : String := "/tmp/migration-staging"

def oldMountDirectory : String := "/tmp/old-system"

def oldMapperName : String := "oldcryptroot"

/-- Room left free in the staging file system on top of the data itself. -/
def stagingHeadroomMb : Nat := 256

/-- The old system's `/` lives in the `@` subvolume of the btrfs top level. -/
def pathInOldRoot (path : String) : String := s!"{oldMountDirectory}/@/{lstripSlash path}"

structure ExistingInstallInfo where
  disk : String
  rootPartition : String
  homeSubvolume : String
  homeSizeMb : Nat
  secureBootDirectory : String

namespace MigrationStagingStepExecutor

variable (config : InstallerConfig)

/-- The partitions of a disk, in the order of `lsblk -ln -o NAME`. -/
def listedPartitions (disk listing : String) : List String :=
  (((split "\n" listing).map strip).filter fun name => name != "" && name != pathName disk).map
    fun name => s!"/dev/{name}"

/-- The loop of `_find_luks_partition`. -/
def firstLuksPartition (disk : String) : List String → Script String
  | [] => raise (.migration s!"No LUKS partition found on {disk}, nothing to migrate")
  | partition :: partitions => do
    if ← probe (.cryptsetupIsLuks partition) then return partition
    else firstLuksPartition disk partitions

def findLuksPartition (disk : String) : Script String := do
  let listing ← query (.lsblkNames disk)
  firstLuksPartition disk (listedPartitions disk listing)

def mountOldSystem : Script Unit := do
  -- subvolid=5 is the btrfs top level, where every subvolume is visible
  run_ (.mkdir oldMountDirectory)
  let mounted ← tryRun (.mountTopLevel s!"/dev/mapper/{oldMapperName}" oldMountDirectory)
  onlyIf (!mounted.success) do
    tryRun_ (.cryptsetupClose oldMapperName)
    raise (.migration s!"Could not mount the existing system: {strip mounted.stderr}")

def openAndMount (partition : String) : Script Unit := do
  let unlocked ← tryRunWithInput (.cryptsetupOpen none partition oldMapperName)
    config.credentials.sourceLuksPassword
  if unlocked.success then mountOldSystem
  else
    raise (.migration
      s!"Could not unlock {partition} with the old LUKS password: {strip unlocked.stderr}")

def unmountAndClose : Script Unit := do
  tryRun_ (.umount oldMountDirectory)
  tryRun_ (.cryptsetupClose oldMapperName)
  tryRun_ (.rmdir oldMountDirectory)

def sizeMb (path : String) : Script Nat := do
  let duOutput := fields (← query (.diskUsage path))
  let size := duOutput.headD ""
  return if isDigits size then digitsValue size.toList else 0

def findSecureBootDirectory : Script String := do
  let candidate := pathInOldRoot sbctlDirectory
  if ← directoryExists s!"{candidate}/keys" then return candidate
  else
    let legacy := pathInOldRoot sbctlLegacyDirectory
    if ← directoryExists s!"{legacy}/keys" then return legacy
    else return ""

/-- The subvolume that holds the old home directories, or `""`. -/
def homeSubvolumeOf (subvolumes : String) : String :=
  if contains "@home" subvolumes then "@home" else ""

def inspectMountedSystem (disk rootPartition : String) : Script ExistingInstallInfo := do
  let homeSubvolume := homeSubvolumeOf (← query (.subvolumeList oldMountDirectory))
  let homeSizeMb ← if homeSubvolume != "" then sizeMb s!"{oldMountDirectory}/{homeSubvolume}"
    else pure 0
  let secureBootDirectory ← findSecureBootDirectory
  return { disk, rootPartition, homeSubvolume, homeSizeMb, secureBootDirectory }

/-- The sizes of the additional paths, added up. -/
def additionalSizeMb : List String → Script Nat
  | [] => return 0
  | path :: paths => do
    let size ← sizeMb (pathInOldRoot path)
    return size + (← additionalSizeMb paths)

def ensureStagingSpace (existing : ExistingInstallInfo) : Script Unit := do
  let migration := config.migration
  let homeMb := if migration.preserveHome then existing.homeSizeMb else 0
  let requiredMb := stagingHeadroomMb + homeMb + (← additionalSizeMb migration.additionalPaths)
  let stagingParent := pathParent stagingDirectory
  let dfOutput ← query (.diskFree stagingParent)
  let availableField := strip ((split "\n" (strip dfOutput)).getLastD "")
  let availableMb := if isDigits availableField then digitsValue availableField.toList else 0
  info s!"Staging needs ~{requiredMb}MB, {stagingParent} has {availableMb}MB free"
  onlyIf (decide (availableMb < requiredMb))
    (raise (.migration (s!"Not enough space to stage the migration in {stagingParent}: " ++
      s!"need ~{requiredMb}MB, {availableMb}MB available")))

def copyIntoStaging (sourceDirectory stagingName : String) : Script Unit := do
  info s!"Staging {sourceDirectory}..."
  run_ (.mkdir s!"{stagingDirectory}/{stagingName}")
  run_ (.cpArchive s!"{sourceDirectory}/." s!"{stagingDirectory}/{stagingName}/")

/-- The body of the loop over the additional paths. -/
def stageAdditionalPath (path : String) : Script Unit := do
  let source := pathInOldRoot path
  let found ← pathExists source
  onlyIf found do
    let destination := s!"{stagingDirectory}/additional/{lstripSlash path}"
    run_ (.mkdir (pathParent destination))
    run_ (.cpArchive source destination)

def copyToStaging (existing : ExistingInstallInfo) : Script Unit := do
  let migration := config.migration
  run_ (.rmRecursive stagingDirectory)
  run_ (.mkdir stagingDirectory)
  onlyIf (migration.preserveHome && existing.homeSubvolume != "")
    (copyIntoStaging s!"{oldMountDirectory}/{existing.homeSubvolume}" "home")
  onlyIf (migration.preserveSecureBootKeys && existing.secureBootDirectory != "")
    (copyIntoStaging existing.secureBootDirectory "sbctl")
  forEach migration.additionalPaths stageAdditionalPath

/-- What `execute` does while the old system is mounted. -/
def stageMountedSystem (disk luksPartition : String) : Script Unit := do
  let existing ← inspectMountedSystem disk luksPartition
  let keys := if existing.secureBootDirectory == "" then "none" else existing.secureBootDirectory
  info (s!"Existing install on {existing.rootPartition}: home {existing.homeSizeMb}MB, " ++
    s!"secure boot keys: {keys}")
  ensureStagingSpace config existing
  copyToStaging config existing

def execute : Script Unit := do
  let disk := config.storage.targetDisk
  let luksPartition ← findLuksPartition disk
  openAndMount config luksPartition
  tryFinally (stageMountedSystem config disk luksPartition) unmountAndClose
  info "Migration staging complete"

end MigrationStagingStepExecutor

namespace MigrationRestoreStepExecutor

variable (config : InstallerConfig)

def stagedDestinations : List (String × String) :=
  [(s!"{stagingDirectory}/home", s!"{targetRoot}/home"),
    (s!"{stagingDirectory}/sbctl", s!"{targetRoot}{sbctlDirectory}"),
    (s!"{stagingDirectory}/additional", targetRoot)]

/-- The body of the loop over the staged directories. -/
def restoreDirectory (stagedDirectory destination : String) : Script Unit := do
  let staged ← directoryExists stagedDirectory
  onlyIf staged do
    info s!"Restoring {destination}..."
    run_ (.mkdir destination)
    run_ (.cpArchive s!"{stagedDirectory}/." s!"{destination}/")

def reportRestoredHome : Script Unit := do
  let homeListing ← query (.ls s!"{targetRoot}/home")
  onlyIf (strip homeListing == "") (warning "Restored home directory is empty")

def reportRestoredKeys : Script Unit := do
  let restored ← directoryExists s!"{targetRoot}{sbctlDirectory}/keys"
  onlyIf (!restored) (warning "Secure boot keys were not restored")

def reportRestoredData : Script Unit := do
  onlyIf config.migration.preserveHome reportRestoredHome
  onlyIf config.migration.preserveSecureBootKeys reportRestoredKeys

/-- What `execute` does when there is a staging directory. -/
def restoreStaging : Script Unit := do
  forEach stagedDestinations fun (stagedDirectory, destination) =>
    restoreDirectory stagedDirectory destination
  reportRestoredData config
  run_ (.rmRecursive stagingDirectory)

def execute : Script Unit := do
  if ← directoryExists stagingDirectory then restoreStaging config
  else info "No staging data to restore"

end MigrationRestoreStepExecutor

end ArchInstaller
