import ArchInstaller.Executors.Boot
import ArchInstaller.Executors.Migration
import ArchInstaller.Executors.Packages
import ArchInstaller.Executors.Snapper
import ArchInstaller.Executors.Storage

/-! # A whole installation

`install_steps/registry.py`, `installer.py`, `expected_state.py` and the checks of `cli.py`: the
enabled install steps in order, then the files the installed system keeps. -/

namespace ArchInstaller

open Interaction.Program (forEach onlyIf)
open PyText Script

inductive InstallStep where
  | migrationStaging
  | usbBootDrive
  | storage
  | pacmanMirrors
  | packages
  | migrationRestore
  | system
  | docker
  | gpuDriver
  | kernelImages
  | bootloader
  | recoverySystem
  | snapper
  | bootableSnapshots
  | snapshotNotifications
  | firewall
  | usbBootSafeguards
  deriving DecidableEq, Repr

namespace InstallStep

def value : InstallStep → String
  | migrationStaging => "Migration staging"
  | usbBootDrive => "USB boot drive"
  | storage => "Storage"
  | pacmanMirrors => "Pacman mirrors"
  | packages => "Packages"
  | migrationRestore => "Migration restore"
  | system => "System"
  | docker => "Docker"
  | gpuDriver => "GPU driver"
  | kernelImages => "Kernel images"
  | bootloader => "Bootloader"
  | recoverySystem => "Recovery system"
  | snapper => "Snapper"
  | bootableSnapshots => "Bootable snapshots"
  | snapshotNotifications => "Snapshot notifications"
  | firewall => "Firewall"
  | usbBootSafeguards => "USB boot safeguards"

variable (config : InstallerConfig)

/-- The condition under which the registry runs a step. -/
def enabled : InstallStep → Bool
  | migrationStaging | migrationRestore => config.migration.enabled
  | usbBootDrive | usbBootSafeguards => config.usbBoot.enabled
  | pacmanMirrors => config.system.mirrors.useReflector || !config.system.mirrors.mirrors.isEmpty
  | docker => config.docker.enabled
  | gpuDriver => config.gpu.usesProprietaryNvidiaDriver
  | recoverySystem => config.usbBoot.enabled && config.usbBoot.recoverySystem
  | snapper => config.snapper.enabled
  | bootableSnapshots => config.boot.enableSnapshotBoot
  | snapshotNotifications => config.notifications.enabled && config.snapper.enabled
  | firewall => config.firewall.enabled
  | storage | packages | system | kernelImages | bootloader => true

def execute : InstallStep → Script Unit
  | migrationStaging => MigrationStagingStepExecutor.execute config
  | usbBootDrive => UsbBootDriveStepExecutor.execute config
  | storage => StorageStepExecutor.execute config
  | pacmanMirrors => PacmanMirrorsStepExecutor.execute config
  | packages => PackagesStepExecutor.execute config
  | migrationRestore => MigrationRestoreStepExecutor.execute config
  | system => SystemStepExecutor.execute config
  | docker => DockerStepExecutor.execute config
  | gpuDriver => GpuDriverStepExecutor.execute config
  | kernelImages => KernelImagesStepExecutor.execute config
  | bootloader => BootloaderStepExecutor.execute config
  | recoverySystem => RecoverySystemStepExecutor.execute config
  | snapper => SnapperStepExecutor.execute config
  | bootableSnapshots => BootableSnapshotsStepExecutor.execute config
  | snapshotNotifications => SnapshotNotificationsStepExecutor.execute config
  | firewall => FirewallStepExecutor.execute config
  | usbBootSafeguards => UsbBootSafeguardsStepExecutor.execute config

end InstallStep

/-- The steps of the registry, in run order. The update guard of the last one never stands in the
way of the installation itself. -/
def installSteps : List InstallStep :=
  [.migrationStaging, .usbBootDrive, .storage, .pacmanMirrors, .packages, .migrationRestore,
    .system, .docker, .gpuDriver, .kernelImages, .bootloader, .recoverySystem, .snapper,
    .bootableSnapshots, .snapshotNotifications, .firewall, .usbBootSafeguards]

/-! ## The expected state -/

def expectedStatePath : String := "/etc/dali/expected-state.env"

/-- `str | bool`. -/
inductive ExpectedValue where
  | text (value : String)
  | truth (value : Bool)

/-- `_shell_word`. -/
def shellWord : ExpectedValue → String
  | .truth value => if value then "true" else "false"
  | .text value => shellQuote value

def expectedStateValues (config : InstallerConfig) : List (String × ExpectedValue) :=
  let system := config.system
  let storage := config.storage
  [("EXPECTED_HOSTNAME", .text system.hostname),
    ("EXPECTED_TIMEZONE", .text system.timezone),
    ("EXPECTED_LOCALE", .text system.locale.fullLocale),
    ("EXPECTED_KEYMAP", .text system.locale.keymap),
    ("EXPECTED_USER", .text system.user.name),
    ("EXPECTED_SWAP_ENABLED", .truth storage.swap.enabled),
    ("EXPECTED_SWAP_PATH", .text storage.swap.path),
    ("EXPECTED_KERNEL_PACKAGES", .text (join " " config.boot.kernelPackages)),
    ("EXPECTED_DISPLAY_MANAGERS", .text (join " " config.packages.displayManager)),
    ("EXPECTED_SNAPPER_ENABLED", .truth config.snapper.enabled),
    ("EXPECTED_FIREWALL_ENABLED", .truth config.firewall.enabled),
    ("EXPECTED_GPU_VENDOR", .text config.gpu.vendor.value),
    ("EXPECTED_GPU_DRIVER", .text config.gpu.driver.value),
    ("EXPECTED_USB_BOOT", .truth config.usbBoot.enabled),
    ("EXPECTED_RECOVERY_SYSTEM",
      .truth (config.usbBoot.enabled && config.usbBoot.recoverySystem))]

def expectedStateFile (config : InstallerConfig) : String :=
  let assignments := (expectedStateValues config).map fun (name, value) =>
    s!"{name}={shellWord value}"
  let header :=
    "# written by the DALI installer from the final configuration, read by verify-install"
  join "\n" (header :: assignments) ++ "\n"

/-! ## The installer -/

def bannerWidth : Nat := 80

/-- `text.center(BANNER_WIDTH).rstrip()`. -/
def centered (text : String) : String :=
  rstrip (String.ofList (List.replicate ((bannerWidth - text.length) / 2) ' ') ++ text)

def banner (title subtitle : String) : String :=
  let rule := String.ofList (List.replicate bannerWidth '=')
  let subtitleLines := if subtitle == "" then [] else [centered subtitle]
  join "\n" (["", rule, centered title] ++ subtitleLines ++ [rule])

def utilityScripts : List (String × String) :=
  [("scripts/verify_install.sh", "verify-install"),
    ("scripts/manage_snapshot_entries.sh", "manage-snapshot-ukis"),
    ("scripts/dotfiles-sync.sh", "dotfiles-sync")]

namespace Installer

variable (safeDump : PlainValue → String) (config : InstallerConfig)

def enabledSteps : List InstallStep := installSteps.filter (InstallStep.enabled config)

def logSummary : Script Unit := do
  let system := config.system
  info (s!"Host: {system.hostname}, user: {system.user.name}, " ++
    s!"disk: {config.storage.targetDisk}")
  let steps := join ", " ((enabledSteps config).map InstallStep.value)
  info s!"Steps: {steps}"

/-- The loop over the steps that are left, the first of which has number `index`. -/
def runSteps (count : Nat) : Nat → List InstallStep → Script Unit
  | _, [] => return ()
  | index, step :: steps => do
    info s!"[{index}/{count}] {step.value}"
    step.execute config
    runSteps count (index + 1) steps

/-- The body of the loop over the utility scripts. -/
def installUtilityScript (scriptsDirectory source name : String) : Script Unit := do
  let found ← fileExists source
  onlyIf found (run_ (.installFile source s!"{scriptsDirectory}/{name}"))

def installUtilityScripts : Script Unit := do
  let scriptsDirectory := s!"{targetRoot}/usr/local/bin"
  run_ (.mkdir scriptsDirectory)
  forEach utilityScripts fun (source, name) => installUtilityScript scriptsDirectory source name

def writeExpectedState : Script Unit := do
  let targetPath := s!"{targetRoot}{expectedStatePath}"
  run_ (.installDirectory (beforeLastSlash targetPath))
  writeFile targetPath (expectedStateFile config)
  -- verify-install runs as root and sources this file, so only root may change it
  run_ (.chmod "644" targetPath)
  info s!"Wrote {expectedStatePath}"

/-- `safeDump` is PyYAML's `safe_dump` in block style, with the entries in their order. -/
def writeFinalConfig : Script Unit := do
  let username := config.system.user.name
  let userHome := s!"{targetRoot}/home/{username}"
  tryRun_ (.mkdir userHome)
  writeFile s!"{userHome}/final_config.yaml" (safeDump (exportableConfig config))
  tryRunAsChroot_ (.chown s!"{username}:{username}" s!"/home/{username}/final_config.yaml")
  info s!"Wrote /home/{username}/final_config.yaml"

def install : Script Unit := do
  info (banner "Declarative ArchLinux Installer (DALI)" "Starting installation")
  logSummary config
  let steps := enabledSteps config
  runSteps config steps.length 1 steps
  installUtilityScripts
  writeExpectedState config
  writeFinalConfig safeDump config
  info (banner "Installation complete" "")

end Installer

/-! ## The checks before an installation -/

def usbBootProblems (config : InstallerConfig) : List String :=
  let usbBoot := config.usbBoot
  (if usbBoot.device == "" then
    ["USB boot needs a drive (USB_BOOT_DEVICE or usb_boot.device)"]
  else if usbBoot.device == config.storage.targetDisk then
    [s!"the USB boot drive and the target disk are both {usbBoot.device}"]
  else []) ++
  (if usbBoot.recoverySystem && usbBoot.isoPath == "" then
    ["the recovery system needs an Arch ISO (ISO_PATH or usb_boot.iso_path)"]
  else []) ++
  -- migration always fills the disk with random data when the header is detached
  if !config.migration.enabled && [.quick, .discard].contains config.storage.wipeMethod then
    ["ciphertext without a header only hides on a disk filled with random data: " ++
      "WIPE_METHOD secure, or skip for a disk filled before"]
  else []

def installProblems (config : InstallerConfig) : List String :=
  (if config.credentials.luksPassword == "" then
    ["no LUKS password (LUKS_PASSWORD or encrypted secrets)"] else []) ++
  (if config.credentials.userPassword == "" then
    ["no user password (USER_PASSWORD or encrypted secrets)"] else []) ++
  (if config.storage.targetDisk == "" then
    ["no target disk (TARGET_DISK or storage.target_disk)"] else []) ++
  (if config.migration.enabled && config.credentials.sourceLuksPassword == "" then
    ["migration needs the old LUKS password (SOURCE_LUKS_PASSWORD)"] else []) ++
  if config.usbBoot.enabled then usbBootProblems config else []

def validateForInstall (config : InstallerConfig) : Script Unit :=
  let problems := installProblems config
  let list := join "\n  - " problems
  onlyIf (!problems.isEmpty)
    (raise (.configuration s!"Cannot start the installation:\n  - {list}"))

/-- `cli.py` installs a configuration once it passes the checks. -/
def validateAndInstall (safeDump : PlainValue → String) (config : InstallerConfig) :
    Script Unit := do
  validateForInstall config
  Installer.install safeDump config

end ArchInstaller
