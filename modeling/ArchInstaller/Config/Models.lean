import ArchInstaller.Python.Text

/-! # The configuration model

The frozen dataclasses of `config/models.py`, field by field. Python's `int` is `Int`, a tuple is
a list, and a `StrEnum` is an inductive type with the text of each member. -/

namespace ArchInstaller

open PyText

inductive WipeMethod where
  | quick
  | secure
  | discard
  | skip
  deriving DecidableEq, Repr

namespace WipeMethod

def value : WipeMethod → String
  | quick => "quick"
  | secure => "secure"
  | discard => "discard"
  | skip => "skip"

end WipeMethod

inductive CpuVendor where
  | amd
  | intel
  | unknown
  deriving DecidableEq, Repr

def CpuVendor.value : CpuVendor → String
  | amd => "amd"
  | intel => "intel"
  | unknown => ""

inductive GpuVendor where
  | amd
  | intel
  | nvidia
  | none
  deriving DecidableEq, Repr

def GpuVendor.value : GpuVendor → String
  | amd => "amd"
  | intel => "intel"
  | nvidia => "nvidia"
  | none => "none"

inductive GpuDriver where
  | nouveau
  | nvidiaOpen
  | nvidiaDkms
  | vendorDefault
  deriving DecidableEq, Repr

def GpuDriver.value : GpuDriver → String
  | nouveau => "nouveau"
  | nvidiaOpen => "nvidia-open"
  | nvidiaDkms => "nvidia-dkms"
  | vendorDefault => ""

inductive FirewallPolicy where
  | allow
  | deny
  | reject
  deriving DecidableEq, Repr

def FirewallPolicy.value : FirewallPolicy → String
  | allow => "allow"
  | deny => "deny"
  | reject => "reject"

inductive Desktop where
  | kde
  | gnome
  | hyprland
  deriving DecidableEq, Repr

def Desktop.value : Desktop → String
  | kde => "kde"
  | gnome => "gnome"
  | hyprland => "hyprland"

inductive BackupCategory where
  | dotfiles
  | keepass
  | browser
  | system
  deriving DecidableEq, Repr

def BackupCategory.value : BackupCategory → String
  | dotfiles => "dotfiles"
  | keepass => "keepass"
  | browser => "browser"
  | system => "system"

def cryptrootMapperName : String := "cryptroot"

/-- Any NVIDIA driver but nouveau is the proprietary one, which needs its own setup step. -/
def isProprietaryNvidia (vendor : GpuVendor) (driver : GpuDriver) : Bool :=
  vendor == .nvidia && driver != .nouveau

def derivePartitionPath (disk : String) (partitionNumber : Nat) : String :=
  if disk == "" then ""
  -- nvme and loop devices separate the partition number with a "p"
  else if contains "nvme" disk || contains "loop" disk then s!"{disk}p{partitionNumber}"
  else s!"{disk}{partitionNumber}"

structure UserConfig where
  name : String
  groups : List String

structure LocaleConfig where
  language : String
  encoding : String
  keymap : String
  monetary : String
  timeFormat : String
  numeric : String
  paper : String

def LocaleConfig.fullLocale (locale : LocaleConfig) : String :=
  s!"{locale.language}.{locale.encoding}"

structure PacmanMirrorConfig where
  /-- An empty list keeps the live ISO's mirrorlist. -/
  mirrors : List String
  useReflector : Bool
  reflectorCountries : List String

structure SystemConfig where
  hostname : String
  timezone : String
  locale : LocaleConfig
  user : UserConfig
  mirrors : PacmanMirrorConfig
  cpuVendor : CpuVendor

structure LuksConfig where
  type : String
  cipher : String
  keySize : Int
  hash : String
  pbkdf : String
  pbkdfMemory : Int
  pbkdfParallel : Int
  pbkdfTimeMs : Int
  deriving DecidableEq

structure SubvolumeConfig where
  name : String
  mountpoint : String
  nocow : Bool

structure BtrfsConfig where
  label : String
  mountOptions : String
  subvolumes : List SubvolumeConfig

structure SwapConfig where
  enabled : Bool
  sizeMb : Int
  path : String
  hibernation : Bool

structure StorageConfig where
  targetDisk : String
  efiSizeMb : Int
  wipeMethod : WipeMethod
  luks : LuksConfig
  btrfs : BtrfsConfig
  swap : SwapConfig

def StorageConfig.cryptrootDevice (_ : StorageConfig) : String :=
  s!"/dev/mapper/{cryptrootMapperName}"

structure KernelConfig where
  name : String
  package : String

structure UkiVariantConfig where
  suffix : String
  params : String

structure CmdlineHardeningConfig where
  lockdown : String
  iommu : String
  intelIommu : String
  amdIommu : String
  pti : String
  spectreV2 : String
  specStoreBypassDisable : String
  l1tf : String
  mds : String
  srbds : String
  tsxAsyncAbort : String
  initOnAlloc : Int
  initOnFree : Int

structure CmdlineConfig where
  rootflags : String
  rootfstype : String
  rw : Bool
  quiet : Bool
  hardening : CmdlineHardeningConfig

structure LoaderConfig where
  timeout : Int
  consoleMode : String
  editor : Bool

structure SecureBootConfig where
  enrollKeys : Bool
  includeMicrosoftKeys : Bool

structure BootConfig where
  kernels : List KernelConfig
  /-- Kernel packages to install; an empty list installs every kernel listed above. -/
  selectedKernels : List String
  variants : List UkiVariantConfig
  cmdline : CmdlineConfig
  loader : LoaderConfig
  hooks : List String
  secureBoot : SecureBootConfig
  enableSnapshotBoot : Bool

def BootConfig.kernelPackages (boot : BootConfig) : List String :=
  if boot.selectedKernels.isEmpty then boot.kernels.map (·.package) else boot.selectedKernels

structure DesktopPackages where
  kde : List String
  gnome : List String
  hyprland : List String

def DesktopPackages.packagesFor (desktops : DesktopPackages) : Desktop → List String
  | .kde => desktops.kde
  | .gnome => desktops.gnome
  | .hyprland => desktops.hyprland

structure PackagesConfig where
  base : List String
  desktops : DesktopPackages
  /-- The desktops to install; each needs packages listed above. -/
  selectedDesktops : List Desktop
  displayManager : List String
  /-- Package names exported by a USB backup of a previous system. -/
  cataloged : List String

structure GpuDriverPackages where
  amd : List String
  intel : List String
  nouveau : List String
  nvidiaDkms : List String
  nvidiaOpen : List String

structure GpuConfig where
  vendor : GpuVendor
  driver : GpuDriver
  drivers : GpuDriverPackages

def GpuConfig.usesProprietaryNvidiaDriver (gpu : GpuConfig) : Bool :=
  isProprietaryNvidia gpu.vendor gpu.driver

structure SnapshotRetention where
  hourly : Int
  daily : Int
  weekly : Int
  monthly : Int
  yearly : Int

structure SnapperVolumeConfig where
  subvolume : String
  snapshotsSubvolume : String
  snapshotsPath : String
  timeline : Bool
  cleanup : Bool
  numberLimit : Int
  numberLimitImportant : Int
  retention : SnapshotRetention

structure SnapperConfig where
  enabled : Bool
  allowGroups : List String
  /-- Null turns snapshots of that volume off. -/
  root : Option SnapperVolumeConfig
  home : Option SnapperVolumeConfig
  /-- Pre/post snapshots around every pacman transaction. -/
  snapPac : Bool
  /-- How many of the newest snapshots get a bootable UKI. -/
  bootableSnapshotCount : Int

def SnapperConfig.volumes (snapper : SnapperConfig) : List (String × SnapperVolumeConfig) :=
  [("root", snapper.root), ("home", snapper.home)].filterMap fun (name, volume) =>
    volume.map (name, ·)

structure NotificationsConfig where
  enabled : Bool

structure FirewallSshConfig where
  enabled : Bool
  port : Int
  allowedFrom : String

structure FirewallAllowRule where
  port : Int
  protocol : String

structure FirewallConfig where
  enabled : Bool
  defaultIncoming : FirewallPolicy
  defaultOutgoing : FirewallPolicy
  logging : Bool
  blockIcmp : Bool
  ssh : FirewallSshConfig
  allowRules : List FirewallAllowRule

structure DockerConfig where
  enabled : Bool
  storageDriver : String
  dataRoot : String
  accessGroup : String

structure BackupItemConfig where
  name : String
  sourcePath : String
  description : String

structure SyncConfig where
  backupPartition : String
  backupItems : List BackupItemConfig
  backupCategories : List BackupCategory

structure MigrationConfig where
  enabled : Bool
  preserveHome : Bool
  preserveSecureBootKeys : Bool
  additionalPaths : List String

def usbEfiPartitionNumber : Nat := 1
def usbLuksHeaderPartitionNumber : Nat := 2
def usbRecoveryPartitionNumber : Nat := 3

/-- The USB boot drive. Its EFI partition is the system's only one and its header partition holds
the LUKS header, so the internal disk keeps nothing but ciphertext. -/
structure UsbBootConfig where
  enabled : Bool
  device : String
  recoverySystem : Bool
  isoPath : String

namespace UsbBootConfig

def efiPartition (usbBoot : UsbBootConfig) : String :=
  derivePartitionPath usbBoot.device usbEfiPartitionNumber

def luksHeaderPartition (usbBoot : UsbBootConfig) : String :=
  derivePartitionPath usbBoot.device usbLuksHeaderPartitionNumber

def recoveryPartition (usbBoot : UsbBootConfig) : String :=
  derivePartitionPath usbBoot.device usbRecoveryPartitionNumber

end UsbBootConfig

structure EncryptedSecretsConfig where
  luksPasswordEncrypted : String
  userPasswordEncrypted : String

structure Credentials where
  luksPassword : String
  userPassword : String
  /-- Only needed to unlock an existing install when migrating. -/
  sourceLuksPassword : String

structure InstallerConfig where
  system : SystemConfig
  packages : PackagesConfig
  storage : StorageConfig
  boot : BootConfig
  gpu : GpuConfig
  snapper : SnapperConfig
  firewall : FirewallConfig
  docker : DockerConfig
  notifications : NotificationsConfig
  sync : SyncConfig
  migration : MigrationConfig
  usbBoot : UsbBootConfig
  secrets : EncryptedSecretsConfig
  /-- Never read from config.yaml in plain text: env vars, the TUI or decrypted secrets. -/
  credentials : Credentials

namespace InstallerConfig

/-- The device the ciphertext fills: with a USB boot drive the whole internal disk, which then has
no partition table, otherwise the disk's second partition. -/
def encryptedDevice (config : InstallerConfig) : String :=
  if config.usbBoot.enabled then config.storage.targetDisk
  else derivePartitionPath config.storage.targetDisk 2

def efiPartition (config : InstallerConfig) : String :=
  if config.usbBoot.enabled then config.usbBoot.efiPartition
  else derivePartitionPath config.storage.targetDisk 1

/-- cryptsetup reads the LUKS header from here: the USB drive, or the partition itself. -/
def luksHeaderDevice (config : InstallerConfig) : String :=
  if config.usbBoot.enabled then config.usbBoot.luksHeaderPartition else config.encryptedDevice

end InstallerConfig

/-! ## The exported configuration -/

/-- The plain data that `yaml.safe_dump` is given: mappings keep the order of their entries. -/
inductive PlainValue where
  | null
  | bool (value : Bool)
  | int (value : Int)
  | text (value : String)
  | sequence (items : List PlainValue)
  | mapping (entries : List (String × PlainValue))

namespace PlainValue

def texts (values : List String) : PlainValue := .sequence (values.map .text)

end PlainValue

/-! `asdict` followed by `_plain_yaml_value`, for each section. -/

def LocaleConfig.plain (locale : LocaleConfig) : PlainValue :=
  .mapping
    [("language", .text locale.language), ("encoding", .text locale.encoding),
      ("keymap", .text locale.keymap), ("monetary", .text locale.monetary),
      ("time_format", .text locale.timeFormat), ("numeric", .text locale.numeric),
      ("paper", .text locale.paper)]

def SystemConfig.plain (system : SystemConfig) : PlainValue :=
  .mapping
    [("hostname", .text system.hostname), ("timezone", .text system.timezone),
      ("locale", system.locale.plain),
      ("user", .mapping [("name", .text system.user.name), ("groups", .texts system.user.groups)]),
      ("mirrors", .mapping
        [("mirrors", .texts system.mirrors.mirrors),
          ("use_reflector", .bool system.mirrors.useReflector),
          ("reflector_countries", .texts system.mirrors.reflectorCountries)]),
      ("cpu_vendor", .text system.cpuVendor.value)]

def PackagesConfig.plain (packages : PackagesConfig) : PlainValue :=
  .mapping
    [("base", .texts packages.base),
      ("desktops", .mapping
        [("kde", .texts packages.desktops.kde), ("gnome", .texts packages.desktops.gnome),
          ("hyprland", .texts packages.desktops.hyprland)]),
      ("selected_desktops", .texts (packages.selectedDesktops.map Desktop.value)),
      ("display_manager", .texts packages.displayManager),
      ("cataloged", .texts packages.cataloged)]

def LuksConfig.plain (luks : LuksConfig) : PlainValue :=
  .mapping
    [("type", .text luks.type), ("cipher", .text luks.cipher), ("key_size", .int luks.keySize),
      ("hash", .text luks.hash), ("pbkdf", .text luks.pbkdf),
      ("pbkdf_memory", .int luks.pbkdfMemory), ("pbkdf_parallel", .int luks.pbkdfParallel),
      ("pbkdf_time_ms", .int luks.pbkdfTimeMs)]

def SubvolumeConfig.plain (subvolume : SubvolumeConfig) : PlainValue :=
  .mapping
    [("name", .text subvolume.name), ("mountpoint", .text subvolume.mountpoint),
      ("nocow", .bool subvolume.nocow)]

def StorageConfig.plain (storage : StorageConfig) : PlainValue :=
  .mapping
    [("target_disk", .text storage.targetDisk), ("efi_size_mb", .int storage.efiSizeMb),
      ("wipe_method", .text storage.wipeMethod.value), ("luks", storage.luks.plain),
      ("btrfs", .mapping
        [("label", .text storage.btrfs.label), ("mount_options", .text storage.btrfs.mountOptions),
          ("subvolumes", .sequence (storage.btrfs.subvolumes.map SubvolumeConfig.plain))]),
      ("swap", .mapping
        [("enabled", .bool storage.swap.enabled), ("size_mb", .int storage.swap.sizeMb),
          ("path", .text storage.swap.path), ("hibernation", .bool storage.swap.hibernation)])]

/-- The kernel parameters of the hardening section, in declaration order. -/
def CmdlineHardeningConfig.parameters (hardening : CmdlineHardeningConfig) :
    List (String × PlainValue) :=
  [("lockdown", .text hardening.lockdown), ("iommu", .text hardening.iommu),
    ("intel_iommu", .text hardening.intelIommu), ("amd_iommu", .text hardening.amdIommu),
    ("pti", .text hardening.pti), ("spectre_v2", .text hardening.spectreV2),
    ("spec_store_bypass_disable", .text hardening.specStoreBypassDisable),
    ("l1tf", .text hardening.l1tf), ("mds", .text hardening.mds), ("srbds", .text hardening.srbds),
    ("tsx_async_abort", .text hardening.tsxAsyncAbort),
    ("init_on_alloc", .int hardening.initOnAlloc), ("init_on_free", .int hardening.initOnFree)]

def BootConfig.plain (boot : BootConfig) : PlainValue :=
  .mapping
    [("kernels", .sequence (boot.kernels.map fun kernel =>
        .mapping [("name", .text kernel.name), ("package", .text kernel.package)])),
      ("selected_kernels", .texts boot.selectedKernels),
      ("variants", .sequence (boot.variants.map fun variant =>
        .mapping [("suffix", .text variant.suffix), ("params", .text variant.params)])),
      ("cmdline", .mapping
        [("rootflags", .text boot.cmdline.rootflags), ("rootfstype", .text boot.cmdline.rootfstype),
          ("rw", .bool boot.cmdline.rw), ("quiet", .bool boot.cmdline.quiet),
          ("hardening", .mapping boot.cmdline.hardening.parameters)]),
      ("loader", .mapping
        [("timeout", .int boot.loader.timeout), ("console_mode", .text boot.loader.consoleMode),
          ("editor", .bool boot.loader.editor)]),
      ("hooks", .texts boot.hooks),
      ("secure_boot", .mapping
        [("enroll_keys", .bool boot.secureBoot.enrollKeys),
          ("include_microsoft_keys", .bool boot.secureBoot.includeMicrosoftKeys)]),
      ("enable_snapshot_boot", .bool boot.enableSnapshotBoot)]

def GpuConfig.plain (gpu : GpuConfig) : PlainValue :=
  .mapping
    [("vendor", .text gpu.vendor.value), ("driver", .text gpu.driver.value),
      ("drivers", .mapping
        [("amd", .texts gpu.drivers.amd), ("intel", .texts gpu.drivers.intel),
          ("nouveau", .texts gpu.drivers.nouveau), ("nvidia_dkms", .texts gpu.drivers.nvidiaDkms),
          ("nvidia_open", .texts gpu.drivers.nvidiaOpen)])]

def SnapperVolumeConfig.plain (volume : SnapperVolumeConfig) : PlainValue :=
  .mapping
    [("subvolume", .text volume.subvolume),
      ("snapshots_subvolume", .text volume.snapshotsSubvolume),
      ("snapshots_path", .text volume.snapshotsPath), ("timeline", .bool volume.timeline),
      ("cleanup", .bool volume.cleanup), ("number_limit", .int volume.numberLimit),
      ("number_limit_important", .int volume.numberLimitImportant),
      ("retention", .mapping
        [("hourly", .int volume.retention.hourly), ("daily", .int volume.retention.daily),
          ("weekly", .int volume.retention.weekly), ("monthly", .int volume.retention.monthly),
          ("yearly", .int volume.retention.yearly)])]

def SnapperConfig.plain (snapper : SnapperConfig) : PlainValue :=
  .mapping
    [("enabled", .bool snapper.enabled), ("allow_groups", .texts snapper.allowGroups),
      ("root", (snapper.root.map SnapperVolumeConfig.plain).getD .null),
      ("home", (snapper.home.map SnapperVolumeConfig.plain).getD .null),
      ("snap_pac", .bool snapper.snapPac),
      ("bootable_snapshot_count", .int snapper.bootableSnapshotCount)]

def FirewallConfig.plain (firewall : FirewallConfig) : PlainValue :=
  .mapping
    [("enabled", .bool firewall.enabled),
      ("default_incoming", .text firewall.defaultIncoming.value),
      ("default_outgoing", .text firewall.defaultOutgoing.value),
      ("logging", .bool firewall.logging), ("block_icmp", .bool firewall.blockIcmp),
      ("ssh", .mapping
        [("enabled", .bool firewall.ssh.enabled), ("port", .int firewall.ssh.port),
          ("allowed_from", .text firewall.ssh.allowedFrom)]),
      ("allow_rules", .sequence (firewall.allowRules.map fun rule =>
        .mapping [("port", .int rule.port), ("protocol", .text rule.protocol)]))]

def DockerConfig.plain (docker : DockerConfig) : PlainValue :=
  .mapping
    [("enabled", .bool docker.enabled), ("storage_driver", .text docker.storageDriver),
      ("data_root", .text docker.dataRoot), ("access_group", .text docker.accessGroup)]

def SyncConfig.plain (sync : SyncConfig) : PlainValue :=
  .mapping
    [("backup_partition", .text sync.backupPartition),
      ("backup_items", .sequence (sync.backupItems.map fun item =>
        .mapping
          [("name", .text item.name), ("source_path", .text item.sourcePath),
            ("description", .text item.description)])),
      ("backup_categories", .texts (sync.backupCategories.map BackupCategory.value))]

def MigrationConfig.plain (migration : MigrationConfig) : PlainValue :=
  .mapping
    [("enabled", .bool migration.enabled), ("preserve_home", .bool migration.preserveHome),
      ("preserve_secure_boot_keys", .bool migration.preserveSecureBootKeys),
      ("additional_paths", .texts migration.additionalPaths)]

def UsbBootConfig.plain (usbBoot : UsbBootConfig) : PlainValue :=
  .mapping
    [("enabled", .bool usbBoot.enabled), ("device", .text usbBoot.device),
      ("recovery_system", .bool usbBoot.recoverySystem), ("iso_path", .text usbBoot.isoPath)]

/-- The shape of config.yaml without passwords: the sections in declaration order, less
`credentials` and `secrets`. -/
def exportableConfig (config : InstallerConfig) : PlainValue :=
  .mapping
    [("system", config.system.plain), ("packages", config.packages.plain),
      ("storage", config.storage.plain), ("boot", config.boot.plain), ("gpu", config.gpu.plain),
      ("snapper", config.snapper.plain), ("firewall", config.firewall.plain),
      ("docker", config.docker.plain),
      ("notifications", .mapping [("enabled", .bool config.notifications.enabled)]),
      ("sync", config.sync.plain), ("migration", config.migration.plain),
      ("usb_boot", config.usbBoot.plain)]

end ArchInstaller
