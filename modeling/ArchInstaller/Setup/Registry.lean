import Mathlib.Data.List.Sort
import ArchInstaller.Config.Models
import ArchInstaller.Python.Data

/-! # The questions of the install steps

`install_steps/questions.py`, and of `install_steps/wiring.py` and `install_steps/registry.py` the
settings of each step, in the order in which the steps run. The executors and the sections of the
steps are left out. -/

namespace ArchInstaller

structure Choice where
  value : PyValue
  label : String

structure Disk where
  path : String
  model : String
  size : String

/-- Choices that are fixed, or computed from the inherited value and the disks of the machine. -/
inductive ChoiceSource where
  | offered (choices : List Choice)
  | computed (choices : PyValue → List Disk → List Choice)

inductive Question where
  | chooseOne (label : String) (choices : ChoiceSource) (description typedPrompt : String)
  | chooseMany (label : String) (choices : List Choice) (description : String)
  | enterText (label prompt : String)
  | enterSecret (label prompt : String) (confirm : Bool)
  | switch (label onLabel offLabel description : String)

def Question.label : Question → String
  | chooseOne label _ _ _ | chooseMany label _ _ | enterText label _ | enterSecret label _ _ |
    switch label _ _ _ => label

/-! ## Conditions -/

/-- The current value of a setting; a setting without one has `None`. -/
abbrev SettingLookup := String → PyValue

abbrev StepCondition := SettingLookup → Bool

def always : StepCondition := fun _ => true

/-- `when`. -/
def whenSet (settingPath : String) : StepCondition := fun value => (value settingPath).truth

def whenEqual (settingPath : String) (expected : PyValue) : StepCondition :=
  fun value => (value settingPath).eq expected

/-- One value: its path, the variable that can provide it, the question that asks it. -/
structure StepSetting where
  path : String
  environmentVariable : Option String
  question : Option Question
  askedWhen : StepCondition := always

/-! ## Choices -/

def wipeChoices : List Choice :=
  [⟨.member WipeMethod.quick.value, "Quick wipe (partition table only)"⟩,
    ⟨.member WipeMethod.secure.value, "Secure wipe (random fill - slow)"⟩,
    ⟨.member WipeMethod.discard.value, "SSD discard (blkdiscard - fast)"⟩,
    ⟨.member WipeMethod.skip.value, "Skip wipe (recovering partial install)"⟩]

def cpuChoices : List Choice :=
  [⟨.member CpuVendor.intel.value, "Intel"⟩, ⟨.member CpuVendor.amd.value, "AMD"⟩]

def gpuChoices : List Choice :=
  [⟨.member GpuVendor.amd.value, "AMD (AMDGPU, open-source)"⟩,
    ⟨.member GpuVendor.intel.value, "Intel (integrated graphics)"⟩,
    ⟨.member GpuVendor.nvidia.value, "NVIDIA (proprietary/nouveau)"⟩,
    ⟨.member GpuVendor.none.value, "None (VM or generic)"⟩]

def nvidiaDriverChoices : List Choice :=
  [⟨.member GpuDriver.nouveau.value, "Nouveau - open-source, limited features"⟩,
    ⟨.member GpuDriver.nvidiaOpen.value, "NVIDIA Open - official open kernel modules, RTX 20+"⟩,
    ⟨.member GpuDriver.nvidiaDkms.value, "NVIDIA DKMS - proprietary, best compatibility"⟩]

def desktopChoices : List Choice :=
  [⟨.member Desktop.gnome.value, "GNOME (Wayland, modern)"⟩,
    ⟨.member Desktop.kde.value, "KDE Plasma (Wayland, customizable)"⟩,
    ⟨.member Desktop.hyprland.value, "Hyprland (Wayland tiling WM)"⟩]

def swapPresetsMb : List Int := [4096, 8192, 16384, 32768, 65536]

def detectedDiskChoices (_ : PyValue) (disks : List Disk) : List Choice :=
  disks.map fun disk => ⟨.str disk.path, s!"{disk.path}  {disk.model}  ({disk.size})"⟩

/-- `_swap_label` of a size, given its `str`. -/
def swapLabel (sizeMb : Int) (shown : String) : String :=
  if sizeMb % 1024 = 0 then s!"{sizeMb / 1024} GB" else s!"{shown} MB"

/-- The inherited size is always offered, even when it is not one of the presets; `True` is a size
as 1 is. -/
def swapSizeChoices (inheritedValue : PyValue) (_ : List Disk) : List Choice :=
  let presets := swapPresetsMb.map fun size => (size, PyValue.int size, toString size)
  let inherited := match inheritedValue with
    | .int size => if 0 < size && !swapPresetsMb.contains size then
        [(size, PyValue.int size, toString size)] else []
    | .bool true => [(1, .bool true, "True")]
    | _ => []
  let sizes := (presets ++ inherited).mergeSort fun size size' => size.1 ≤ size'.1
  sizes.map fun (size, value, shown) => ⟨value, swapLabel size shown⟩

def recoverySystemWanted : StepCondition := fun value =>
  (value "usb_boot.enabled").truth && (value "usb_boot.recovery_system").truth

/-! ## Steps -/

def migrationStagingSettings : List StepSetting :=
  [{ path := "migration.enabled",
     environmentVariable := some "ENABLE_MIGRATION",
     question := some (.switch "Installation type" "Migration from existing Arch"
       "Fresh installation" "") },
    { path := "credentials.source_luks_password",
      environmentVariable := some "SOURCE_LUKS_PASSWORD",
      question := some (.enterSecret "Old disk password" "LUKS password of the existing install:"
        false),
      askedWhen := whenSet "migration.enabled" }]

def usbBootDriveSettings : List StepSetting :=
  [{ path := "usb_boot.enabled",
     environmentVariable := some "ENABLE_USB_BOOT",
     question := some (.switch "USB boot drive"
       "Yes - EFI partition and LUKS header on a USB drive" "No - boot from the internal disk"
       ("The internal disk keeps only ciphertext; " ++
         "the system starts and unlocks only with the drive.")) },
    { path := "usb_boot.device",
      environmentVariable := some "USB_BOOT_DEVICE",
      question := some (.chooseOne "USB drive" (.computed detectedDiskChoices)
        "Select the USB drive (ALL DATA ON IT WILL BE ERASED):"
        "Enter the USB drive path (e.g. /dev/sdb):"),
      askedWhen := whenSet "usb_boot.enabled" },
    { path := "usb_boot.recovery_system",
      environmentVariable := some "ENABLE_RECOVERY_SYSTEM",
      question := some (.switch "Recovery system" "Yes - signed Arch live system on the drive" "No"
        "Boot the Arch ISO from the drive under Secure Boot to repair the system."),
      askedWhen := whenSet "usb_boot.enabled" },
    { path := "usb_boot.iso_path",
      environmentVariable := some "ISO_PATH",
      question := some (.enterText "Recovery ISO" "Arch ISO file, or the live medium (e.g. /dev/sr0):"),
      askedWhen := recoverySystemWanted }]

def storageSettings : List StepSetting :=
  [{ path := "storage.target_disk",
     environmentVariable := some "TARGET_DISK",
     question := some (.chooseOne "Disk" (.computed detectedDiskChoices)
       "Select target disk (ALL DATA WILL BE ERASED):" "Enter disk path (e.g. /dev/sda):") },
    { path := "storage.wipe_method",
      environmentVariable := some "WIPE_METHOD",
      question := some (.chooseOne "Wipe method" (.offered wipeChoices) "" "") },
    { path := "storage.swap.enabled",
      environmentVariable := some "ENABLE_SWAP",
      question := some (.switch "Swap file" "On" "Off" "") },
    { path := "storage.swap.size_mb",
      environmentVariable := some "SWAP_SIZE_MB",
      question := some (.chooseOne "Swap size" (.computed swapSizeChoices) "" ""),
      askedWhen := whenSet "storage.swap.enabled" },
    { path := "storage.swap.hibernation",
      environmentVariable := some "ENABLE_HIBERNATION",
      question := some (.switch "Hibernation" "On" "Off" "Resume from the swapfile after power-off."),
      askedWhen := whenSet "storage.swap.enabled" },
    { path := "credentials.luks_password",
      environmentVariable := some "LUKS_PASSWORD",
      question := some (.enterSecret "LUKS password" "LUKS encryption password:" true) }]

def packagesSettings : List StepSetting :=
  [{ path := "system.cpu_vendor",
     environmentVariable := some "CPU_VENDOR",
     question := some (.chooseOne "CPU vendor" (.offered cpuChoices) "" "") },
    { path := "gpu.vendor",
      environmentVariable := some "GPU_VENDOR",
      question := some (.chooseOne "GPU vendor" (.offered gpuChoices) "" "") },
    { path := "gpu.driver",
      environmentVariable := some "GPU_DRIVER",
      question := some (.chooseOne "NVIDIA driver" (.offered nvidiaDriverChoices) "" ""),
      askedWhen := whenEqual "gpu.vendor" (.member GpuVendor.nvidia.value) },
    { path := "packages.selected_desktops",
      environmentVariable := some "SELECTED_DESKTOPS",
      question := some (.chooseMany "Desktops" desktopChoices
        "Select desktop environments to install (Space to toggle):") },
    { path := "boot.selected_kernels",
      environmentVariable := some "SELECTED_KERNELS",
      question := none }]

def systemSettings : List StepSetting :=
  [{ path := "system.hostname", environmentVariable := none,
     question := some (.enterText "Hostname" "Hostname:") },
    { path := "system.user.name", environmentVariable := none,
      question := some (.enterText "Username" "Username:") },
    { path := "system.timezone", environmentVariable := none,
      question := some (.enterText "Timezone" "Timezone (e.g. Europe/Helsinki):") },
    { path := "system.locale.keymap", environmentVariable := none,
      question := some (.enterText "Keymap" "Keymap:") },
    { path := "credentials.user_password",
      environmentVariable := some "USER_PASSWORD",
      question := some (.enterSecret "User password" "User account password:" true) }]

def dockerSettings : List StepSetting :=
  [{ path := "docker.enabled", environmentVariable := some "ENABLE_DOCKER",
     question := some (.switch "Docker" "On" "Off" "") }]

def bootableSnapshotsSettings : List StepSetting :=
  [{ path := "boot.enable_snapshot_boot",
     environmentVariable := some "ENABLE_SNAPSHOT_BOOT",
     question := some (.switch "Bootable snapshots" "On" "Off" "") }]

def snapshotNotificationsSettings : List StepSetting :=
  [{ path := "notifications.enabled",
     environmentVariable := some "ENABLE_NOTIFICATIONS",
     question := some (.switch "Desktop notifications" "On" "Off"
       "Notify when a snapshot is taken.") }]

def firewallSettings : List StepSetting :=
  [{ path := "firewall.enabled", environmentVariable := some "ENABLE_FIREWALL",
     question := some (.switch "Firewall (UFW)" "On" "Off" "") }]

/-- The settings of `INSTALL_STEPS`, under the names of the steps. -/
def installStepSettings : List (String × List StepSetting) :=
  [("Migration staging", migrationStagingSettings), ("USB boot drive", usbBootDriveSettings),
    ("Storage", storageSettings), ("Pacman mirrors", []), ("Packages", packagesSettings),
    ("Migration restore", []), ("System", systemSettings), ("Docker", dockerSettings),
    ("GPU driver", []), ("Kernel images", []), ("Bootloader", []), ("Recovery system", []),
    ("Snapper", []), ("Bootable snapshots", bootableSnapshotsSettings),
    ("Snapshot notifications", snapshotNotificationsSettings), ("Firewall", firewallSettings),
    ("USB boot safeguards", [])]

def usbBackupSettings : List StepSetting :=
  [{ path := "sync.backup_partition", environmentVariable := some "BACKUP_PARTITION",
     question := none },
    { path := "sync.backup_categories", environmentVariable := some "BACKUP_CATEGORIES",
      question := none }]

def allSettings : List StepSetting :=
  installStepSettings.flatMap Prod.snd ++ usbBackupSettings

/-- `environment_variable_paths`: no two settings have the same variable. -/
def environmentVariablePaths : List (String × String) :=
  allSettings.filterMap fun setting => setting.environmentVariable.map (·, setting.path)

end ArchInstaller
