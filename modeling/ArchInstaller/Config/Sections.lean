import ArchInstaller.Config.Models
import ArchInstaller.Config.Schema
import Mathlib.Logic.Equiv.List

/-! # The declared types of the configuration

For each dataclass of `config/models.py` its fields, with their names in `config.yaml`, and what
the values of these fields make of it. -/

namespace ArchInstaller

@[reducible] def WipeMethod.enumType : EnumType where
  Member := WipeMethod
  members := [.quick, .secure, .discard, .skip]
  value := WipeMethod.value
  complete := by intro member; cases member <;> decide
  injective := by intro member member'; cases member <;> cases member' <;> decide

@[reducible] def CpuVendor.enumType : EnumType where
  Member := CpuVendor
  members := [.amd, .intel, .unknown]
  value := CpuVendor.value
  complete := by intro member; cases member <;> decide
  injective := by intro member member'; cases member <;> cases member' <;> decide

@[reducible] def GpuVendor.enumType : EnumType where
  Member := GpuVendor
  members := [.amd, .intel, .nvidia, .none]
  value := GpuVendor.value
  complete := by intro member; cases member <;> decide
  injective := by intro member member'; cases member <;> cases member' <;> decide

@[reducible] def GpuDriver.enumType : EnumType where
  Member := GpuDriver
  members := [.nouveau, .nvidiaOpen, .nvidiaDkms, .vendorDefault]
  value := GpuDriver.value
  complete := by intro member; cases member <;> decide
  injective := by intro member member'; cases member <;> cases member' <;> decide

@[reducible] def FirewallPolicy.enumType : EnumType where
  Member := FirewallPolicy
  members := [.allow, .deny, .reject]
  value := FirewallPolicy.value
  complete := by intro member; cases member <;> decide
  injective := by intro member member'; cases member <;> cases member' <;> decide

@[reducible] def Desktop.enumType : EnumType where
  Member := Desktop
  members := [.kde, .gnome, .hyprland]
  value := Desktop.value
  complete := by intro member; cases member <;> decide
  injective := by intro member member'; cases member <;> cases member' <;> decide

@[reducible] def BackupCategory.enumType : EnumType where
  Member := BackupCategory
  members := [.dotfiles, .keepass, .browser, .system]
  value := BackupCategory.value
  complete := by intro member; cases member <;> decide
  injective := by intro member member'; cases member <;> cases member' <;> decide

@[reducible] def UserConfig.fields : Fields := .of [("name", .str), ("groups", .tuple .str)]

def UserConfig.equiv : UserConfig.fields.Value ≃ UserConfig where
  toFun | (name, groups, ()) => { name, groups }
  invFun config := (config.name, config.groups, ())
  left_inv _ := rfl
  right_inv _ := rfl

@[reducible] def LocaleConfig.fields : Fields := .of
  [("language", .str), ("encoding", .str), ("keymap", .str), ("monetary", .str),
    ("time_format", .str), ("numeric", .str), ("paper", .str)]

def LocaleConfig.equiv : LocaleConfig.fields.Value ≃ LocaleConfig where
  toFun
    | (language, encoding, keymap, monetary, timeFormat, numeric, paper, ()) =>
      { language, encoding, keymap, monetary, timeFormat, numeric, paper }
  invFun config :=
    (config.language, config.encoding, config.keymap, config.monetary, config.timeFormat,
      config.numeric, config.paper, ())
  left_inv _ := rfl
  right_inv _ := rfl

@[reducible] def PacmanMirrorConfig.fields : Fields := .of
  [("mirrors", .tuple .str), ("use_reflector", .bool), ("reflector_countries", .tuple .str)]

def PacmanMirrorConfig.equiv : PacmanMirrorConfig.fields.Value ≃ PacmanMirrorConfig where
  toFun
    | (mirrors, useReflector, reflectorCountries, ()) =>
      { mirrors, useReflector, reflectorCountries }
  invFun config := (config.mirrors, config.useReflector, config.reflectorCountries, ())
  left_inv _ := rfl
  right_inv _ := rfl

@[reducible] def SystemConfig.fields : Fields := .of
  [("hostname", .str), ("timezone", .str), ("locale", .dataclass LocaleConfig.fields),
    ("user", .dataclass UserConfig.fields), ("mirrors", .dataclass PacmanMirrorConfig.fields),
    ("cpu_vendor", .enum CpuVendor.enumType)]

def SystemConfig.equiv : SystemConfig.fields.Value ≃ SystemConfig where
  toFun
    | (hostname, timezone, locale, user, mirrors, cpuVendor, ()) =>
      { hostname, timezone, locale := LocaleConfig.equiv locale, user := UserConfig.equiv user,
        mirrors := PacmanMirrorConfig.equiv mirrors, cpuVendor }
  invFun config :=
    (config.hostname, config.timezone, LocaleConfig.equiv.symm config.locale,
      UserConfig.equiv.symm config.user, PacmanMirrorConfig.equiv.symm config.mirrors,
      config.cpuVendor, ())
  left_inv _ := by simp
  right_inv _ := by simp

@[reducible] def LuksConfig.fields : Fields := .of
  [("type", .str), ("cipher", .str), ("key_size", .int), ("hash", .str), ("pbkdf", .str),
    ("pbkdf_memory", .int), ("pbkdf_parallel", .int), ("pbkdf_time_ms", .int)]

def LuksConfig.equiv : LuksConfig.fields.Value ≃ LuksConfig where
  toFun
    | (type, cipher, keySize, hash, pbkdf, pbkdfMemory, pbkdfParallel, pbkdfTimeMs, ()) =>
      { type, cipher, keySize, hash, pbkdf, pbkdfMemory, pbkdfParallel, pbkdfTimeMs }
  invFun config :=
    (config.type, config.cipher, config.keySize, config.hash, config.pbkdf, config.pbkdfMemory,
      config.pbkdfParallel, config.pbkdfTimeMs, ())
  left_inv _ := rfl
  right_inv _ := rfl

@[reducible] def SubvolumeConfig.fields : Fields := .of
  [("name", .str), ("mountpoint", .str), ("nocow", .bool)]

def SubvolumeConfig.equiv : SubvolumeConfig.fields.Value ≃ SubvolumeConfig where
  toFun | (name, mountpoint, nocow, ()) => { name, mountpoint, nocow }
  invFun config := (config.name, config.mountpoint, config.nocow, ())
  left_inv _ := rfl
  right_inv _ := rfl

@[reducible] def BtrfsConfig.fields : Fields := .of
  [("label", .str), ("mount_options", .str),
    ("subvolumes", .tuple (.dataclass SubvolumeConfig.fields))]

def BtrfsConfig.equiv : BtrfsConfig.fields.Value ≃ BtrfsConfig where
  toFun
    | (label, mountOptions, subvolumes, ()) =>
      { label, mountOptions, subvolumes := Equiv.listEquivOfEquiv SubvolumeConfig.equiv subvolumes }
  invFun config :=
    (config.label, config.mountOptions,
      (Equiv.listEquivOfEquiv SubvolumeConfig.equiv).symm config.subvolumes, ())
  left_inv _ := by simp
  right_inv _ := by simp

@[reducible] def SwapConfig.fields : Fields := .of
  [("enabled", .bool), ("size_mb", .int), ("path", .str), ("hibernation", .bool)]

def SwapConfig.equiv : SwapConfig.fields.Value ≃ SwapConfig where
  toFun | (enabled, sizeMb, path, hibernation, ()) => { enabled, sizeMb, path, hibernation }
  invFun config := (config.enabled, config.sizeMb, config.path, config.hibernation, ())
  left_inv _ := rfl
  right_inv _ := rfl

@[reducible] def StorageConfig.fields : Fields := .of
  [("target_disk", .str), ("efi_size_mb", .int), ("wipe_method", .enum WipeMethod.enumType),
    ("luks", .dataclass LuksConfig.fields), ("btrfs", .dataclass BtrfsConfig.fields),
    ("swap", .dataclass SwapConfig.fields)]

def StorageConfig.equiv : StorageConfig.fields.Value ≃ StorageConfig where
  toFun
    | (targetDisk, efiSizeMb, wipeMethod, luks, btrfs, swap, ()) =>
      { targetDisk, efiSizeMb, wipeMethod, luks := LuksConfig.equiv luks,
        btrfs := BtrfsConfig.equiv btrfs, swap := SwapConfig.equiv swap }
  invFun config :=
    (config.targetDisk, config.efiSizeMb, config.wipeMethod, LuksConfig.equiv.symm config.luks,
      BtrfsConfig.equiv.symm config.btrfs, SwapConfig.equiv.symm config.swap, ())
  left_inv _ := by simp
  right_inv _ := by simp

@[reducible] def KernelConfig.fields : Fields := .of [("name", .str), ("package", .str)]

def KernelConfig.equiv : KernelConfig.fields.Value ≃ KernelConfig where
  toFun | (name, package, ()) => { name, package }
  invFun config := (config.name, config.package, ())
  left_inv _ := rfl
  right_inv _ := rfl

@[reducible] def UkiVariantConfig.fields : Fields := .of [("suffix", .str), ("params", .str)]

def UkiVariantConfig.equiv : UkiVariantConfig.fields.Value ≃ UkiVariantConfig where
  toFun | (suffix, params, ()) => { suffix, params }
  invFun config := (config.suffix, config.params, ())
  left_inv _ := rfl
  right_inv _ := rfl

@[reducible] def CmdlineHardeningConfig.fields : Fields := .of
  [("lockdown", .str), ("iommu", .str), ("intel_iommu", .str), ("amd_iommu", .str), ("pti", .str),
    ("spectre_v2", .str), ("spec_store_bypass_disable", .str), ("l1tf", .str), ("mds", .str),
    ("srbds", .str), ("tsx_async_abort", .str), ("init_on_alloc", .int), ("init_on_free", .int)]

def CmdlineHardeningConfig.equiv : CmdlineHardeningConfig.fields.Value ≃ CmdlineHardeningConfig where
  toFun
    | (lockdown, iommu, intelIommu, amdIommu, pti, spectreV2, specStoreBypassDisable, l1tf, mds,
        srbds, tsxAsyncAbort, initOnAlloc, initOnFree, ()) =>
      { lockdown, iommu, intelIommu, amdIommu, pti, spectreV2, specStoreBypassDisable, l1tf, mds,
        srbds, tsxAsyncAbort, initOnAlloc, initOnFree }
  invFun config :=
    (config.lockdown, config.iommu, config.intelIommu, config.amdIommu, config.pti,
      config.spectreV2, config.specStoreBypassDisable, config.l1tf, config.mds, config.srbds,
      config.tsxAsyncAbort, config.initOnAlloc, config.initOnFree, ())
  left_inv _ := rfl
  right_inv _ := rfl

@[reducible] def CmdlineConfig.fields : Fields := .of
  [("rootflags", .str), ("rootfstype", .str), ("rw", .bool), ("quiet", .bool),
    ("hardening", .dataclass CmdlineHardeningConfig.fields)]

def CmdlineConfig.equiv : CmdlineConfig.fields.Value ≃ CmdlineConfig where
  toFun
    | (rootflags, rootfstype, rw, quiet, hardening, ()) =>
      { rootflags, rootfstype, rw, quiet, hardening := CmdlineHardeningConfig.equiv hardening }
  invFun config :=
    (config.rootflags, config.rootfstype, config.rw, config.quiet,
      CmdlineHardeningConfig.equiv.symm config.hardening, ())
  left_inv _ := by simp
  right_inv _ := by simp

@[reducible] def LoaderConfig.fields : Fields := .of
  [("timeout", .int), ("console_mode", .str), ("editor", .bool)]

def LoaderConfig.equiv : LoaderConfig.fields.Value ≃ LoaderConfig where
  toFun | (timeout, consoleMode, editor, ()) => { timeout, consoleMode, editor }
  invFun config := (config.timeout, config.consoleMode, config.editor, ())
  left_inv _ := rfl
  right_inv _ := rfl

@[reducible] def SecureBootConfig.fields : Fields := .of
  [("enroll_keys", .bool), ("include_microsoft_keys", .bool)]

def SecureBootConfig.equiv : SecureBootConfig.fields.Value ≃ SecureBootConfig where
  toFun | (enrollKeys, includeMicrosoftKeys, ()) => { enrollKeys, includeMicrosoftKeys }
  invFun config := (config.enrollKeys, config.includeMicrosoftKeys, ())
  left_inv _ := rfl
  right_inv _ := rfl

@[reducible] def BootConfig.fields : Fields := .of
  [("kernels", .tuple (.dataclass KernelConfig.fields)), ("selected_kernels", .tuple .str),
    ("variants", .tuple (.dataclass UkiVariantConfig.fields)),
    ("cmdline", .dataclass CmdlineConfig.fields), ("loader", .dataclass LoaderConfig.fields),
    ("hooks", .tuple .str), ("secure_boot", .dataclass SecureBootConfig.fields),
    ("enable_snapshot_boot", .bool)]

def BootConfig.equiv : BootConfig.fields.Value ≃ BootConfig where
  toFun
    | (kernels, selectedKernels, variants, cmdline, loader, hooks, secureBoot, enableSnapshotBoot,
        ()) =>
      { kernels := Equiv.listEquivOfEquiv KernelConfig.equiv kernels, selectedKernels,
        variants := Equiv.listEquivOfEquiv UkiVariantConfig.equiv variants,
        cmdline := CmdlineConfig.equiv cmdline, loader := LoaderConfig.equiv loader, hooks,
        secureBoot := SecureBootConfig.equiv secureBoot, enableSnapshotBoot }
  invFun config :=
    ((Equiv.listEquivOfEquiv KernelConfig.equiv).symm config.kernels, config.selectedKernels,
      (Equiv.listEquivOfEquiv UkiVariantConfig.equiv).symm config.variants,
      CmdlineConfig.equiv.symm config.cmdline, LoaderConfig.equiv.symm config.loader, config.hooks,
      SecureBootConfig.equiv.symm config.secureBoot, config.enableSnapshotBoot, ())
  left_inv _ := by simp
  right_inv _ := by simp

@[reducible] def DesktopPackages.fields : Fields := .of
  [("kde", .tuple .str), ("gnome", .tuple .str), ("hyprland", .tuple .str)]

def DesktopPackages.equiv : DesktopPackages.fields.Value ≃ DesktopPackages where
  toFun | (kde, gnome, hyprland, ()) => { kde, gnome, hyprland }
  invFun config := (config.kde, config.gnome, config.hyprland, ())
  left_inv _ := rfl
  right_inv _ := rfl

@[reducible] def PackagesConfig.fields : Fields := .of
  [("base", .tuple .str), ("desktops", .dataclass DesktopPackages.fields),
    ("selected_desktops", .tuple (.enum Desktop.enumType)), ("display_manager", .tuple .str),
    ("cataloged", .tuple .str)]

def PackagesConfig.equiv : PackagesConfig.fields.Value ≃ PackagesConfig where
  toFun
    | (base, desktops, selectedDesktops, displayManager, cataloged, ()) =>
      { base, desktops := DesktopPackages.equiv desktops, selectedDesktops, displayManager,
        cataloged }
  invFun config :=
    (config.base, DesktopPackages.equiv.symm config.desktops, config.selectedDesktops,
      config.displayManager, config.cataloged, ())
  left_inv _ := by simp
  right_inv _ := by simp

@[reducible] def GpuDriverPackages.fields : Fields := .of
  [("amd", .tuple .str), ("intel", .tuple .str), ("nouveau", .tuple .str),
    ("nvidia_dkms", .tuple .str), ("nvidia_open", .tuple .str)]

def GpuDriverPackages.equiv : GpuDriverPackages.fields.Value ≃ GpuDriverPackages where
  toFun
    | (amd, intel, nouveau, nvidiaDkms, nvidiaOpen, ()) =>
      { amd, intel, nouveau, nvidiaDkms, nvidiaOpen }
  invFun config :=
    (config.amd, config.intel, config.nouveau, config.nvidiaDkms, config.nvidiaOpen, ())
  left_inv _ := rfl
  right_inv _ := rfl

@[reducible] def GpuConfig.fields : Fields := .of
  [("vendor", .enum GpuVendor.enumType), ("driver", .enum GpuDriver.enumType),
    ("drivers", .dataclass GpuDriverPackages.fields)]

def GpuConfig.equiv : GpuConfig.fields.Value ≃ GpuConfig where
  toFun
    | (vendor, driver, drivers, ()) =>
      { vendor, driver, drivers := GpuDriverPackages.equiv drivers }
  invFun config := (config.vendor, config.driver, GpuDriverPackages.equiv.symm config.drivers, ())
  left_inv _ := by simp
  right_inv _ := by simp

@[reducible] def SnapshotRetention.fields : Fields := .of
  [("hourly", .int), ("daily", .int), ("weekly", .int), ("monthly", .int), ("yearly", .int)]

def SnapshotRetention.equiv : SnapshotRetention.fields.Value ≃ SnapshotRetention where
  toFun | (hourly, daily, weekly, monthly, yearly, ()) => { hourly, daily, weekly, monthly, yearly }
  invFun config := (config.hourly, config.daily, config.weekly, config.monthly, config.yearly, ())
  left_inv _ := rfl
  right_inv _ := rfl

@[reducible] def SnapperVolumeConfig.fields : Fields := .of
  [("subvolume", .str), ("snapshots_subvolume", .str), ("snapshots_path", .str),
    ("timeline", .bool), ("cleanup", .bool), ("number_limit", .int),
    ("number_limit_important", .int), ("retention", .dataclass SnapshotRetention.fields)]

def SnapperVolumeConfig.equiv : SnapperVolumeConfig.fields.Value ≃ SnapperVolumeConfig where
  toFun
    | (subvolume, snapshotsSubvolume, snapshotsPath, timeline, cleanup, numberLimit,
        numberLimitImportant, retention, ()) =>
      { subvolume, snapshotsSubvolume, snapshotsPath, timeline, cleanup, numberLimit,
        numberLimitImportant, retention := SnapshotRetention.equiv retention }
  invFun config :=
    (config.subvolume, config.snapshotsSubvolume, config.snapshotsPath, config.timeline,
      config.cleanup, config.numberLimit, config.numberLimitImportant,
      SnapshotRetention.equiv.symm config.retention, ())
  left_inv _ := by simp
  right_inv _ := by simp

@[reducible] def SnapperConfig.fields : Fields := .of
  [("enabled", .bool), ("allow_groups", .tuple .str),
    ("root", .optional (.dataclass SnapperVolumeConfig.fields)),
    ("home", .optional (.dataclass SnapperVolumeConfig.fields)), ("snap_pac", .bool),
    ("bootable_snapshot_count", .int)]

def SnapperConfig.equiv : SnapperConfig.fields.Value ≃ SnapperConfig where
  toFun
    | (enabled, allowGroups, root, home, snapPac, bootableSnapshotCount, ()) =>
      { enabled, allowGroups, root := Equiv.optionCongr SnapperVolumeConfig.equiv root,
        home := Equiv.optionCongr SnapperVolumeConfig.equiv home, snapPac, bootableSnapshotCount }
  invFun config :=
    (config.enabled, config.allowGroups,
      (Equiv.optionCongr SnapperVolumeConfig.equiv).symm config.root,
      (Equiv.optionCongr SnapperVolumeConfig.equiv).symm config.home, config.snapPac,
      config.bootableSnapshotCount, ())
  left_inv _ := by simp only [Equiv.symm_apply_apply]
  right_inv _ := by simp

@[reducible] def NotificationsConfig.fields : Fields := .of [("enabled", .bool)]

def NotificationsConfig.equiv : NotificationsConfig.fields.Value ≃ NotificationsConfig where
  toFun | (enabled, ()) => { enabled }
  invFun config := (config.enabled, ())
  left_inv _ := rfl
  right_inv _ := rfl

@[reducible] def FirewallSshConfig.fields : Fields := .of
  [("enabled", .bool), ("port", .int), ("allowed_from", .str)]

def FirewallSshConfig.equiv : FirewallSshConfig.fields.Value ≃ FirewallSshConfig where
  toFun | (enabled, port, allowedFrom, ()) => { enabled, port, allowedFrom }
  invFun config := (config.enabled, config.port, config.allowedFrom, ())
  left_inv _ := rfl
  right_inv _ := rfl

@[reducible] def FirewallAllowRule.fields : Fields := .of [("port", .int), ("protocol", .str)]

def FirewallAllowRule.equiv : FirewallAllowRule.fields.Value ≃ FirewallAllowRule where
  toFun | (port, protocol, ()) => { port, protocol }
  invFun config := (config.port, config.protocol, ())
  left_inv _ := rfl
  right_inv _ := rfl

@[reducible] def FirewallConfig.fields : Fields := .of
  [("enabled", .bool), ("default_incoming", .enum FirewallPolicy.enumType),
    ("default_outgoing", .enum FirewallPolicy.enumType), ("logging", .bool), ("block_icmp", .bool),
    ("ssh", .dataclass FirewallSshConfig.fields),
    ("allow_rules", .tuple (.dataclass FirewallAllowRule.fields))]

def FirewallConfig.equiv : FirewallConfig.fields.Value ≃ FirewallConfig where
  toFun
    | (enabled, defaultIncoming, defaultOutgoing, logging, blockIcmp, ssh, allowRules, ()) =>
      { enabled, defaultIncoming, defaultOutgoing, logging, blockIcmp,
        ssh := FirewallSshConfig.equiv ssh,
        allowRules := Equiv.listEquivOfEquiv FirewallAllowRule.equiv allowRules }
  invFun config :=
    (config.enabled, config.defaultIncoming, config.defaultOutgoing, config.logging,
      config.blockIcmp, FirewallSshConfig.equiv.symm config.ssh,
      (Equiv.listEquivOfEquiv FirewallAllowRule.equiv).symm config.allowRules, ())
  left_inv _ := by simp
  right_inv _ := by simp

@[reducible] def DockerConfig.fields : Fields := .of
  [("enabled", .bool), ("storage_driver", .str), ("data_root", .str), ("access_group", .str)]

def DockerConfig.equiv : DockerConfig.fields.Value ≃ DockerConfig where
  toFun
    | (enabled, storageDriver, dataRoot, accessGroup, ()) =>
      { enabled, storageDriver, dataRoot, accessGroup }
  invFun config := (config.enabled, config.storageDriver, config.dataRoot, config.accessGroup, ())
  left_inv _ := rfl
  right_inv _ := rfl

@[reducible] def BackupItemConfig.fields : Fields := .of
  [("name", .str), ("source_path", .str), ("description", .str)]

def BackupItemConfig.equiv : BackupItemConfig.fields.Value ≃ BackupItemConfig where
  toFun | (name, sourcePath, description, ()) => { name, sourcePath, description }
  invFun config := (config.name, config.sourcePath, config.description, ())
  left_inv _ := rfl
  right_inv _ := rfl

@[reducible] def SyncConfig.fields : Fields := .of
  [("backup_partition", .str), ("backup_items", .tuple (.dataclass BackupItemConfig.fields)),
    ("backup_categories", .tuple (.enum BackupCategory.enumType))]

def SyncConfig.equiv : SyncConfig.fields.Value ≃ SyncConfig where
  toFun
    | (backupPartition, backupItems, backupCategories, ()) =>
      { backupPartition, backupItems := Equiv.listEquivOfEquiv BackupItemConfig.equiv backupItems,
        backupCategories }
  invFun config :=
    (config.backupPartition,
      (Equiv.listEquivOfEquiv BackupItemConfig.equiv).symm config.backupItems,
      config.backupCategories, ())
  left_inv _ := by simp
  right_inv _ := by simp

@[reducible] def MigrationConfig.fields : Fields := .of
  [("enabled", .bool), ("preserve_home", .bool), ("preserve_secure_boot_keys", .bool),
    ("additional_paths", .tuple .str)]

def MigrationConfig.equiv : MigrationConfig.fields.Value ≃ MigrationConfig where
  toFun
    | (enabled, preserveHome, preserveSecureBootKeys, additionalPaths, ()) =>
      { enabled, preserveHome, preserveSecureBootKeys, additionalPaths }
  invFun config :=
    (config.enabled, config.preserveHome, config.preserveSecureBootKeys, config.additionalPaths, ())
  left_inv _ := rfl
  right_inv _ := rfl

@[reducible] def UsbBootConfig.fields : Fields := .of
  [("enabled", .bool), ("device", .str), ("recovery_system", .bool), ("iso_path", .str)]

def UsbBootConfig.equiv : UsbBootConfig.fields.Value ≃ UsbBootConfig where
  toFun
    | (enabled, device, recoverySystem, isoPath, ()) => { enabled, device, recoverySystem, isoPath }
  invFun config := (config.enabled, config.device, config.recoverySystem, config.isoPath, ())
  left_inv _ := rfl
  right_inv _ := rfl

@[reducible] def EncryptedSecretsConfig.fields : Fields := .of
  [("luks_password_encrypted", .str), ("user_password_encrypted", .str)]

def EncryptedSecretsConfig.equiv : EncryptedSecretsConfig.fields.Value ≃ EncryptedSecretsConfig where
  toFun
    | (luksPasswordEncrypted, userPasswordEncrypted, ()) =>
      { luksPasswordEncrypted, userPasswordEncrypted }
  invFun config := (config.luksPasswordEncrypted, config.userPasswordEncrypted, ())
  left_inv _ := rfl
  right_inv _ := rfl

@[reducible] def Credentials.fields : Fields := .of
  [("luks_password", .str), ("user_password", .str), ("source_luks_password", .str)]

def Credentials.equiv : Credentials.fields.Value ≃ Credentials where
  toFun
    | (luksPassword, userPassword, sourceLuksPassword, ()) =>
      { luksPassword, userPassword, sourceLuksPassword }
  invFun config := (config.luksPassword, config.userPassword, config.sourceLuksPassword, ())
  left_inv _ := rfl
  right_inv _ := rfl

@[reducible] def InstallerConfig.fields : Fields := .of
  [("system", .dataclass SystemConfig.fields), ("packages", .dataclass PackagesConfig.fields),
    ("storage", .dataclass StorageConfig.fields), ("boot", .dataclass BootConfig.fields),
    ("gpu", .dataclass GpuConfig.fields), ("snapper", .dataclass SnapperConfig.fields),
    ("firewall", .dataclass FirewallConfig.fields), ("docker", .dataclass DockerConfig.fields),
    ("notifications", .dataclass NotificationsConfig.fields),
    ("sync", .dataclass SyncConfig.fields), ("migration", .dataclass MigrationConfig.fields),
    ("usb_boot", .dataclass UsbBootConfig.fields),
    ("secrets", .dataclass EncryptedSecretsConfig.fields),
    ("credentials", .dataclass Credentials.fields)]

def InstallerConfig.equiv : InstallerConfig.fields.Value ≃ InstallerConfig where
  toFun
    | (system, packages, storage, boot, gpu, snapper, firewall, docker, notifications, sync,
        migration, usbBoot, secrets, credentials, ()) =>
      { system := SystemConfig.equiv system, packages := PackagesConfig.equiv packages,
        storage := StorageConfig.equiv storage, boot := BootConfig.equiv boot,
        gpu := GpuConfig.equiv gpu, snapper := SnapperConfig.equiv snapper,
        firewall := FirewallConfig.equiv firewall, docker := DockerConfig.equiv docker,
        notifications := NotificationsConfig.equiv notifications, sync := SyncConfig.equiv sync,
        migration := MigrationConfig.equiv migration, usbBoot := UsbBootConfig.equiv usbBoot,
        secrets := EncryptedSecretsConfig.equiv secrets,
        credentials := Credentials.equiv credentials }
  invFun config :=
    (SystemConfig.equiv.symm config.system, PackagesConfig.equiv.symm config.packages,
      StorageConfig.equiv.symm config.storage, BootConfig.equiv.symm config.boot,
      GpuConfig.equiv.symm config.gpu, SnapperConfig.equiv.symm config.snapper,
      FirewallConfig.equiv.symm config.firewall, DockerConfig.equiv.symm config.docker,
      NotificationsConfig.equiv.symm config.notifications, SyncConfig.equiv.symm config.sync,
      MigrationConfig.equiv.symm config.migration, UsbBootConfig.equiv.symm config.usbBoot,
      EncryptedSecretsConfig.equiv.symm config.secrets, Credentials.equiv.symm config.credentials,
      ())
  left_inv _ := by simp
  right_inv _ := by simp
end ArchInstaller
