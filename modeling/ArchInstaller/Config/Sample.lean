import ArchInstaller.Config.Models

/-! # A sample configuration

The shape of the shipped `config.yaml` with shorter lists, for runs on concrete machines. -/

namespace ArchInstaller

def sampleSystem : SystemConfig where
  hostname := "archrog"
  timezone := "Europe/Paris"
  locale :=
    { language := "en_US", encoding := "UTF-8", keymap := "us", monetary := "fr_FR.UTF-8",
      timeFormat := "fr_FR.UTF-8", numeric := "en_US.UTF-8", paper := "fr_FR.UTF-8" }
  user := { name := "user", groups := ["wheel"] }
  mirrors := { mirrors := [], useReflector := false, reflectorCountries := [] }
  cpuVendor := .amd

def sampleStorage : StorageConfig where
  targetDisk := "/dev/sda"
  efiSizeMb := 2048
  wipeMethod := .quick
  luks :=
    { type := "luks2", cipher := "aes-xts-plain64", keySize := 512, hash := "sha512",
      pbkdf := "argon2id", pbkdfMemory := 1048576, pbkdfParallel := 4, pbkdfTimeMs := 4000 }
  btrfs :=
    { label := "archroot", mountOptions := "compress=zstd,noatime",
      subvolumes :=
        [{ name := "@", mountpoint := "/", nocow := false },
          { name := "@home", mountpoint := "/home", nocow := false }] }
  swap := { enabled := false, sizeMb := 4096, path := "/.swap/swapfile", hibernation := false }

def sampleBoot : BootConfig where
  kernels := [{ name := "mainline", package := "linux" }]
  selectedKernels := []
  variants := []
  cmdline :=
    { rootflags := "subvol=@", rootfstype := "btrfs", rw := true, quiet := true,
      hardening :=
        { lockdown := "integrity", iommu := "force", intelIommu := "on",
          amdIommu := "force_isolation", pti := "on", spectreV2 := "on",
          specStoreBypassDisable := "on", l1tf := "full,force", mds := "full,nosmt", srbds := "on",
          tsxAsyncAbort := "full,nosmt", initOnAlloc := 1, initOnFree := 1 } }
  loader := { timeout := 20, consoleMode := "max", editor := false }
  hooks := ["systemd", "sd-encrypt", "filesystems"]
  secureBoot := { enrollKeys := false, includeMicrosoftKeys := false }
  enableSnapshotBoot := false

def sampleConfig : InstallerConfig where
  system := sampleSystem
  packages :=
    { base := ["base", "linux"], desktops := { kde := [], gnome := [], hyprland := [] },
      selectedDesktops := [], displayManager := [], cataloged := [] }
  storage := sampleStorage
  boot := sampleBoot
  gpu :=
    { vendor := .none, driver := .vendorDefault,
      drivers := { amd := [], intel := [], nouveau := [], nvidiaDkms := [], nvidiaOpen := [] } }
  snapper :=
    { enabled := false, allowGroups := [], root := none, home := none, snapPac := false,
      bootableSnapshotCount := 0 }
  firewall :=
    { enabled := false, defaultIncoming := .deny, defaultOutgoing := .allow, logging := false,
      blockIcmp := false, ssh := { enabled := false, port := 22, allowedFrom := "" },
      allowRules := [] }
  docker := { enabled := false, storageDriver := "btrfs", dataRoot := "/var/lib/docker",
              accessGroup := "docker" }
  notifications := { enabled := false }
  sync := { backupPartition := "", backupItems := [], backupCategories := [] }
  migration :=
    { enabled := false, preserveHome := true, preserveSecureBootKeys := true,
      additionalPaths := [] }
  usbBoot := { enabled := false, device := "/dev/sdb", recoverySystem := false, isoPath := "" }
  secrets := { luksPasswordEncrypted := "", userPasswordEncrypted := "" }
  credentials :=
    { luksPassword := "new password", userPassword := "user password", sourceLuksPassword := "" }

/-- The method `secure`, with a USB boot drive. -/
def sampleUsbConfig : InstallerConfig :=
  { sampleConfig with
    storage := { sampleStorage with wipeMethod := .secure }
    usbBoot := { enabled := true, device := "/dev/sdb", recoverySystem := false, isoPath := "" } }

end ArchInstaller
