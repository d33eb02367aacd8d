import ArchInstaller.Executors.System
import ArchInstaller.Executors.UsbBoot

/-! # Booting

`executors/boot.py` and `executors/recovery.py`: kernel images (UKIs built by mkinitcpio), Secure
Boot keys, systemd-boot, and the signed recovery UKI on the USB boot drive. -/

namespace ArchInstaller

open Interaction.Program (forEach onlyIf tryFinally)
open PyText Script

def ukiDirectory : String := "/efi/EFI/Linux"

/-- The UKI without extra kernel parameters always exists. -/
def plainVariant : UkiVariantConfig := { suffix := "default", params := "" }

def bootloaderBinaries : List String :=
  ["/efi/EFI/BOOT/BOOTX64.EFI", "/efi/EFI/systemd/systemd-bootx64.efi"]

/-- The LUKS header sits on the USB drive, so the initramfs must reach USB storage; "?" lets
mkinitcpio skip a module the kernel has built in. -/
def usbStorageInitramfsModules : List String :=
  ["xhci_pci?", "ehci_pci?", "ohci_pci?", "uhci_hcd?", "usb_storage?", "uas?", "sd_mod?"]

/-- The two devices that only unlock root together. -/
structure DetachedLuksHeader where
  encryptedDevicePath : String
  headerPartitionUuid : String

def mkinitcpioConf (hooks modules : List String) : String :=
  let moduleList := join " " modules
  let hookList := join " " hooks
  unlines
    ["# mkinitcpio configuration", "# generated by arch_installer", s!"MODULES=({moduleList})",
      "BINARIES=()", "FILES=()", s!"HOOKS=({hookList})"]

def ukiPath (kernel : String) (variant : UkiVariantConfig) : String :=
  s!"{ukiDirectory}/arch-{kernel}-{variant.suffix}.efi"

def cmdlineFile (kernel : String) (variant : UkiVariantConfig) : String :=
  s!"/etc/kernel/cmdline-{kernel}-{variant.suffix}"

/-- Preset names cannot contain dashes, the UKI file names keep them. -/
def presetName (variant : UkiVariantConfig) : String := replaceChar '-' "_" variant.suffix

def presetEntries (kernel : String) (variant : UkiVariantConfig) : List String :=
  let name := presetName variant
  [s!"{name}_uki=\"{ukiPath kernel variant}\"",
    s!"{name}_options=\"--splash /usr/share/systemd/bootctl/splash-arch.bmp " ++
      s!"--cmdline {cmdlineFile kernel variant}\""]

def kernelPreset (kernel : String) (variants : List UkiVariantConfig) : String :=
  let presetNames := join " " (("fallback" :: variants.map presetName).map fun name => s!"'{name}'")
  unlines
    ([s!"# mkinitcpio preset file for {kernel} (UKI)",
      "# generated by arch_installer",
      "ALL_config=\"/etc/mkinitcpio.conf\"",
      s!"ALL_kver=\"/boot/vmlinuz-{kernel}\"",
      "microcode=(/boot/*-ucode.img)",
      "",
      s!"PRESETS=({presetNames})",
      "",
      "# fallback initramfs for snapshot UKI generation",
      s!"fallback_image=\"/boot/initramfs-{kernel}.img\"",
      ""] ++ variants.flatMap (presetEntries kernel))

def loaderConf (loader : LoaderConfig) : String :=
  let editor := if loader.editor then "yes" else "no"
  unlines
    ["# systemd-boot loader configuration", "# generated by arch_installer",
      s!"timeout {loader.timeout}", s!"console-mode {loader.consoleMode}", s!"editor {editor}"]

/-- The kernel parameter of one hardening setting: an empty text or 0 leaves the kernel default in
place. -/
def hardeningParameter : String × PlainValue → Option String
  | (parameter, .text value) => if value == "" then none else some s!"{parameter}={value}"
  | (parameter, .int value) => if value == 0 then none else some s!"{parameter}={value}"
  | _ => none

def kernelCmdline (config : InstallerConfig) (luksUuid : String)
    (detachedHeader : Option DetachedLuksHeader) (resumeOffset : Option String) : String :=
  let cmdline := config.boot.cmdline
  let swap := config.storage.swap
  let resumes := swap.enabled && swap.hibernation
  join " "
    ([s!"rd.luks.name={luksUuid}={cryptrootMapperName}",
      s!"root={config.storage.cryptrootDevice}",
      if cmdline.rw then "rw" else "ro",
      s!"rootfstype={cmdline.rootfstype}",
      s!"rootflags={cmdline.rootflags}"] ++
    -- the LUKS UUID lives only in the header, so the data device is named explicitly
    (match detachedHeader with
      | some header =>
        [s!"rd.luks.data={luksUuid}={header.encryptedDevicePath}",
          s!"rd.luks.options={luksUuid}=" ++
            s!"header=/dev/disk/by-partuuid/{header.headerPartitionUuid}"]
      | none => []) ++
    (if cmdline.quiet then ["quiet"] else []) ++
    cmdline.hardening.parameters.filterMap hardeningParameter ++
    -- the swapfile lives on the encrypted btrfs, so resume goes through the mapper
    (if resumes then [s!"resume={config.storage.cryptrootDevice}"] else []) ++
    (match resumeOffset with
      | some offset => if resumes && offset != "" then [s!"resume_offset={offset}"] else []
      | none => []))

/-- Each configured variant other than the plain one adds a UKI per kernel. -/
def ukiVariants (config : InstallerConfig) : List UkiVariantConfig :=
  plainVariant :: config.boot.variants.filter fun variant => variant.suffix != plainVariant.suffix

namespace KernelImagesStepExecutor

variable (config : InstallerConfig)

/-- `[kernel for kernel in kernels if file_exists(runner, f"{TARGET_ROOT}/boot/vmlinuz-{kernel}")]`. -/
def installedKernels : List String → Script (List String)
  | [] => return []
  | kernel :: kernels => do
    let found ← fileExists s!"{targetRoot}/boot/vmlinuz-{kernel}"
    let others ← installedKernels kernels
    return if found then kernel :: others else others

/-- `_detached_header` with a USB boot drive. -/
def findDetachedHeader : Script DetachedLuksHeader := do
  let encryptedDevicePath ← stableDiskPath config.encryptedDevice
  if encryptedDevicePath == "" then
    raise (.runtime s!"{config.encryptedDevice} has no /dev/disk/by-id name")
  else
    let headerPartitionUuid ← partitionUuid config.usbBoot.luksHeaderPartition
    return { encryptedDevicePath, headerPartitionUuid }

def detachedHeader : Script (Option DetachedLuksHeader) :=
  if config.usbBoot.enabled then do return some (← findDetachedHeader config)
  else return none

/-- The physical offset in one line of `filefrag -v`, whose first extent line looks like
`   0:        0..   16383:     192512..    208895:  16384:`. -/
def extentOffset (line : String) : Option String :=
  match fields line with
  | _ :: _ :: _ :: field :: _ =>
    let physicalOffset := replaceChar ':' "" (replaceChar '.' "" field)
    if contains ".." line && !startsWith "ext:" (strip line) && isDigits physicalOffset then
      some physicalOffset
    else none
  | _ => none

def filefragOffset (swapPath : String) : Script (Option String) := do
  let filefrag ← query (.filefrag swapPath)
  match (split "\n" filefrag).findSome? extentOffset with
  | some offset => return some offset
  | none =>
    warning "Could not determine the swapfile offset, hibernation will not resume"
    return none

def swapfileResumeOffset : Script (Option String) := do
  let swap := config.storage.swap
  if !(swap.enabled && swap.hibernation) then return none
  else
    let swapPath := s!"{targetRoot}{swap.path}"
    let offset := strip (← query (.mapSwapfile swapPath))
    if offset != "" then return some offset else filefragOffset swapPath

/-- sbctl marks setup mode with a tick when it is disabled, so the words on its line count. -/
def reportedSetupMode (status : String) : Option Bool :=
  ((split "\n" status).find? fun line => contains "setup mode" (lower line)).map fun line =>
    contains "enabled" (lower line)

def isInSetupMode : Script Bool := do
  match reportedSetupMode (← query (.chroot .sbctlStatus)) with
  | some enabled => return enabled
  | none =>
    -- sbctl gave no answer, read the SetupMode efivar (last byte) directly
    let efivar ← tryRun (.chroot .readSetupMode)
    return efivar.success && strip efivar.stdout == "01"

def enrollKeys (includeMicrosoft : Bool) : Script Unit := do
  let enrollCommand :=
    if includeMicrosoft then "sbctl enroll-keys --microsoft" else "sbctl enroll-keys"
  info s!"Enrolling Secure Boot keys ({enrollCommand})..."
  let result ← tryRun (.chroot (.sbctlEnrollKeys enrollCommand))
  onlyIf (!result.success)
    (warning (s!"Key enrollment failed: {strip result.stderr}. Clear the firmware's Secure Boot " ++
      s!"keys (Setup Mode), then run: {enrollCommand}"))

/-- The branch of `_prepare_secure_boot` without a platform key. -/
def createKeys : Script Unit := do
  let created ← probe (.chroot .sbctlCreateKeys)
  onlyIf (!created) (warning "Could not create Secure Boot keys.")

def prepareSecureBoot : Script Unit := do
  let setupMode ← isInSetupMode
  onlyIf (!setupMode)
    (info "Secure Boot is not in Setup Mode: UKIs get signed, keys are not enrolled.")
  let keysExist ← fileExists s!"{targetRoot}{sbctlPkKey}"
  if keysExist then info "Secure boot keys already exist." else createKeys
  let secureBoot := config.boot.secureBoot
  onlyIf (setupMode && secureBoot.enrollKeys) (enrollKeys secureBoot.includeMicrosoftKeys)

/-- Sign a file inside the target if it exists; `-s` records it, so that sbctl's hooks re-sign
it. -/
def signIfExists (path : String) : Script Unit := do
  let found ← fileExists s!"{targetRoot}{path}"
  onlyIf found (tryRunAsChroot_ (.sbctlSign path))

def signUkis (kernels : List String) (variants : List UkiVariantConfig) : Script Unit := do
  if ← fileExists s!"{targetRoot}{sbctlDbKey}" then
    forEach kernels fun kernel =>
      forEach variants fun variant => signIfExists (ukiPath kernel variant)
  else info "Skipping UKI signing (no Secure Boot keys available)."

def writeCmdline (cmdline kernel : String) (variant : UkiVariantConfig) : Script Unit := do
  let fullCmdline := strip s!"{cmdline} {variant.params}"
  writeFile s!"{targetRoot}{cmdlineFile kernel variant}" s!"{fullCmdline}\n"

/-- The body of the loop over the kernels that writes their cmdlines and preset. -/
def writePreset (cmdline : String) (variants : List UkiVariantConfig) (kernel : String) :
    Script Unit := do
  forEach variants (writeCmdline cmdline kernel)
  writeFile s!"{targetRoot}/etc/mkinitcpio.d/{kernel}.preset" (kernelPreset kernel variants)

def initramfsModules : List String :=
  (if config.gpu.usesProprietaryNvidiaDriver then nvidiaInitramfsModules else []) ++
    if config.usbBoot.enabled then usbStorageInitramfsModules else []

def writeMkinitcpioConf : Script Unit := do
  writeFile s!"{targetRoot}/etc/mkinitcpio.conf"
    (mkinitcpioConf config.boot.hooks (initramfsModules config))
  run_ (.mkdir s!"{targetRoot}{ukiDirectory}")

def requireLuksUuid : Script String := do
  let luksUuid ← detectLuksUuid config.luksHeaderDevice
  if luksUuid == "" then raise (.runtime s!"No LUKS header on {config.luksHeaderDevice}")
  else return luksUuid

def requireKernels : Script (List String) := do
  let kernels ← installedKernels config.boot.kernelPackages
  if kernels.isEmpty then
    raise (.runtime s!"None of the kernels {PyText.reprTuple config.boot.kernelPackages} is installed")
  else return kernels

/-- The second half of `execute`, from the kernel command line on. -/
def buildKernelImages (kernels : List String) (cmdline : String) : Script Unit := do
  let variants := ukiVariants config
  run_ (.mkdir s!"{targetRoot}/etc/kernel")
  forEach kernels (writePreset cmdline variants)
  -- manage-snapshot-ukis builds the snapshot cmdlines from this one
  writeFile s!"{targetRoot}/etc/kernel/cmdline" s!"{cmdline}\n"
  info s!"Kernel cmdline: {cmdline}"
  prepareSecureBoot config
  info "Generating UKIs..."
  runAsChroot_ .mkinitcpio
  signUkis kernels variants

def execute : Script Unit := do
  writeMkinitcpioConf config
  let luksUuid ← requireLuksUuid config
  let kernels ← requireKernels config
  let kernelNames := join ", " kernels
  let suffixes := join ", " ((ukiVariants config).map (·.suffix))
  info s!"Kernels: {kernelNames}, UKI variants: {suffixes}"
  let header ← detachedHeader config
  let resumeOffset ← swapfileResumeOffset config
  buildKernelImages config kernels (kernelCmdline config luksUuid header resumeOffset)

end KernelImagesStepExecutor

namespace BootloaderStepExecutor

variable (config : InstallerConfig)

/-- The firmware starts the drive through its removable-media path, so the machine's NVRAM keeps
no boot entry and no system token pointing at it. -/
def installOnUsbBootDrive : Script Unit := do
  runAsChroot_ (.bootctlInstall " --variables=no --random-seed=no")
  runAsChroot_ (.systemctlMask "systemd-boot-random-seed.service")

def execute : Script Unit := do
  if config.usbBoot.enabled then installOnUsbBootDrive else runAsChroot_ (.bootctlInstall "")
  writeFile s!"{targetEfi}/loader/loader.conf" (loaderConf config.boot.loader)
  forEach bootloaderBinaries KernelImagesStepExecutor.signIfExists

end BootloaderStepExecutor

/-! ## The recovery system -/

def recoveryUki : String := "/efi/EFI/recovery/arch-recovery.efi"

def recoveryEntryPath : String := "/efi/loader/entries/arch-recovery.conf"

/-- Inside the target, where ukify runs; not /tmp, which arch-chroot replaces with a tmpfs. -/
def recoveryBuildDirectory : String := "/var/tmp/recovery-system"

/-- On the live system's tmpfs, so the signing key never reaches a disk. -/
def recoverySigningDirectory : String := "/run/dali/recovery-signing"

def signingCertificateDays : Nat := 36500

/-- The archiso hook checks against the second file when present, else the first. -/
def archisoCertificateFiles : String × String := ("codesign.crt", "codesign_CA.crt")

def certificateInitramfs : String := "codesign-initramfs.cpio"

def recoveryCmdline (recoveryFilesystemUuid : String) : String :=
  s!"archisobasedir={archisoDirectory} archisodevice=UUID={recoveryFilesystemUuid} cms_verify=y"

/-- The sort key places it after the system's own entries, which sort as "arch". -/
def recoveryEntry (liveSystemVersion : String) : String :=
  let ukiBelowEfi := removePrefix "/efi" recoveryUki
  unlines
    [s!"title    Arch Linux recovery ({liveSystemVersion})", "sort-key recovery",
      s!"efi      {ukiBelowEfi}"]

namespace RecoverySystemStepExecutor

variable (config : InstallerConfig)

def createSignature (rootImage : String) : Script Unit := do
  let signing := recoverySigningDirectory
  let certificate := s!"{signing}/{archisoCertificateFiles.1}"
  run_ (.opensslRequest s!"{signing}/key.pem" certificate signingCertificateDays)
  run_ (.opensslSign rootImage certificate s!"{signing}/key.pem")

def signRootImage (buildDirectory : String) : Script Unit := do
  let signing := recoverySigningDirectory
  let rootImage := s!"{recoveryMount}/{archisoRootImage}"
  run_ (.rmRecursive signing)
  run_ (.mkdirPrivate signing)
  tryFinally (createSignature rootImage) (tryRun_ (.rmForce s!"{signing}/key.pem"))
  run_ (.cp s!"{signing}/{archisoCertificateFiles.1}" s!"{signing}/{archisoCertificateFiles.2}")
  run_ (.bsdtarNewc s!"{buildDirectory}/{certificateInitramfs}" signing
    s!"{archisoCertificateFiles.1} {archisoCertificateFiles.2}")
  tryRun_ (.rmRecursive signing)

def buildUki (cmdline : String) : Script Unit := do
  let build := recoveryBuildDirectory
  run_ (.mkdir s!"{targetRoot}{beforeLastSlash recoveryUki}")
  -- the certificate image, loaded last, replaces the ISO's certificate
  runAsChroot_ (.ukify s!"{build}/{afterLastSlash archisoKernel}"
    [s!"{build}/{afterLastSlash archisoInitramfs}", s!"{build}/{certificateInitramfs}"] cmdline
    recoveryUki)

/-- What `execute` does while the recovery partition is mounted: it returns the version of the
live system. -/
def buildFromPartition (buildDirectory filesystemUuid : String) : Script String := do
  let liveSystemVersion := strip (← run (.cat s!"{recoveryMount}/{archisoVersionFile}")).stdout
  signRootImage buildDirectory
  forEach [archisoKernel, archisoInitramfs] fun bootFile =>
    run_ (.cp s!"{recoveryMount}/{bootFile}" s!"{buildDirectory}/")
  buildUki (recoveryCmdline filesystemUuid)
  return liveSystemVersion

def cleanUp (buildDirectory : String) : Script Unit := do
  tryRun_ (.umount recoveryMount)
  tryRun_ (.rmRecursive buildDirectory)

def signUki : Script Unit := do
  let keysExist ← fileExists s!"{targetRoot}{sbctlDbKey}"
  if keysExist then
    -- -s records the file, so sbctl's pacman hook re-signs it with the other binaries
    runAsChroot_ (.sbctlSign recoveryUki)
  else warning "No Secure Boot keys: the recovery UKI stays unsigned"

def execute : Script Unit := do
  let recoveryPartition := config.usbBoot.recoveryPartition
  info s!"Building the signed recovery system from {recoveryPartition}..."
  let filesystemUuid := strip (← run (.blkidUuid recoveryPartition)).stdout
  let buildDirectory := s!"{targetRoot}{recoveryBuildDirectory}"
  run_ (.mkdir s!"{recoveryMount} {buildDirectory}")
  run_ (.mountExt4 recoveryPartition recoveryMount)
  let liveSystemVersion ←
    tryFinally (buildFromPartition buildDirectory filesystemUuid) (cleanUp buildDirectory)
  writeFile s!"{targetRoot}{recoveryEntryPath}" (recoveryEntry liveSystemVersion)
  signUki

end RecoverySystemStepExecutor

end ArchInstaller
