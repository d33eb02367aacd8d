import ArchInstaller.Executors.Base

/-! # Mirrors and packages

`executors/mirrors.py` and `executors/packages.py`: the pacman mirrors of the live ISO, then the
packages of the new system (base system, kernels, microcode, desktops, GPU drivers) and its
fstab. -/

namespace ArchInstaller

open Interaction.Program (forEach onlyIf)
open PyText Script

def liveMirrorlist : String := "/etc/pacman.d/mirrorlist"

def mirrorlist (mirrors : List String) : String :=
  join "\n" ("# generated by arch_installer from system.mirrors" ::
    mirrors.map fun mirror => s!"Server = {mirror}") ++ "\n"

namespace PacmanMirrorsStepExecutor

def execute (config : InstallerConfig) : Script Unit := do
  let mirrors := config.system.mirrors
  if mirrors.useReflector then
    let countries := join "," mirrors.reflectorCountries
    info s!"Ranking mirrors with reflector ({countries})..."
    run_ (.reflector countries liveMirrorlist)
  else
    info s!"Using the {mirrors.mirrors.length} mirrors from config.yaml"
    writeFile liveMirrorlist (mirrorlist mirrors.mirrors)

end PacmanMirrorsStepExecutor

namespace PackagesStepExecutor

variable (config : InstallerConfig)

def microcodePackages : List (CpuVendor × String) := [(.amd, "amd-ucode"), (.intel, "intel-ucode")]

def withoutOtherMicrocode (packages : List String) : List String :=
  let cpuVendor := config.system.cpuVendor
  if cpuVendor == .unknown then packages
  else
    let unwanted := (microcodePackages.filter fun (vendor, _) => vendor != cpuVendor).map (·.2)
    packages.filter fun package => !unwanted.contains package

def withoutUnselectedKernels (packages : List String) : List String :=
  let boot := config.boot
  let unselected := (boot.kernels.map (·.package)).filter fun package =>
    !boot.kernelPackages.contains package
  let unwanted := unselected ++ unselected.map fun kernel => s!"{kernel}-headers"
  packages.filter fun package => !unwanted.contains package

def desktopPackages : Script (List String) := do
  let packages := config.packages
  let desktops := packages.selectedDesktops
  if desktops.isEmpty then return []
  else
    let names := join ", " (desktops.map Desktop.value)
    info s!"Desktops: {names}"
    return desktops.flatMap packages.desktops.packagesFor ++ packages.displayManager

def gpuPackages : List String :=
  let drivers := config.gpu.drivers
  match config.gpu.vendor, config.gpu.driver with
  | .amd, _ => drivers.amd
  | .intel, _ => drivers.intel
  | .nvidia, .nouveau => drivers.nouveau
  | .nvidia, .nvidiaOpen => drivers.nvidiaOpen
  | .nvidia, _ => drivers.nvidiaDkms
  | .none, _ => []

def collectPackages : Script (List String) := do
  let packages := withoutUnselectedKernels config
    (withoutOtherMicrocode config (config.packages.base ++ config.packages.cataloged))
  let desktops ← desktopPackages config
  -- keep the first occurrence, pacman rejects duplicate targets in some versions
  return (packages ++ desktops ++ gpuPackages config).eraseDups

/-- mkinitcpio's sd-vconsole hook runs during pacstrap and needs this file. -/
def createVconsoleConfig : Script Unit := do
  let vconsolePath := s!"{targetRoot}/etc/vconsole.conf"
  run_ (.mkdir s!"{targetRoot}/etc")
  let found ← fileExists vconsolePath
  onlyIf (!found) (writeFile vconsolePath s!"KEYMAP={config.system.locale.keymap}\n")

def clearPacmanLocks : Script Unit := do
  tryRun_ (.rmForce "/var/lib/pacman/db.lck")
  tryRun_ (.mkdir s!"{targetRoot}/var/lib/pacman")
  tryRun_ (.rmForce s!"{targetRoot}/var/lib/pacman/db.lck")

def install (packages : List String) : Script Unit := do
  let packageList := join " " packages
  -- an earlier run already bootstrapped the system: converge with pacman instead
  if ← fileExists s!"{targetRoot}/etc/os-release" then
    info "System already installed, updating packages instead of pacstrap..."
    tryRunAsChroot_ (.pacmanUpdate packageList)
  else run_ (.pacstrap targetRoot packageList)

def copyPacmanConfig : Script Unit := do
  let pacmanConf := s!"{targetRoot}/etc/pacman.conf"
  let found ← fileExists pacmanConf
  onlyIf (!found) (run_ (.cp "/etc/pacman.conf" pacmanConf))

def generateFstab : Script Unit := do
  let fstabPath := s!"{targetRoot}/etc/fstab"
  if ← probe (.grepEntries fstabPath) then info "fstab already has entries."
  else
    info "Generating fstab..."
    run_ (.genfstab targetRoot fstabPath)

/-- The body of the loop over the display managers. -/
def enableDisplayManager (displayManager : String) : Script Unit := do
  let installed ← probe (.chroot (.pacmanQuery displayManager))
  onlyIf installed (tryRunAsChroot_ (.systemctlEnable s!"{displayManager}.service"))

def enableServices : Script Unit := do
  runAsChroot_ (.systemctlEnable "NetworkManager.service")
  let openssh ← probe (.chroot (.pacmanQuery "openssh"))
  onlyIf openssh (runAsChroot_ (.systemctlEnable "sshd.service"))
  onlyIf (!config.packages.selectedDesktops.isEmpty)
    (forEach config.packages.displayManager enableDisplayManager)

def execute : Script Unit := do
  let packages ← collectPackages config
  info s!"Installing {packages.length} packages..."
  createVconsoleConfig config
  clearPacmanLocks
  install packages
  copyPacmanConfig
  generateFstab
  enableServices config

end PackagesStepExecutor

end ArchInstaller
