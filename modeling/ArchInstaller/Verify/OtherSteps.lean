import ArchInstaller.Core.Runs
import ArchInstaller.Installer
import ArchInstaller.World.Devices

/-! # The steps that leave the disks alone

Only the migration, USB boot drive and storage steps deal with block devices, LUKS volumes and the
staging directory. -/

namespace ArchInstaller

open Interaction PyText Script

/-- The commands that can change the staging directory. -/
def Command.stages : Command → Bool
  | rmRecursive path => path == stagingDirectory
  | cpArchive .. => true
  | _ => false

/-- A command that writes no block device, makes and opens no LUKS volume and leaves the staging
directory alone. -/
def Unrelated (invocation : Invocation) : Prop :=
  invocation.command.writes = [] ∧ invocation.command.usesVolume = false ∧
    invocation.command.stages = false

variable {config : InstallerConfig} {allowed : Invocation → CommandExecutionResult → Prop}

attribute [local simp] Unrelated Command.writes Command.usesVolume Command.stages in
theorem issues_pacmanMirrors :
    IssuesGiven allowed Unrelated (PacmanMirrorsStepExecutor.execute config) := by
  simp [PacmanMirrorsStepExecutor.execute, Unrelated, Command.writes, Command.usesVolume,
    Command.stages]

namespace PackagesStepExecutor

theorem issues_collectPackages : IssuesGiven allowed Unrelated (collectPackages config) := by
  simp [collectPackages, desktopPackages]

theorem issues_enableDisplayManager {displayManager : String} :
    IssuesGiven allowed Unrelated (enableDisplayManager displayManager) := by
  simp [enableDisplayManager, tryRunAsChroot_, Unrelated, Command.writes, Command.usesVolume,
    Command.stages]

theorem issues_execute : IssuesGiven allowed Unrelated (execute config) := by
  simp [execute, issues_collectPackages, createVconsoleConfig, fileExists, clearPacmanLocks,
    install, copyPacmanConfig, generateFstab, enableServices, issues_enableDisplayManager,
    runAsChroot_, tryRunAsChroot_, Unrelated, Command.writes, Command.usesVolume, Command.stages]

end PackagesStepExecutor

namespace SystemStepExecutor

theorem issues_execute : IssuesGiven allowed Unrelated (execute config) := by
  have hlocale : ∀ locale, IssuesGiven allowed Unrelated (enableLocale locale) := by
    simp [enableLocale, Unrelated, Command.writes, Command.usesVolume, Command.stages]
  simp [execute, hlocale, createUser, addUser, setUserPassword, runAsChroot_, tryRunAsChroot_,
    Unrelated, Command.writes, Command.usesVolume, Command.stages]

end SystemStepExecutor

namespace DockerStepExecutor

theorem issues_execute : IssuesGiven allowed Unrelated (execute config) := by
  have hgroup : ∀ username group, IssuesGiven allowed Unrelated (addToGroup username group) := by
    simp [addToGroup, runAsChroot_, Unrelated, Command.writes, Command.usesVolume, Command.stages]
  simp [execute, configure, hgroup, userGroups, runAsChroot_, tryRunAsChroot_, Unrelated,
    Command.writes, Command.usesVolume, Command.stages]

end DockerStepExecutor

theorem issues_gpuDriver : IssuesGiven allowed Unrelated (GpuDriverStepExecutor.execute config) := by
  simp [GpuDriverStepExecutor.execute, Unrelated, Command.writes, Command.usesVolume,
    Command.stages]

namespace FirewallStepExecutor

theorem issues_execute : IssuesGiven allowed Unrelated (execute config) := by
  have hrule : ∀ rule, IssuesGiven allowed Unrelated (deleteRule rule) := by
    simp [deleteRule, Unrelated, Command.writes, Command.usesVolume, Command.stages]
  simp [execute, setEnabledOnBoot, hrule, allowSsh, runAsChroot_, Unrelated, Command.writes,
    Command.usesVolume, Command.stages]

end FirewallStepExecutor

namespace KernelImagesStepExecutor

theorem issues_installedKernels {kernels : List String} :
    IssuesGiven allowed Unrelated (installedKernels kernels) := by
  induction kernels with
  | nil => simp [installedKernels]
  | cons kernel kernels ih =>
    simp [installedKernels, ih, fileExists, Unrelated, Command.writes, Command.usesVolume,
      Command.stages]

theorem issues_detachedHeader : IssuesGiven allowed Unrelated (detachedHeader config) := by
  simp [detachedHeader, findDetachedHeader, stableDiskPath, partitionUuid, Unrelated,
    Command.writes, Command.usesVolume, Command.stages]

theorem issues_swapfileResumeOffset :
    IssuesGiven allowed Unrelated (swapfileResumeOffset config) := by
  have hfilefrag : ∀ path, IssuesGiven allowed Unrelated (filefragOffset path) := by
    intro path
    simp only [filefragOffset, issues_bind, issues_query]
    refine ⟨by simp [Unrelated, Command.writes, Command.usesVolume, Command.stages],
      fun listing _ => ?_⟩
    split <;> simp
  simp [swapfileResumeOffset, hfilefrag, Unrelated, Command.writes, Command.usesVolume,
    Command.stages]

theorem issues_prepareSecureBoot : IssuesGiven allowed Unrelated (prepareSecureBoot config) := by
  have hmode : IssuesGiven allowed Unrelated isInSetupMode := by
    simp only [isInSetupMode, issues_bind, issues_query]
    refine ⟨by simp [Unrelated, Command.writes, Command.usesVolume, Command.stages],
      fun status _ => ?_⟩
    split <;> simp [Unrelated, Command.writes, Command.usesVolume, Command.stages]
  simp [prepareSecureBoot, hmode, fileExists, createKeys, enrollKeys, Unrelated, Command.writes,
    Command.usesVolume, Command.stages]

theorem issues_signIfExists {path : String} :
    IssuesGiven allowed Unrelated (signIfExists path) := by
  simp [signIfExists, fileExists, tryRunAsChroot_, Unrelated, Command.writes, Command.usesVolume,
    Command.stages]

theorem issues_writePreset {cmdline kernel : String} {variants : List UkiVariantConfig} :
    IssuesGiven allowed Unrelated (writePreset cmdline variants kernel) := by
  have hcmdline : ∀ variant, IssuesGiven allowed Unrelated (writeCmdline cmdline kernel variant) := by
    simp [writeCmdline, Unrelated, Command.writes, Command.usesVolume, Command.stages]
  simp [writePreset, hcmdline, Unrelated, Command.writes, Command.usesVolume, Command.stages]

theorem issues_execute : IssuesGiven allowed Unrelated (execute config) := by
  simp [execute, writeMkinitcpioConf, requireLuksUuid, detectLuksUuid, requireKernels,
    issues_installedKernels, issues_detachedHeader, issues_swapfileResumeOffset,
    buildKernelImages, issues_writePreset, issues_prepareSecureBoot, signUkis, fileExists,
    issues_signIfExists, runAsChroot_, Unrelated, Command.writes, Command.usesVolume,
    Command.stages]

end KernelImagesStepExecutor

theorem issues_bootloader : IssuesGiven allowed Unrelated (BootloaderStepExecutor.execute config) := by
  simp [BootloaderStepExecutor.execute, BootloaderStepExecutor.installOnUsbBootDrive,
    KernelImagesStepExecutor.issues_signIfExists, runAsChroot_, Unrelated, Command.writes,
    Command.usesVolume, Command.stages]

namespace RecoverySystemStepExecutor

theorem issues_signRootImage {buildDirectory : String} :
    IssuesGiven allowed Unrelated (signRootImage buildDirectory) := by
  have hsigning : (recoverySigningDirectory == stagingDirectory) = false := by decide
  simp [signRootImage, createSignature, hsigning, Unrelated, Command.writes, Command.usesVolume,
    Command.stages]

theorem issues_cleanUp :
    IssuesGiven allowed Unrelated (cleanUp s!"{targetRoot}{recoveryBuildDirectory}") := by
  have hbuild : (s!"{targetRoot}{recoveryBuildDirectory}" == stagingDirectory) = false := by decide
  simp only [cleanUp, issues_bind, issues_tryRun_unit, Unrelated, Command.writes,
    Command.usesVolume, Command.stages, hbuild]
  simp

theorem issues_execute : IssuesGiven allowed Unrelated (execute config) := by
  simp [execute, buildFromPartition, issues_signRootImage, buildUki, issues_cleanUp, signUki,
    fileExists, runAsChroot_, Unrelated, Command.writes, Command.usesVolume, Command.stages]

end RecoverySystemStepExecutor

namespace SnapperStepExecutor

theorem issues_configureVolume {name : String} {volume : SnapperVolumeConfig} :
    IssuesGiven allowed Unrelated (configureVolume config name volume) := by
  simp [configureVolume, prepareSnapshotsSubvolume, removeSnapshotsDirectory, isMountpoint,
    directoryExists, fileExists, Unrelated, Command.writes, Command.usesVolume, Command.stages]

theorem issues_execute : IssuesGiven allowed Unrelated (execute config) := by
  simp [execute, issues_configureVolume, configureSnapPac, runAsChroot_, Unrelated,
    Command.writes, Command.usesVolume, Command.stages]

end SnapperStepExecutor

namespace BootableSnapshotsStepExecutor

theorem issues_execute : IssuesGiven allowed Unrelated (execute config) := by
  have hkernel : IssuesGiven allowed Unrelated (preferredKernel config) := by
    unfold preferredKernel
    split <;> simp
  simp [execute, hkernel, runAsChroot_, Unrelated, Command.writes, Command.usesVolume,
    Command.stages]

end BootableSnapshotsStepExecutor

theorem issues_snapshotNotifications :
    IssuesGiven allowed Unrelated (SnapshotNotificationsStepExecutor.execute config) := by
  simp [SnapshotNotificationsStepExecutor.execute, runAsChroot_, Unrelated, Command.writes,
    Command.usesVolume, Command.stages]

theorem issues_usbBootSafeguards :
    IssuesGiven allowed Unrelated (UsbBootSafeguardsStepExecutor.execute config) := by
  simp [UsbBootSafeguardsStepExecutor.execute, UsbBootSafeguardsStepExecutor.mountEfiOnDemand,
    UsbBootSafeguardsStepExecutor.installUpdateGuard,
    UsbBootSafeguardsStepExecutor.installSnapshotCatchUp, partitionUuid, Unrelated,
    Command.writes, Command.usesVolume, Command.stages]

/-- The steps other than those of the migration, the USB boot drive and the storage. -/
def InstallStep.unrelated : InstallStep → Bool
  | migrationStaging | usbBootDrive | storage | migrationRestore => false
  | _ => true

theorem issues_unrelated {step : InstallStep} (h : step.unrelated) :
    IssuesGiven allowed Unrelated (step.execute config) := by
  cases step with
  | migrationStaging | usbBootDrive | storage | migrationRestore => cases h
  | pacmanMirrors =>
    rw [InstallStep.execute]
    exact issues_pacmanMirrors
  | packages =>
    rw [InstallStep.execute]
    exact PackagesStepExecutor.issues_execute
  | system =>
    rw [InstallStep.execute]
    exact SystemStepExecutor.issues_execute
  | docker =>
    rw [InstallStep.execute]
    exact DockerStepExecutor.issues_execute
  | gpuDriver =>
    rw [InstallStep.execute]
    exact issues_gpuDriver
  | kernelImages =>
    rw [InstallStep.execute]
    exact KernelImagesStepExecutor.issues_execute
  | bootloader =>
    rw [InstallStep.execute]
    exact issues_bootloader
  | recoverySystem =>
    rw [InstallStep.execute]
    exact RecoverySystemStepExecutor.issues_execute
  | snapper =>
    rw [InstallStep.execute]
    exact SnapperStepExecutor.issues_execute
  | bootableSnapshots =>
    rw [InstallStep.execute]
    exact BootableSnapshotsStepExecutor.issues_execute
  | snapshotNotifications =>
    rw [InstallStep.execute]
    exact issues_snapshotNotifications
  | firewall =>
    rw [InstallStep.execute]
    exact FirewallStepExecutor.issues_execute
  | usbBootSafeguards =>
    rw [InstallStep.execute]
    exact issues_usbBootSafeguards

/-! ## After the steps -/

/-- What `Installer.install` does after the steps. -/
def Installer.finish (safeDump : PlainValue → String) (config : InstallerConfig) : Script Unit := do
  installUtilityScripts
  writeExpectedState config
  writeFinalConfig safeDump config
  info (banner "Installation complete" "")

theorem Installer.issues_finish {safeDump : PlainValue → String} :
    IssuesGiven allowed Unrelated (Installer.finish safeDump config) := by
  have hscript : ∀ directory source name, IssuesGiven allowed Unrelated
      (Installer.installUtilityScript directory source name) := by
    simp [Installer.installUtilityScript, fileExists, Unrelated, Command.writes,
      Command.usesVolume, Command.stages]
  simp [Installer.finish, Installer.installUtilityScripts, hscript, Installer.writeExpectedState,
    Installer.writeFinalConfig, tryRunAsChroot_, Unrelated, Command.writes, Command.usesVolume,
    Command.stages]

end ArchInstaller
