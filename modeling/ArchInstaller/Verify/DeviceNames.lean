import ArchInstaller.Installer
import ArchInstaller.Python.Digits
import ArchInstaller.Verify.UsbBootRuns

/-! # Two names of one disk

Where two device paths may name the same disk, cloning a drive onto itself and installing onto the
USB boot drive are refused exactly for equal texts: the checks compare the paths, and every later
check can pass for another name of the same disk. -/

namespace ArchInstaller

open Interaction PyText Script

/-- The script issues no command that writes a block device, and does not return. -/
def Refused {α : Type} (p : Script α) : Prop :=
  ∀ exchanges outcome, Runs p exchanges outcome →
    (∀ x ∈ exchanges, x.1.command.writes = []) ∧ ∀ value, outcome ≠ .returned value

/-- A command that writes no block device. -/
def WritesNothing (invocation : Invocation) : Prop := invocation.command.writes = []

theorem Refused.issues {α : Type} {p : Script α} (h : Refused p) : Issues WritesNothing p :=
  fun exchanges outcome _ hrun => (h exchanges outcome hrun).1

theorem refused_raise {α : Type} {error : InstallerError} : Refused (raise error : Script α) := by
  intro exchanges outcome hrun
  obtain ⟨rfl, rfl | rfl⟩ := runs_raise_iff.mp hrun <;> simp

/-- With any answers at all. -/
abbrev CanAlwaysReturn {α : Type} (p : Script α) (value : α) : Prop :=
  CanReturn (fun (_ : Invocation) (_ : CommandExecutionResult) => True) p value

/-! ## Checks that pass -/

def answering (stdout : String) : CommandExecutionResult := ⟨0, stdout, ""⟩

theorem canReturn_log {message : String} : CanAlwaysReturn (info message) () := canReturn_info

theorem canReturn_requireDisk {device : String} :
    CanAlwaysReturn (UsbDriveInspector.requireDisk device) () := by
  unfold UsbDriveInspector.requireDisk
  refine (canReturn_tryRun.mpr trivial : CanReturn _ _ (answering "disk")).bind ?_
  rw [if_neg (by decide)]
  refine (canReturn_tryRun.mpr trivial : CanReturn _ _ (answering "")).bind ?_
  simp

theorem canReturn_existingPartitions {device : String} :
    CanAlwaysReturn (UsbBootDriveCloner.existingPartitions device)
      ([1, 2, 3].map (derivePartitionPath device)) := by
  have hfound : ∀ path, CanAlwaysReturn (pathExists path) true := fun path => by
    simpa [pathExists] using ⟨answering "", rfl⟩
  simp [UsbBootDriveCloner.existingPartitions, UsbBootDriveCloner.existing, hfound]

/-! ## Cloning -/

namespace UsbBootDriveCloner

variable {source spare : String}

theorem canReturn_requireClonable (source spare : String) :
    ∃ partitions, CanAlwaysReturn (requireClonable source spare) partitions := by
  refine ⟨[1, 2, 3].map (derivePartitionPath source), ?_⟩
  unfold requireClonable
  refine canReturn_requireDisk.bind (canReturn_requireDisk.bind
    (canReturn_existingPartitions.bind ?_))
  have hheader : ∀ partition, CanAlwaysReturn (UsbDriveInspector.holdsLuksHeader partition) true :=
    fun partition => canReturn_probe.mpr ⟨answering "", trivial, rfl⟩
  have hunmounted : CanAlwaysReturn (run (.lsblkMountpoints spare)) (answering "") :=
    canReturn_run.mpr ⟨trivial, rfl⟩
  simp only [List.map_cons, List.length_cons, List.length_map, List.length_nil]
  refine (hheader _).bind (hunmounted.bind ?_)
  simp [answering, show strip "" = "" by decide]

theorem refused_clone_iff : Refused (clone source spare) ↔ source = spare := by
  constructor
  · intro h
    by_contra hnames
    have hissues := h.issues
    rw [clone, if_neg (by simpa using hnames)] at hissues
    obtain ⟨partitions, hpartitions⟩ := canReturn_requireClonable source spare
    have hcopy := hissues.of_bind hpartitions
    simp [copyDrive, WritesNothing, Command.writes] at hcopy
  · rintro rfl
    rw [clone, if_pos (by simp)]
    exact refused_raise

end UsbBootDriveCloner

/-! ## The staging of a migration, which writes no block device -/

namespace MigrationStagingStepExecutor

variable {config : InstallerConfig}

theorem canReturn_findLuksPartition (disk : String) :
    ∃ partition, CanAlwaysReturn (findLuksPartition disk) partition := by
  have hlisted : listedPartitions disk "sda1\nsda2" ≠ [] := by
    have hnames : (split "\n" "sda1\nsda2").map strip = ["sda1", "sda2"] := by decide
    rw [listedPartitions, hnames]
    by_cases hname : pathName disk = "sda1"
    · simp [hname]
    · simp [Ne.symm hname]
  obtain ⟨partition, partitions, hpartitions⟩ := List.exists_cons_of_ne_nil hlisted
  refine ⟨partition, ?_⟩
  have hlisting : CanAlwaysReturn (query (.lsblkNames disk)) "sda1\nsda2" :=
    canReturn_query.mpr ⟨answering "sda1\nsda2", trivial, rfl⟩
  refine hlisting.bind ?_
  rw [hpartitions, firstLuksPartition]
  have hluks : CanAlwaysReturn (probe (.cryptsetupIsLuks partition)) true :=
    canReturn_probe.mpr ⟨answering "", trivial, rfl⟩
  exact hluks.bind (by simp)

theorem canReturn_openAndMount {partition : String} :
    CanAlwaysReturn (openAndMount config partition) () := by
  have hopened : CanAlwaysReturn (tryRunWithInput (.cryptsetupOpen none partition oldMapperName)
      config.credentials.sourceLuksPassword) (answering "") :=
    canReturn_tryRunWithInput.mpr trivial
  have hmounted : CanAlwaysReturn (tryRun (.mountTopLevel s!"/dev/mapper/{oldMapperName}"
      oldMountDirectory)) (answering "") :=
    canReturn_tryRun.mpr trivial
  have hdirectory : CanAlwaysReturn (run_ (.mkdir oldMountDirectory)) () :=
    canReturn_run_unit.mpr ⟨answering "", trivial, rfl⟩
  exact hopened.bind (hdirectory.bind (hmounted.bind (by simp [answering,
    CommandExecutionResult.success])))

theorem canReturn_sizeMb {path : String} : CanAlwaysReturn (sizeMb path) 0 := by
  have houtput : CanAlwaysReturn (query (.diskUsage path)) "" :=
    canReturn_query.mpr ⟨answering "", trivial, rfl⟩
  exact houtput.bind (canReturn_pure.mpr (by decide))

theorem canReturn_ensureStagingSpace {existing : ExistingInstallInfo}
    (hsize : existing.homeSizeMb = 0) :
    CanAlwaysReturn (ensureStagingSpace config existing) () := by
  have hsizes : ∀ paths, CanAlwaysReturn (additionalSizeMb paths) 0 := by
    intro paths
    induction paths with
    | nil => simp [additionalSizeMb]
    | cons path paths ih => exact canReturn_sizeMb.bind (ih.bind (by simp))
  have hfree : CanAlwaysReturn (query (.diskFree (pathParent stagingDirectory))) "1000" :=
    canReturn_query.mpr ⟨answering "1000", trivial, rfl⟩
  refine (hsizes _).bind (hfree.bind (canReturn_log.bind ?_))
  have havailable : (if isDigits (strip ((split "\n" (strip "1000")).getLastD "")) then
      digitsValue (strip ((split "\n" (strip "1000")).getLastD "")).toList else 0) = 1000 := by
    decide
  simp only [havailable]
  simp [hsize, stagingHeadroomMb]

theorem canReturn_stageMountedSystem {disk partition : String} :
    CanAlwaysReturn (stageMountedSystem config disk partition) () := by
  have hinspect : CanAlwaysReturn (inspectMountedSystem disk partition)
      ⟨disk, partition, "", 0, ""⟩ := by
    have hlisting : CanAlwaysReturn (query (.subvolumeList oldMountDirectory)) "" :=
      canReturn_query.mpr ⟨answering "", trivial, rfl⟩
    have hkeys : CanAlwaysReturn findSecureBootDirectory "" := by
      have hmissing : ∀ path, CanAlwaysReturn (directoryExists path) false := fun path =>
        canReturn_probe.mpr ⟨⟨1, "", ""⟩, trivial, rfl⟩
      exact (hmissing _).bind ((hmissing _).bind (by simp))
    refine hlisting.bind ?_
    have hhome : homeSubvolumeOf "" = "" := by decide
    simp only [hhome, bne_self_eq_false, Bool.false_eq_true, if_false, pure_bind]
    exact hkeys.bind (by simp)
  have hcopy : CanAlwaysReturn (copyToStaging config ⟨disk, partition, "", 0, ""⟩) () := by
    have hmissing : ∀ path, CanAlwaysReturn (stageAdditionalPath path) () := by
      intro path
      have hfound : CanAlwaysReturn (pathExists (pathInOldRoot path)) false :=
        canReturn_probe.mpr ⟨⟨1, "", ""⟩, trivial, rfl⟩
      exact hfound.bind (by simp)
    have hdone : ∀ command, CanAlwaysReturn (run_ command) () := fun command =>
      canReturn_run_unit.mpr ⟨answering "", trivial, rfl⟩
    refine (hdone _).bind ((hdone _).bind ?_)
    simp only [bne_self_eq_false, Bool.and_false, Program.onlyIf, Bool.false_eq_true, if_false,
      pure_bind]
    exact .forEach fun path _ => hmissing path
  exact hinspect.bind (canReturn_log.bind ((canReturn_ensureStagingSpace rfl).bind hcopy))

theorem canReturn_execute : CanAlwaysReturn (execute config) () := by
  obtain ⟨partition, hpartition⟩ := canReturn_findLuksPartition config.storage.targetDisk
  have hclean : CanAlwaysReturn unmountAndClose () := by simp [unmountAndClose]
  refine hpartition.bind (canReturn_openAndMount.bind
    ((canReturn_stageMountedSystem.tryFinally hclean).bind ?_))
  simp

end MigrationStagingStepExecutor

/-! ## The USB boot drive step, up to its first write -/

namespace UsbBootDriveStepExecutor

variable {config : InstallerConfig}

theorem canReturn_requireDevices (hdevices : config.usbBoot.device ≠ config.storage.targetDisk) :
    CanAlwaysReturn (requireDevices config) () := by
  have hlinks : CanAlwaysReturn (stableDiskPath config.storage.targetDisk)
      "/dev/disk/by-id/wwn-1" := by
    have hlisted : CanAlwaysReturn (query (.readlinkById config.storage.targetDisk))
        "/dev/disk/by-id/wwn-1" :=
      canReturn_query.mpr ⟨answering "/dev/disk/by-id/wwn-1", trivial, rfl⟩
    exact hlisted.bind (canReturn_pure.mpr (by decide))
  unfold requireDevices
  rw [if_neg (by simpa using hdevices)]
  exact canReturn_requireDisk.bind (hlinks.bind (by simp))

theorem canReturn_keepsExistingDrive : CanAlwaysReturn (keepsExistingDrive config) false := by
  have hfails : ∀ command, CanAlwaysReturn (probe command) false := fun command =>
    canReturn_probe.mpr ⟨⟨1, "", ""⟩, trivial, rfl⟩
  have hlook : ∀ resuming, CanAlwaysReturn (lookForHeader config resuming) false := by
    intro resuming
    cases resuming with
    | false => exact canReturn_pure.mpr rfl
    | true => exact (hfails _).bind (by simp)
  rw [keepsExistingDrive_eq]
  exact (hfails _).bind (hlook _)

theorem canReturn_recoverySize (config : InstallerConfig) : ∃ size, CanAlwaysReturn
    (if config.usbBoot.recoverySystem then ArchIsoImage.sizeBytes ⟨config.usbBoot.isoPath⟩
      else pure 0) size := by
  have hread : ∀ text (offset length : Nat) (formatCommand : String),
      CanAlwaysReturn (ArchIsoImage.read ⟨config.usbBoot.isoPath⟩ offset length formatCommand)
        (strip text) := by
    intro text offset length formatCommand
    have hrun : CanAlwaysReturn (run (.ddRead config.usbBoot.isoPath offset length formatCommand))
        (answering text) :=
      canReturn_run.mpr ⟨trivial, rfl⟩
    exact hrun.bind (canReturn_pure.mpr rfl)
  have hnumber : ∀ offset length,
      CanAlwaysReturn (ArchIsoImage.readNumber ⟨config.usbBoot.isoPath⟩ offset length) 1 := by
    intro offset length
    refine (hread "1" _ _ _).bind ?_
    have hone : parseInt (strip "1") = some 1 := by decide
    simp [parseNumber, hone]
  have hlisted : ∀ command, CanAlwaysReturn (probe command) true := fun command =>
    canReturn_probe.mpr ⟨answering "", trivial, rfl⟩
  split
  · refine ⟨1 * 1, (hread iso9660Signature _ _ _).bind ?_⟩
    have hsignature : (strip iso9660Signature != iso9660Signature) = false := by decide
    rw [hsignature, if_neg Bool.false_ne_true]
    exact (hlisted _).bind ((hnumber _ _).bind ((hnumber _ _).bind (canReturn_pure.mpr rfl)))
  · exact ⟨0, canReturn_pure.mpr rfl⟩

theorem canReturn_requireCapacity {recoverySizeMb : Int} :
    CanAlwaysReturn (requireCapacity config recoverySizeMb) () := by
  obtain ⟨k, hk⟩ : ∃ k : Nat, partitionTableSizeMb + config.storage.efiSizeMb +
      luksHeaderPartitionSizeMb + recoverySizeMb ≤ (10 ^ k : Int) / mebibyte := by
    generalize partitionTableSizeMb + config.storage.efiSizeMb + luksHeaderPartitionSizeMb +
      recoverySizeMb = needed
    refine ⟨needed.toNat * (1024 * 1024), Int.le_ediv_of_mul_le (by decide) ?_⟩
    have hpower : needed.toNat * (1024 * 1024) < 10 ^ (needed.toNat * (1024 * 1024)) :=
      Nat.lt_pow_self (by decide)
    calc needed * mebibyte ≤ (needed.toNat * (1024 * 1024) : Nat) := by
          simp only [mebibyte]
          omega
      _ ≤ 10 ^ (needed.toNat * (1024 * 1024)) := by exact_mod_cast hpower.le
  have hdigits : ∀ c ∈ '1' :: List.replicate k '0', c.isDigit := by
    simp only [List.mem_cons, List.mem_replicate]
    rintro c (rfl | ⟨-, rfl⟩) <;> decide
  have hsize : CanAlwaysReturn (UsbDriveInspector.sizeBytes config.usbBoot.device) (10 ^ k) := by
    have hrun : CanAlwaysReturn (run (.blockdevSize config.usbBoot.device))
        (answering (powerOfTen k)) :=
      canReturn_run.mpr ⟨trivial, rfl⟩
    refine hrun.bind ?_
    have hnumber : parseInt (strip (powerOfTen k)) = some (10 ^ k) := by
      rw [powerOfTen, strip_digits hdigits, parseInt_digits hdigits (by simp),
        digitsValue_powerOfTen]
      simp
    simp [parseNumber, answering, hnumber]
  refine hsize.bind ?_
  simp [Int.not_lt.mpr hk]

/-- The step goes on to write the drive when its checks pass. -/
theorem execute_writes (hdevices : config.usbBoot.device ≠ config.storage.targetDisk) :
    ¬ Issues WritesNothing (execute config) := by
  intro h
  have hkeeps := (h.of_bind (canReturn_requireDevices hdevices)).of_bind
    canReturn_keepsExistingDrive
  simp only [Bool.not_false, Program.onlyIf, if_true] at hkeeps
  rw [prepareDrive_eq] at hkeeps
  obtain ⟨size, hsize⟩ := canReturn_recoverySize config
  have hrelease : CanAlwaysReturn (releaseDrive config) () := by simp [releaseDrive]
  have hpartition := (((hkeeps.of_bind hsize).of_bind canReturn_requireCapacity).of_bind
    canReturn_log).of_bind hrelease
  simp [partition, WritesNothing, Command.writes] at hpartition

end UsbBootDriveStepExecutor

/-! ## A whole installation -/

variable {config : InstallerConfig} {safeDump : PlainValue → String}

theorem validateForInstall_of_noProblems (h : installProblems config = []) :
    validateForInstall config = pure () := by
  simp [validateForInstall, h, Program.onlyIf]

theorem refused_of_problems (h : installProblems config ≠ []) :
    Refused (validateAndInstall safeDump config) := by
  have hraise : ∃ error, validateForInstall config = raise error := by
    simp [validateForInstall, h, Program.onlyIf]
  obtain ⟨error, hraise⟩ := hraise
  rw [validateAndInstall, hraise]
  exact refused_raise

theorem enabledSteps_usb (husb : config.usbBoot.enabled) : ∃ steps,
    Installer.enabledSteps config =
      (if config.migration.enabled then [.migrationStaging] else []) ++ .usbBootDrive :: steps := by
  rw [Installer.enabledSteps, installSteps, List.filter_cons,
    List.filter_cons_of_pos (by simpa [InstallStep.enabled] using husb)]
  cases hmigration : config.migration.enabled <;> simp [InstallStep.enabled, hmigration]

theorem runSteps_writes (hdevices : config.usbBoot.device ≠ config.storage.targetDisk)
    {count index : Nat} {steps : List InstallStep} :
    ¬ Issues WritesNothing (Installer.runSteps config count index (.usbBootDrive :: steps)) :=
  fun h => UsbBootDriveStepExecutor.execute_writes hdevices
    (issues_bind.mp (h.of_bind canReturn_log)).1

/-- The steps before the USB boot drive step return. -/
theorem install_writes (husb : config.usbBoot.enabled) (hproblems : installProblems config = [])
    (hdevices : config.usbBoot.device ≠ config.storage.targetDisk) :
    ¬ Issues WritesNothing (validateAndInstall safeDump config) := by
  intro h
  rw [validateAndInstall, validateForInstall_of_noProblems hproblems, pure_bind,
    Installer.install] at h
  have hsteps := (h.of_bind canReturn_log).of_bind
    (by simp [Installer.logSummary] : CanAlwaysReturn (Installer.logSummary config) ())
  obtain ⟨steps, henabled⟩ := enabledSteps_usb husb
  have hrun := (issues_bind.mp hsteps).1
  rw [henabled] at hrun
  split at hrun
  · exact runSteps_writes hdevices ((hrun.of_bind canReturn_log).of_bind
      MigrationStagingStepExecutor.canReturn_execute)
  · exact runSteps_writes hdevices hrun

theorem usbBootProblems_of_same (h : config.usbBoot.device = config.storage.targetDisk) :
    usbBootProblems config ≠ [] := by
  intro hnone
  rw [usbBootProblems, List.append_eq_nil_iff, List.append_eq_nil_iff] at hnone
  obtain ⟨⟨hdevice, -⟩, -⟩ := hnone
  split at hdevice
  · cases hdevice
  · rw [if_pos (by simpa using h)] at hdevice
    cases hdevice

theorem refused_install_iff (husb : config.usbBoot.enabled) :
    Refused (validateAndInstall safeDump config) ↔
      config.usbBoot.device = config.storage.targetDisk ∨ installProblems config ≠ [] := by
  constructor
  · intro h
    by_contra hnot
    rw [not_or, not_not] at hnot
    exact install_writes husb hnot.2 hnot.1 h.issues
  · rintro (hdevices | hproblems)
    · refine refused_of_problems fun hnone => ?_
      rw [installProblems, List.append_eq_nil_iff, if_pos husb] at hnone
      exact usbBootProblems_of_same hdevices hnone.2
    · exact refused_of_problems hproblems

/-- Whatever disks the paths name, cloning between two names of one disk is refused if and only if
they are the same text, and an installation whose drive and disk are one is refused if and only if
their names are the same text or another check of the configuration fails. -/
theorem refused_same_disk_iff {Disk : Type} (diskOf : String → Disk)
    (safeDump : PlainValue → String) :
    (∀ source spare, diskOf source = diskOf spare →
      (Refused (UsbBootDriveCloner.clone source spare) ↔ source = spare)) ∧
    ∀ config : InstallerConfig, config.usbBoot.enabled →
      diskOf config.usbBoot.device = diskOf config.storage.targetDisk →
      (Refused (validateAndInstall safeDump config) ↔
        config.usbBoot.device = config.storage.targetDisk ∨ installProblems config ≠ []) :=
  ⟨fun _ _ _ => UsbBootDriveCloner.refused_clone_iff, fun _ husb _ => refused_install_iff husb⟩

theorem refused_same_text :
    Refused (UsbBootDriveCloner.clone "/dev/sdb" "/dev/sdb") ∧
      Refused (validateAndInstall (fun _ => "")
        { sampleUsbConfig with usbBoot := { sampleUsbConfig.usbBoot with device := "/dev/sda" } }) :=
  ⟨((refused_same_disk_iff pathComponents fun _ => "").1 _ _ rfl).mpr rfl,
    ((refused_same_disk_iff pathComponents fun _ => "").2 _ rfl rfl).mpr (.inl rfl)⟩

/-! ## A path with a doubled slash -/

/-- A machine whose devices are all disks, with every file there and nothing mounted. -/
def anyDisk : Unit → Invocation → CommandExecutionResult × Unit
  | (), ⟨command, _, _⟩ =>
    (match command with
    | .lsblkType _ => answering "disk\n"
    | .readlinkById _ => answering "/dev/disk/by-id/wwn-0x5000c500a1b2c3d4\n"
    | .blockdevSize _ => answering "64000000000\n"
    | .mountpoint _ => ⟨1, "", ""⟩
    | _ => answering "", ())

/-- The drive is cloned onto itself, and the disk is prepared as the USB boot drive. -/
theorem doubled_slash_is_overwritten :
    let clone := simulate anyDisk (UsbBootDriveCloner.clone "/dev/sdb" "/dev//sdb") 100 ()
    let config : InstallerConfig :=
      { sampleUsbConfig with usbBoot := { sampleUsbConfig.usbBoot with device := "/dev//sda" } }
    let install := simulate anyDisk (validateAndInstall (fun _ => "") config) 20 ()
    pathComponents "/dev/sdb" = pathComponents "/dev//sdb" ∧
    Runs (UsbBootDriveCloner.clone "/dev/sdb" "/dev//sdb") clone.exchanges (.returned ()) ∧
    (∃ x ∈ clone.exchanges, x.1.command = .wipefs "/dev//sdb") ∧
    pathComponents config.usbBoot.device = pathComponents config.storage.targetDisk ∧
    Runs (validateAndInstall (fun _ => "") config) install.exchanges install.outcome ∧
    ∃ x ∈ install.exchanges, x.1.command = .wipefs "/dev//sda" := by
  intro clone config install
  have hreturned : clone.outcome = .returned () := by decide
  exact ⟨by decide, hreturned ▸ simulate_runs _ _ _ _, by decide, by decide,
    simulate_runs _ _ _ _, by decide⟩

end ArchInstaller
