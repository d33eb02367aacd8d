import ArchInstaller.Executors.Boot
import ArchInstaller.Executors.Migration
import ArchInstaller.Executors.UsbBackup
import ArchInstaller.Executors.UsbBoot
import ArchInstaller.Core.Runs
import ArchInstaller.Python.Paths
import ArchInstaller.World.Mounts
import ArchInstaller.Config.Sample
import ArchInstaller.Interaction.Simulate

/-! # What a step opened, it gives back

The steps that mount a partition or open a volume for themselves unmount and close it however they
end, but for two cases: staging that stops between opening the old volume and mounting it, and a
backup that found something mounted at its mountpoint, which it unmounts at the end. -/

namespace ArchInstaller

open Interaction PyText Script

variable {config : InstallerConfig} {s s' : OpenState}

/-- However a run of the script ends, what is mounted and open is as before. -/
def GivesBack {α : Type} (p : Script α) : Prop :=
  ∀ s, Ends openWorld s p fun _ _ s' => s' = s

/-- A command that mounts, unmounts, opens or closes nothing. -/
def LeavesOpen (invocation : Invocation) : Prop := invocation.command.leavesOpenState

theorem ends_of_issues {α : Type} {p : Script α} (h : Issues LeavesOpen p) (s : OpenState) :
    Ends openWorld s p fun _ _ s' => s' = s :=
  (h.ends fun _ _ _ _ hgood hstep => openWorld_eq hstep hgood).mono fun _ _ _ h => h.1

/-- A mount that is unmounted at the end of what is done with it. -/
theorem givesBack_mounted {α : Type} {body : Script α} {mountCommand : Command}
    (device : String) {directory : String} {cleanup : Script Unit}
    (hmount : ∀ ok s s', OpenEffect s ok s' mountCommand →
      s' = if ok then s.addMount device directory else s)
    (hbody : Issues LeavesOpen body)
    (hcleanup : ∀ s, Ends openWorld s cleanup fun _ _ s' => s' = s.unmount directory) :
    GivesBack (run_ mountCommand >>= fun _ => Program.tryFinally body cleanup) := by
  intro s
  have hmounted : Ends openWorld s (run_ mountCommand) fun _ outcome s' =>
      if outcome = .returned () then s' = s.addMount device directory else s' = s := by
    refine ends_run_unit (fun result s' hstep hok => ?_) fun result s' error hstep hfailed => ?_
    · rw [if_pos rfl]
      simpa [hok] using hmount result.success s s' hstep
    · rw [if_neg (by simp)]
      simpa [hfailed] using hmount result.success s s' hstep
  refine hmounted.bind (fun _ error s' h => by simpa using h) fun first value mid hmid => ?_
  obtain rfl : mid = s.addMount device directory := by simpa using hmid
  have hreleased : Ends openWorld (s.addMount device directory) (Program.tryFinally body cleanup)
      fun _ _ s' => s' = s := by
    refine (ends_of_issues hbody _).tryFinally fun _ later hlater => ?_
    subst hlater
    exact (hcleanup _).mono fun _ _ _ h => h.trans (s.unmount_addMount device directory)
  exact hreleased

theorem ends_umount (directory : String) (s : OpenState) :
    Ends openWorld s (tryRun_ (.umount directory)) fun _ _ s' => s' = s.unmount directory :=
  ends_tryRun_unit fun _ _ hstep => hstep

theorem GivesBack.bind {α β : Type} {p : Script α} {f : α → Script β} (hp : GivesBack p)
    (hf : ∀ value, GivesBack (f value)) : GivesBack (p >>= f) := by
  intro s
  refine (hp s).bind (fun _ _ _ h => h) fun _ value mid hmid => ?_
  subst hmid
  exact hf value mid

theorem GivesBack.of_issues {α : Type} {p : Script α} (h : Issues LeavesOpen p) : GivesBack p :=
  ends_of_issues h

/-! ## The recovery partition -/

theorem UsbBootDriveStepExecutor.givesBack_storeRecoverySystem (recoveryIso : ArchIsoImage) :
    GivesBack (storeRecoverySystem config recoveryIso) := by
  have hbefore : ∀ command : Command, command.leavesOpenState → GivesBack (run_ command) :=
    fun command h => .of_issues (by simp [LeavesOpen, h])
  refine (GivesBack.of_issues (by simp)).bind fun _ => (hbefore _ rfl).bind fun _ =>
    (hbefore _ rfl).bind fun _ => ?_
  exact givesBack_mounted config.usbBoot.recoveryPartition (fun _ _ _ h => h)
    (by simp [ArchIsoImage.extractLiveSystem, LeavesOpen, Command.leavesOpenState]) (ends_umount _)

namespace RecoverySystemStepExecutor

theorem issues_buildFromPartition {buildDirectory filesystemUuid : String} :
    Issues LeavesOpen (buildFromPartition buildDirectory filesystemUuid) := by
  have hsignature : ∀ image, Issues LeavesOpen (createSignature image) := by
    simp [createSignature, LeavesOpen, Command.leavesOpenState]
  simp [buildFromPartition, signRootImage, hsignature, buildUki, runAsChroot_, LeavesOpen,
    Command.leavesOpenState]

theorem ends_cleanUp (buildDirectory : String) (s : OpenState) :
    Ends openWorld s (cleanUp buildDirectory) fun _ _ s' => s' = s.unmount recoveryMount := by
  refine (ends_umount recoveryMount s).bind (fun _ _ _ h => h) fun _ _ mid hmid => ?_
  subst hmid
  exact ends_tryRun_unit fun _ _ hstep => hstep

theorem givesBack_execute : GivesBack (execute config) := by
  refine (GivesBack.of_issues (by simp)).bind fun _ =>
    (GivesBack.of_issues (by simp [LeavesOpen, Command.leavesOpenState])).bind fun uuid =>
    (GivesBack.of_issues (by simp [LeavesOpen, Command.leavesOpenState])).bind fun _ => ?_
  rw [← bind_assoc]
  refine GivesBack.bind (givesBack_mounted config.usbBoot.recoveryPartition ?_
    issues_buildFromPartition (ends_cleanUp _)) fun version => GivesBack.of_issues ?_
  · intro _ _ _ h
    exact h
  · simp [signUki, fileExists, runAsChroot_, LeavesOpen, Command.leavesOpenState]

end RecoverySystemStepExecutor

/-! ## Staging -/

namespace MigrationStagingStepExecutor

/-- The directory for the old system could not be made. -/
def MkdirFails (exchanges : Exchanges) : Prop :=
  ∃ answer, (checked (.mkdir oldMountDirectory), answer) ∈ exchanges ∧ answer.success = false

/-- A command that opens and closes nothing and is not the one that makes that directory. -/
def Quiet (invocation : Invocation) : Prop :=
  invocation.command.leavesOpenState ∧ invocation.command ≠ .mkdir oldMountDirectory

theorem not_mkdirFails {exchanges : Exchanges}
    (h : ∀ x ∈ exchanges, x.1.command ≠ .mkdir oldMountDirectory) : ¬ MkdirFails exchanges := by
  rintro ⟨answer, hmem, -⟩
  exact h _ hmem rfl

theorem mkdirFails_append_iff {first second : Exchanges} :
    MkdirFails (first ++ second) ↔ MkdirFails first ∨ MkdirFails second := by
  simp only [MkdirFails, List.mem_append]
  grind

theorem ends_quiet {α : Type} {p : Script α} (h : Issues Quiet p) (s : OpenState) :
    Ends openWorld s p fun exchanges _ s' => s' = s ∧ ¬ MkdirFails exchanges :=
  (h.ends fun _ _ _ _ hgood hstep => openWorld_eq hstep hgood.1).mono fun _ _ _ hends =>
    ⟨hends.1, not_mkdirFails fun x hx => (hends.2 x hx).2⟩

/-- The directories of the staging area have other names than the one for the old system. -/
theorem pathParent_staging_ne (path : String) :
    pathParent s!"{stagingDirectory}/additional/{path}" ≠ oldMountDirectory := by
  have hcomponents : pathComponents (stagingDirectory ++ "/additional" ++ "/" ++ path) =
      ["tmp", "migration-staging", "additional"] ++ pathComponents path := by
    rw [pathComponents_slash]
    rfl
  have hdropped : ∃ rest, (["tmp", "migration-staging", "additional"] ++
      pathComponents path).dropLast = "tmp" :: "migration-staging" :: rest := by
    cases pathComponents path <;> simp
  have hjoined : ∀ rest : List String, ∃ last,
      join "/" ("migration-staging" :: rest) = "migration-staging" ++ last := by
    rintro (_ | ⟨name, rest⟩)
    · exact ⟨"", rfl⟩
    · exact ⟨_, String.append_assoc⟩
  obtain ⟨rest, hrest⟩ := hdropped
  obtain ⟨last, hlast⟩ := hjoined rest
  have hparent : pathParent s!"{stagingDirectory}/additional/{path}" =
      "/" ++ ("tmp" ++ "/" ++ ("migration-staging" ++ last)) := by
    have hpath : s!"{stagingDirectory}/additional/{path}" =
        stagingDirectory ++ "/additional" ++ "/" ++ path := by
      simp only [toString, String.append_assoc]
      rfl
    rw [hpath, pathParent, hcomponents, hrest, ← hlast]
    rfl
  rw [hparent]
  intro h
  have hchar := congrArg (·.toList[5]?) h
  have hold : oldMountDirectory.toList[5]? = some 'o' := by decide
  rw [hold] at hchar
  simp at hchar

theorem quiet_findLuksPartition {disk : String} : Issues Quiet (findLuksPartition disk) := by
  have hfirst : ∀ partitions, Issues Quiet (firstLuksPartition disk partitions) := by
    intro partitions
    induction partitions with
    | nil => simp [firstLuksPartition]
    | cons partition partitions ih =>
      simp [firstLuksPartition, ih, Quiet, Command.leavesOpenState]
  simp [findLuksPartition, hfirst, Quiet, Command.leavesOpenState]

theorem quiet_stageMountedSystem {disk partition : String} :
    Issues Quiet (stageMountedSystem config disk partition) := by
  have hsize : ∀ path, Issues Quiet (sizeMb path) := by
    simp [sizeMb, Quiet, Command.leavesOpenState]
  have hadditional : ∀ paths, Issues Quiet (additionalSizeMb paths) := by
    intro paths
    induction paths with
    | nil => simp [additionalSizeMb]
    | cons path paths ih => simp [additionalSizeMb, hsize, ih]
  have hinto : ∀ source, Issues Quiet (copyIntoStaging source "home") ∧
      Issues Quiet (copyIntoStaging source "sbctl") := by
    intro source
    constructor <;> simp [copyIntoStaging, Quiet, Command.leavesOpenState] <;> decide
  have hpath : ∀ path, Issues Quiet (stageAdditionalPath path) := by
    intro path
    have hparent := pathParent_staging_ne (lstripSlash path)
    simp [stageAdditionalPath, pathExists, Quiet, Command.leavesOpenState]
    exact fun _ _ => hparent
  have hstaging : stagingDirectory ≠ oldMountDirectory := by decide
  simp [stageMountedSystem, inspectMountedSystem, hsize, findSecureBootDirectory, directoryExists,
    ensureStagingSpace, hadditional, copyToStaging, hinto, hpath, Quiet, Command.leavesOpenState,
    hstaging]

/-- A call that is not checked, and is not the one that makes the directory. -/
theorem ends_tryRun_quiet (command : Command) {effect : OpenState → OpenState}
    (hcommand : command ≠ .mkdir oldMountDirectory)
    (heffect : ∀ s ok s', OpenEffect s ok s' command → s' = effect s) (s : OpenState) :
    Ends openWorld s (tryRun_ command) fun exchanges outcome s' =>
      outcome = .returned () ∧ s' = effect s ∧ ¬ MkdirFails exchanges :=
  ends_tryRun_unit fun answer s' hstep =>
    ⟨rfl, heffect s answer.success s' hstep, not_mkdirFails (by simpa using hcommand)⟩

theorem ends_mountOldSystem (s : OpenState) :
    Ends openWorld s mountOldSystem fun exchanges outcome s' =>
      if outcome = .returned () then ¬ MkdirFails exchanges ∧
        s' = s.addMount s!"/dev/mapper/{oldMapperName}" oldMountDirectory
      else MkdirFails exchanges ∧ s' = s ∨
        ¬ MkdirFails exchanges ∧ s' = s.close oldMapperName := by
  have hmkdir : Ends openWorld s (run_ (.mkdir oldMountDirectory)) fun exchanges outcome s' =>
      s' = s ∧ if outcome = .returned () then ¬ MkdirFails exchanges
        else MkdirFails exchanges := by
    refine ends_run_unit (fun answer s' hstep hok => ⟨hstep, ?_⟩)
      fun answer s' error hstep hfailed => ⟨hstep, ?_⟩
    · simp [MkdirFails, hok]
    · simp [MkdirFails, hfailed]
  refine hmkdir.bind (fun _ _ _ h => ?_) fun first _ mid hfirst => ?_
  · simp only [reduceCtorEq, if_false] at h ⊢
    exact .inl ⟨h.2, h.1⟩
  obtain ⟨rfl, hmade⟩ := hfirst
  rw [if_pos rfl] at hmade
  have hmount : Ends openWorld mid (tryRun (.mountTopLevel s!"/dev/mapper/{oldMapperName}"
      oldMountDirectory)) fun exchanges outcome s' => ¬ MkdirFails exchanges ∧ ∃ answer,
        outcome = .returned answer ∧ s' = if answer.success then
          mid.addMount s!"/dev/mapper/{oldMapperName}" oldMountDirectory else mid :=
    ends_unchecked fun answer s' hstep => ⟨not_mkdirFails (by simp), answer, rfl, hstep⟩
  refine hmount.bind (fun _ _ _ h => by simp at h) fun second mounted last hsecond => ?_
  obtain ⟨hquiet, answer, hanswer, hlast⟩ := hsecond
  obtain rfl : mounted = answer := by simpa using hanswer
  cases hsuccess : mounted.success with
  | true =>
    rw [hsuccess, if_pos rfl] at hlast
    refine Ends.onlyIf (by simp) fun _ => ?_
    simp [mkdirFails_append_iff, hmade, hquiet, hlast]
  | false =>
    rw [hsuccess, if_neg Bool.false_ne_true] at hlast
    refine Ends.onlyIf (fun _ => ?_) (by simp)
    refine (ends_tryRun_quiet (.cryptsetupClose oldMapperName) (by simp)
      (fun _ _ _ h => h) last).bind (fun _ _ _ h => by simp at h) fun third _ closed hthird => ?_
    apply ends_raise
    simp [mkdirFails_append_iff, hmade, hquiet, hlast, hthird]

theorem ends_openAndMount (partition : String) (s : OpenState) :
    Ends openWorld s (openAndMount config partition) fun exchanges outcome s' =>
      if outcome = .returned () then ¬ MkdirFails exchanges ∧ s' =
        (s.addMapping oldMapperName).addMount s!"/dev/mapper/{oldMapperName}" oldMountDirectory
      else (s' = s ↔ ¬ MkdirFails exchanges) := by
  have hopen : Ends openWorld s (tryRunWithInput (.cryptsetupOpen none partition oldMapperName)
      config.credentials.sourceLuksPassword) fun exchanges outcome s' => ¬ MkdirFails exchanges ∧
        ∃ answer, outcome = .returned answer ∧
          s' = if answer.success then s.addMapping oldMapperName else s := by
    refine ends_unchecked fun answer s' hstep => ⟨not_mkdirFails (by simp), answer, rfl, ?_⟩
    simp only [openWorld, OpenEffect] at hstep
    split at hstep
    · next hok => rw [if_pos hok, hstep.2]
    · next hfailed => rw [if_neg hfailed, hstep]
  refine hopen.bind (fun _ _ _ h => by simp at h) fun first unlocked mid hfirst => ?_
  obtain ⟨hquiet, answer, hanswer, hmid⟩ := hfirst
  obtain rfl : unlocked = answer := by simpa using hanswer
  cases hsuccess : unlocked.success with
  | false =>
    rw [hsuccess, if_neg Bool.false_ne_true] at hmid
    rw [if_neg Bool.false_ne_true]
    apply ends_raise
    simp [hquiet, hmid]
  | true =>
    rw [hsuccess, if_pos rfl] at hmid
    subst hmid
    rw [if_pos rfl]
    refine (ends_mountOldSystem _).mono fun second outcome s' hsecond => ?_
    split at hsecond
    · next hreturned => simpa [hreturned, mkdirFails_append_iff, hquiet] using hsecond
    · next hraised =>
      rw [if_neg hraised]
      rcases hsecond with ⟨hfails, rfl⟩ | ⟨hmade, rfl⟩
      · simp [mkdirFails_append_iff, hfails, s.addMapping_ne]
      · simp [mkdirFails_append_iff, hquiet, hmade]

theorem ends_unmountAndClose (s : OpenState) :
    Ends openWorld s unmountAndClose fun exchanges _ s' =>
      s' = (s.unmount oldMountDirectory).close oldMapperName ∧ ¬ MkdirFails exchanges := by
  refine (ends_tryRun_quiet (.umount oldMountDirectory) (by simp)
    (fun _ _ _ h => h) s).bind (fun _ _ _ h => by simp at h) fun first _ mid hfirst => ?_
  refine (ends_tryRun_quiet (.cryptsetupClose oldMapperName) (by simp)
    (fun _ _ _ h => h) mid).bind (fun _ _ _ h => by simp at h) fun second _ last hsecond => ?_
  refine (ends_tryRun_quiet (.rmdir oldMountDirectory) (by simp)
    (fun _ _ _ h => h) last).mono fun third outcome s' hthird => ?_
  simp [mkdirFails_append_iff, hfirst, hsecond, hthird]

theorem ends_execute (s : OpenState) : Ends openWorld s (execute config) fun exchanges _ s' =>
    (s' = s ↔ ¬ MkdirFails exchanges) := by
  refine (ends_quiet quiet_findLuksPartition s).bind (fun _ _ _ h => by simp [h])
    fun first partition mid hfirst => ?_
  obtain ⟨rfl, hfound⟩ := hfirst
  refine (ends_openAndMount partition mid).bind (fun second error s' h => ?_)
    fun second _ opened hsecond => ?_
  · simpa [mkdirFails_append_iff, hfound] using h
  obtain ⟨hopened, rfl⟩ := hsecond
  have hstaged : Ends openWorld ((mid.addMapping oldMapperName).addMount
      s!"/dev/mapper/{oldMapperName}" oldMountDirectory) (Program.tryFinally (stageMountedSystem
        config config.storage.targetDisk partition) unmountAndClose) fun exchanges _ s' =>
          s' = mid ∧ ¬ MkdirFails exchanges := by
    refine (ends_quiet quiet_stageMountedSystem _).tryFinally fun third last hthird => ?_
    obtain ⟨rfl, hstaged⟩ := hthird
    refine (ends_unmountAndClose _).mono fun fourth outcome s' hfourth => ?_
    simp [mkdirFails_append_iff, hstaged, hfourth]
  refine hstaged.bind (fun third _ _ h => ?_) fun third _ last hthird => ?_
  · simp [mkdirFails_append_iff, hfound, hopened, h]
  · refine (ends_quiet (by simp) last).mono fun fourth outcome s' hfourth => ?_
    simp [mkdirFails_append_iff, hfound, hopened, hthird, hfourth]

end MigrationStagingStepExecutor

/-! ## The backup -/

namespace UsbBackupStepExecutor

variable {safeDump : PlainValue → String}

/-- The step found the partition and made its mountpoint. -/
def GoesAhead (exchanges : Exchanges) : Prop :=
  ∃ answer, (checked (.mkdir backupMount), answer) ∈ exchanges ∧ answer.success

theorem issues_backUp : Issues LeavesOpen (backUp safeDump config) := by
  have hgroup : ∀ directory items, Issues LeavesOpen (copyGroup config directory items) := by
    intro directory items
    induction items with
    | nil => simp [copyGroup]
    | cons item items ih =>
      simp [copyGroup, ih, copyItem, pathExists, directoryExists, LeavesOpen,
        Command.leavesOpenState]
  have hgroups : ∀ groups, Issues LeavesOpen (copyGroups config groups) := by
    intro groups
    induction groups with
    | nil => simp [copyGroups]
    | cons group groups ih =>
      simp [copyGroups, ih, hgroup, LeavesOpen, Command.leavesOpenState]
  simp [backUp, copyItems, hgroups, explicitlyInstalledPackages, writeConfigExports, commandOutput,
    LeavesOpen, Command.leavesOpenState]

theorem goesAhead_append_iff {first second : Exchanges} :
    GoesAhead (first ++ second) ↔ GoesAhead first ∨ GoesAhead second := by
  simp only [GoesAhead, List.mem_append]
  grind

/-- What was mounted at the mountpoint before is unmounted at the end. -/
theorem ends_backUpAndUnmount (s : OpenState) :
    Ends openWorld s (Program.tryFinally (backUp safeDump config) (tryRun_ (.umount backupMount)))
      fun _ _ s' => s' = s.unmount backupMount := by
  refine (ends_of_issues issues_backUp s).tryFinally fun _ mid hmid => ?_
  subst hmid
  exact ends_umount backupMount mid

/-- The mountpoint is taken where nothing is mounted at it. -/
theorem ends_mountUnlessMounted (partition : String) (s : OpenState) :
    Ends openWorld s (do
      let mounted ← isMountpoint backupMount
      Program.onlyIf (!mounted) (run_ (.mount partition backupMount)))
      fun _ outcome s' => if outcome = .returned () then
        s'.unmount backupMount = (if s.isMounted backupMount then s.unmount backupMount else s)
      else s' = s ∧ ¬ s.isMounted backupMount := by
  have hprobe : Ends openWorld s (isMountpoint backupMount) fun _ outcome s' =>
      s' = s ∧ outcome = .returned (s.isMounted backupMount) :=
    ends_probe fun answer s' hstep => ⟨hstep.1, congrArg _ hstep.2⟩
  refine hprobe.bind (fun _ _ _ h => by simp at h) fun _ mounted mid hmid => ?_
  obtain ⟨rfl, hmounted⟩ := hmid
  obtain rfl : mounted = mid.isMounted backupMount := by simpa using hmounted
  refine Ends.onlyIf (fun hfree => ?_) fun htaken => ?_
  · have hfree : mid.isMounted backupMount = false := by simpa using hfree
    refine ends_run_unit (fun answer s' hstep hok => ?_) fun answer s' error hstep hfailed => ?_
    · obtain rfl : s' = mid.addMount partition backupMount := by
        simpa [openWorld, OpenEffect, hok] using hstep
      simp [hfree]
    · have hsame : s' = mid := by simpa [openWorld, OpenEffect, hfailed] using hstep
      simp [hfree, hsame]
  · have htaken : mid.isMounted backupMount = true := by simpa using htaken
    simp [htaken]

theorem ends_backUpTo (partition : String) (s : OpenState) :
    Ends openWorld s (backUpTo safeDump config partition) fun exchanges _ s' =>
      (s' = s ↔ ¬ (s.isMounted backupMount ∧ GoesAhead exchanges)) := by
  have hmkdir : Ends openWorld s (run_ (.mkdir backupMount)) fun exchanges outcome s' =>
      s' = s ∧ (GoesAhead exchanges ↔ outcome = .returned ()) := by
    refine ends_run_unit (fun answer s' hstep hok => ⟨hstep, ?_⟩)
      fun answer s' error hstep hfailed => ⟨hstep, ?_⟩
    · simp [GoesAhead, hok]
    · simp [GoesAhead, hfailed]
  rw [backUpTo]
  simp only [info, Program.log_bind, Program.ret_bind, ends_log]
  refine hmkdir.bind (fun _ _ _ h => by simp [h]) fun first _ mid hfirst => ?_
  obtain ⟨rfl, hahead⟩ := hfirst
  rw [← bind_assoc]
  refine (ends_mountUnlessMounted partition mid).bind (fun second error s' h => ?_)
    fun second _ mounted hsecond => ?_
  · simp only [reduceCtorEq, if_false] at h
    simp [h]
  rw [if_pos rfl] at hsecond
  have hahead : GoesAhead first := hahead.mpr rfl
  have hunmounted : Ends openWorld mounted (Program.tryFinally (backUp safeDump config)
      (tryRun_ (.umount backupMount))) fun _ _ s' =>
        (s' = mid ↔ ¬ mid.isMounted backupMount) := by
    refine (ends_backUpAndUnmount mounted).mono fun _ _ s' h => ?_
    rw [h, hsecond]
    split
    · next htaken => simp [htaken, OpenState.unmount_ne htaken]
    · next hfree => simp [hfree]
  refine hunmounted.bind (fun third error s' h => ?_) fun third copied last hthird => ?_
  · simp [goesAhead_append_iff, hahead, h]
  · simp [goesAhead_append_iff, hahead, hthird, ends_ret]

theorem ends_execute (s : OpenState) :
    Ends openWorld s (execute safeDump config) fun exchanges _ s' =>
      (s' = s ↔ ¬ (s.isMounted backupMount ∧ GoesAhead exchanges)) := by
  have hnone : ¬ GoesAhead [] := by simp [GoesAhead]
  rw [execute]
  split
  · exact ends_raise (by simp [hnone])
  have hexists : Ends openWorld s (pathExists config.sync.backupPartition) fun exchanges _ s' =>
      s' = s ∧ ¬ GoesAhead exchanges :=
    ends_probe fun answer s' hstep => ⟨hstep, by simp [GoesAhead]⟩
  refine hexists.bind (fun _ _ _ h => by simp [h]) fun first found mid hfirst => ?_
  obtain ⟨rfl, hprobe⟩ := hfirst
  cases found with
  | true =>
    refine (ends_backUpTo config.sync.backupPartition mid).mono fun second _ s' hsecond => ?_
    simpa [goesAhead_append_iff, hprobe] using hsecond
  | false => exact ends_raise (by simp [hprobe])

end UsbBackupStepExecutor

/-! ## The steps together -/

/-- However one of the steps ends, what is mounted and open is as before it, but for staging where
the directory for the old system could not be made and for a backup that went ahead while something
was mounted at its mountpoint. -/
theorem stepsGiveBack (safeDump : PlainValue → String) (recoveryIso : ArchIsoImage)
    (s : OpenState) :
    Ends openWorld s (MigrationStagingStepExecutor.execute config) (fun exchanges _ s' =>
      (s' = s ↔ ¬ MigrationStagingStepExecutor.MkdirFails exchanges)) ∧
    Ends openWorld s (RecoverySystemStepExecutor.execute config) (fun _ _ s' => s' = s) ∧
    Ends openWorld s (UsbBootDriveStepExecutor.storeRecoverySystem config recoveryIso)
      (fun _ _ s' => s' = s) ∧
    Ends openWorld s (UsbBackupStepExecutor.execute safeDump config) (fun exchanges _ s' =>
      (s' = s ↔ ¬ (s.isMounted backupMount ∧ UsbBackupStepExecutor.GoesAhead exchanges))) :=
  ⟨MigrationStagingStepExecutor.ends_execute s, RecoverySystemStepExecutor.givesBack_execute s,
    UsbBootDriveStepExecutor.givesBack_storeRecoverySystem recoveryIso s,
    UsbBackupStepExecutor.ends_execute s⟩

/-- A machine with one encrypted partition, where only the mountpoint of the backup can be made
and nothing can be mounted. -/
def respondOpen (s : OpenState) (invocation : Invocation) : CommandExecutionResult × OpenState :=
  match invocation.command with
  | .lsblkNames disk => (⟨0, s!"{disk}\n{disk}1\n", ""⟩, s)
  | .cryptsetupIsLuks _ | .test .. => (⟨0, "", ""⟩, s)
  | .mkdir directory => (⟨if directory = backupMount then 0 else 1, "", ""⟩, s)
  | .mountpoint directory => (⟨if s.isMounted directory then 0 else 1, "", ""⟩, s)
  | .umount directory => (⟨0, "", ""⟩, s.unmount directory)
  | .umountRecursive directory =>
    (⟨0, "", ""⟩,
      { s with mounts := s.mounts.filter fun mount => !atOrBelow directory mount.directory })
  | .cryptsetupOpen _ _ name =>
    if name ∈ s.mappings then (⟨1, "", ""⟩, s) else (⟨0, "", ""⟩, s.addMapping name)
  | .cryptsetupClose name => (⟨0, "", ""⟩, s.close name)
  | _ => (⟨1, "", ""⟩, s)

theorem openWorld_respondOpen (s : OpenState) (invocation : Invocation) :
    openWorld s invocation (respondOpen s invocation).1 (respondOpen s invocation).2 := by
  obtain ⟨command, raises, inputData⟩ := invocation
  cases command <;>
    simp [openWorld, respondOpen, OpenEffect, CommandExecutionResult.success] <;> split <;> simp_all

theorem not_givesBack_of_simulate {p : Script Unit} {s : OpenState}
    (hended : (simulate respondOpen p 20 s).outcome ≠ .stopped)
    (hfinal : (simulate respondOpen p 20 s).final ≠ s) : ¬ GivesBack p := fun h =>
  hfinal (h s _ _ _ (simulate_runs _ _ _ _) (simulate_replays openWorld_respondOpen _ _ _) hended)

/-- Staging leaves the old volume open, and a backup unmounts what it found mounted. -/
theorem not_stepsGiveBack :
    ¬ GivesBack (MigrationStagingStepExecutor.execute sampleConfig) ∧
    ¬ GivesBack (UsbBackupStepExecutor.execute (fun _ => "")
      { sampleConfig with sync := { sampleConfig.sync with backupPartition := "/dev/sdc1" } }) := by
  let nothingOpen : OpenState := ⟨[], []⟩
  let mountedBefore : OpenState := ⟨[⟨backupMount, "/dev/sdc1"⟩], []⟩
  refine ⟨not_givesBack_of_simulate (s := nothingOpen) ?_ ?_,
    not_givesBack_of_simulate (s := mountedBefore) ?_ ?_⟩ <;> decide

end ArchInstaller
