import ArchInstaller.Interaction.Simulate
import ArchInstaller.Verify.Staging
import ArchInstaller.World.Sessions

/-! # The last copy of migrated data

Over any history of runs whose old password opens no volume but the old system's, every file that
was staged stays somewhere until it is restored. -/

namespace ArchInstaller

open Interaction PyText Script
open Interaction.Program (forEach onlyIf)

variable {old : OldSystem} {config : InstallerConfig} {s s' : MigrationState} {owed : Set TreePath}
  {allowed : Invocation → CommandExecutionResult → Prop}

/-! ## What every call keeps -/

/-- The directories below the staging directory. -/
def stagingAreas : List String := ["home", "sbctl", "additional"]

/-- Files of the old system alone are staged, and in the three directories alone. -/
structure WellStaged (old : OldSystem) (s : MigrationState) : Prop where
  areas : ∀ area, area ∉ stagingAreas → s.staged area = ∅
  files : s.allStaged ⊆ old.files

/-- A command that stages into the three directories alone. -/
def StagesInAreas (invocation : Invocation) : Prop :=
  ∀ source destination area rest, invocation.command = .cpArchive source destination →
    stagedPlace destination = some (area :: rest) →
    area ∈ stagingAreas ∧ isPlainWord source ∧ isPlainWord destination

/-- A command that leaves the staging directory as it is. -/
def LeavesStaging (invocation : Invocation) : Prop :=
  invocation.command ≠ .rmRecursive stagingDirectory ∧
    ∀ source destination area rest, invocation.command = .cpArchive source destination →
      stagedPlace destination ≠ some (area :: rest)

theorem LeavesStaging.staged_eq {invocation : Invocation} {answer : CommandExecutionResult}
    (hleaves : LeavesStaging invocation) (h : MovesFiles old s invocation answer s') :
    s'.staged = s.staged := by
  obtain ⟨hremoves, hcopies⟩ := hleaves
  unfold MovesFiles at h
  split at h
  · rename_i source destination hcommand
    split at h
    · exact absurd ‹_› (hcopies source destination _ _ hcommand)
    · exact h.staged
  · rename_i path hcommand
    have hpath : path ≠ stagingDirectory := by
      rintro rfl
      exact hremoves hcommand
    rw [if_neg hpath] at h
    exact h.staged
  · exact h.staged
  · split at h
    · rw [h]
    · exact h.staged

theorem LeavesStaging.of_unstaged {invocation : Invocation}
    (h : invocation.command.stages = false) : LeavesStaging invocation := by
  constructor
  · intro hcommand
    rw [hcommand] at h
    cases h
  · intro source destination area rest hcommand
    rw [hcommand] at h
    cases h

theorem WellStaged.mono (h : WellStaged old s) (hstaged : ∀ area, s'.staged area ⊆ s.staged area) :
    WellStaged old s' := by
  refine ⟨fun area harea => Set.subset_eq_empty (hstaged area) (h.areas area harea), ?_⟩
  rintro file ⟨area, hfile⟩
  exact h.files ⟨area, hstaged area hfile⟩

theorem WellStaged.step {invocation : Invocation} {answer : CommandExecutionResult}
    (hs : WellStaged old s) (hareas : StagesInAreas invocation)
    (h : MovesFiles old s invocation answer s') : WellStaged old s' := by
  by_cases hremoves : invocation.command = .rmRecursive stagingDirectory
  · have hremoved : RemovesStaging s answer.success s' := by simpa [MovesFiles, hremoves] using h
    exact hs.mono hremoved.shrinks
  by_cases hcopies : ∃ source destination area rest,
      invocation.command = .cpArchive source destination ∧
        stagedPlace destination = some (area :: rest)
  · obtain ⟨source, destination, area, rest, hcommand, hplace⟩ := hcopies
    have hcopy : CopiesToStaging old s source destination area answer.success s' := by
      simpa only [MovesFiles, hcommand, hplace] using h
    obtain ⟨harea, hsource, hdestination⟩ := hareas source destination area rest hcommand hplace
    refine ⟨fun area' harea' => ?_, ?_⟩
    · have hne : area' ≠ area := by
        rintro rfl
        exact harea' harea
      rw [hcopy.others hsource hdestination area' hne]
      exact hs.areas area' harea'
    · rintro file ⟨area', hfile⟩
      obtain hbefore | hold := hcopy.fromOld area' hfile
      · exact hs.files ⟨area', hbefore⟩
      · exact hold
  · have hleaves : LeavesStaging invocation :=
      ⟨hremoves, fun source destination area rest hcommand hplace =>
        hcopies ⟨source, destination, area, rest, hcommand, hplace⟩⟩
    exact hs.mono fun area => (hleaves.staged_eq h) ▸ Set.Subset.refl _

/-! ## What the steps issue -/

section Issues

/-- A command that cannot change the staging directory. -/
def Unstaged (invocation : Invocation) : Prop := invocation.command.stages = false

theorem UsbBootDriveStepExecutor.issues_execute_unstaged :
    IssuesGiven allowed Unstaged (execute config) := by
  have hwait : ∀ device node, IssuesGiven allowed Unstaged
      (UsbDriveInspector.waitForPartition device node) := by
    intro device node
    apply issues_waitForNode <;> simp [Unstaged, Command.stages]
  have hpartition : ∀ recoverySizeMb, IssuesGiven allowed Unstaged
      (partition config recoverySizeMb) := by
    simp [partition, hwait, Unstaged, Command.stages]
  have hprepare : IssuesGiven allowed Unstaged (prepareDrive config) := by
    simp [prepareDrive, ArchIsoImage.sizeBytes, ArchIsoImage.readText, ArchIsoImage.readNumber,
      ArchIsoImage.read, requireCapacity, UsbDriveInspector.sizeBytes, issues_parseNumber,
      releaseDrive, hpartition, storeRecoverySystem, ArchIsoImage.extractLiveSystem, Unstaged,
      Command.stages]
  simp [execute, requireDevices, UsbDriveInspector.requireDisk, stableDiskPath, keepsExistingDrive,
    isMountpoint, UsbDriveInspector.holdsLuksHeader, hprepare, Unstaged, Command.stages]

theorem StorageStepExecutor.issues_execute_unstaged :
    IssuesGiven allowed Unstaged (execute config) := by
  have hwait : IssuesGiven allowed Unstaged (waitForPartitions config) := by
    apply issues_waitForNode <;> simp [Unstaged, Command.stages]
  have hnode : ∀ line, IssuesGiven allowed Unstaged (createLoopPartitionNode line) := by
    intro line
    unfold createLoopPartitionNode
    split <;> simp [pathExists, Unstaged, Command.stages]
  have hloop : ∀ disk, IssuesGiven allowed Unstaged (prepareLoopDevice disk) := by
    intro disk
    unfold prepareLoopDevice loopDeviceSize
    simp [Unstaged, Command.stages]
  have hcreate : IssuesGiven allowed Unstaged (createPartitions config) := by
    simp [createPartitions, createLoopPartitionNodes, hloop, hnode, hwait, Unstaged, Command.stages]
  have hwipe : ∀ method, IssuesGiven allowed Unstaged (wipeDisk config method) := by
    simp [wipeDisk, eraseTable, fillWithRandomData, discardBlocks, Unstaged, Command.stages]
  have hprepare : IssuesGiven allowed Unstaged (prepareDisk config) := by
    simp [prepareDisk, keepOrRecreatePartitions, partitionsExist, luksIsUsable, hwipe, hcreate,
      Unstaged, Command.stages]
  have hluks : IssuesGiven allowed Unstaged (setupLuks config) := by
    simp [setupLuks, formatLuks, openLuks, Unstaged, Command.stages]
  have hbtrfs : IssuesGiven allowed Unstaged (setupBtrfs config) := by
    simp [setupBtrfs, ensureBtrfs, isMountpoint, createSubvolumes, createSubvolume, Unstaged,
      Command.stages]
  have hmount : ∀ subvolume, IssuesGiven allowed Unstaged (mountSubvolume config subvolume) := by
    simp [mountSubvolume, Unstaged, Command.stages]
  simp [execute, isMountpoint, keepExistingStorage, convergeStorage, cleanupStaleMounts, hprepare,
    hluks, hbtrfs, mountFilesystems, hmount, mountEfiPartition, createSwapfile, fileExists,
    Unstaged, Command.stages]

/-- Only the migration steps change the staging directory. -/
theorem issues_unstaged {step : InstallStep} (hstaging : step ≠ .migrationStaging)
    (hrestore : step ≠ .migrationRestore) :
    IssuesGiven allowed Unstaged (step.execute config) := by
  by_cases husb : step = .usbBootDrive
  · rw [husb, InstallStep.execute]
    exact UsbBootDriveStepExecutor.issues_execute_unstaged
  by_cases hstorage : step = .storage
  · rw [hstorage, InstallStep.execute]
    exact StorageStepExecutor.issues_execute_unstaged
  have hunrelated : step.unrelated := by
    cases step <;> first | rfl | contradiction
  exact (issues_unrelated hunrelated).mono fun _ h => h.2.2

theorem StagesInAreas.of_unstaged {invocation : Invocation} (h : Unstaged invocation) :
    StagesInAreas invocation := by
  intro source destination area rest hcommand hplace
  exact absurd hplace ((LeavesStaging.of_unstaged h).2 source destination area rest hcommand)

namespace MigrationStagingStepExecutor

theorem canReturn_findSecureBootDirectory {directory : String}
    (h : CanReturn allowed findSecureBootDirectory directory) :
    directory ∈ ["", pathInOldRoot sbctlDirectory, pathInOldRoot sbctlLegacyDirectory] := by
  simp only [findSecureBootDirectory, directoryExists, canReturn_bind] at h
  obtain ⟨found, -, h⟩ := h
  cases found with
  | true =>
    rw [if_pos rfl, canReturn_pure] at h
    exact h ▸ .tail _ (.head _)
  | false =>
    rw [if_neg Bool.false_ne_true, canReturn_bind] at h
    obtain ⟨found, -, h⟩ := h
    cases found with
    | true =>
      rw [if_pos rfl, canReturn_pure] at h
      exact h ▸ .tail _ (.tail _ (.head _))
    | false =>
      rw [if_neg Bool.false_ne_true, canReturn_pure] at h
      exact h ▸ .head _

theorem canReturn_inspectMountedSystem {disk partition : String} {existing : ExistingInstallInfo}
    (h : CanReturn allowed (inspectMountedSystem disk partition) existing) :
    (existing.homeSubvolume ≠ "" → existing.homeSubvolume = "@home") ∧
      existing.secureBootDirectory ∈
        ["", pathInOldRoot sbctlDirectory, pathInOldRoot sbctlLegacyDirectory] := by
  have hkeys : ∀ listing size, CanReturn allowed (do
      let secureBootDirectory ← findSecureBootDirectory
      return ({ disk, rootPartition := partition, homeSubvolume := homeSubvolumeOf listing,
                homeSizeMb := size, secureBootDirectory } : ExistingInstallInfo)) existing →
      (existing.homeSubvolume ≠ "" → existing.homeSubvolume = "@home") ∧
        existing.secureBootDirectory ∈
          ["", pathInOldRoot sbctlDirectory, pathInOldRoot sbctlLegacyDirectory] := by
    intro listing size h
    obtain ⟨directory, hdirectory, h⟩ := canReturn_bind.mp h
    rw [canReturn_pure] at h
    subst h
    exact ⟨homeSubvolumeOf_eq, canReturn_findSecureBootDirectory hdirectory⟩
  obtain ⟨listing, -, h⟩ := canReturn_bind.mp h
  by_cases hhome : (homeSubvolumeOf listing != "") = true
  · rw [if_pos hhome] at h
    obtain ⟨size, -, h⟩ := canReturn_bind.mp h
    exact hkeys listing size h
  · rw [if_neg hhome] at h
    exact hkeys listing 0 h

theorem issues_copyIntoStaging_inAreas {sourceDirectory name area : String}
    (hsource : isPlainWord s!"{sourceDirectory}/.")
    (hdestination : isPlainWord s!"{stagingDirectory}/{name}/")
    (hplace : stagedPlace s!"{stagingDirectory}/{name}/" = some [area])
    (harea : area ∈ stagingAreas) :
    IssuesGiven allowed StagesInAreas (copyIntoStaging sourceDirectory name) := by
  have hcopy : StagesInAreas
      (checked (.cpArchive s!"{sourceDirectory}/." s!"{stagingDirectory}/{name}/")) := by
    rintro _ _ area' rest ⟨⟩ hplace'
    obtain rfl : area = area' := by
      rw [hplace'] at hplace
      cases hplace
      rfl
    exact ⟨harea, hsource, hdestination⟩
  have hdirectory : StagesInAreas (checked (.mkdir s!"{stagingDirectory}/{name}")) :=
    .of_unstaged rfl
  simp only [copyIntoStaging, issues_bind, issues_info, issues_run_unit, hcopy, hdirectory,
    implies_true, and_self]

theorem issues_stageAdditionalPath_inAreas {path : String} (hplain : isPlainWord path) :
    IssuesGiven allowed StagesInAreas (stageAdditionalPath path) := by
  have hold : isPlainWord s!"{oldMountDirectory}/@" = true := by decide
  have hstaging : isPlainWord s!"{stagingDirectory}/additional" = true := by decide
  have hsource : isPlainWord (pathInOldRoot path) := by
    change isPlainWord (s!"{oldMountDirectory}/@" ++ "/" ++ lstripSlash path)
    rw [isPlainWord_slash, isPlainWord_lstripSlash, hold, hplain, Bool.true_and]
  have hdestination : isPlainWord s!"{stagingDirectory}/additional/{lstripSlash path}" := by
    change isPlainWord (s!"{stagingDirectory}/additional" ++ "/" ++ lstripSlash path)
    rw [isPlainWord_slash, isPlainWord_lstripSlash, hstaging, hplain, Bool.true_and]
  have hcopy : StagesInAreas (checked (.cpArchive (pathInOldRoot path)
      s!"{stagingDirectory}/additional/{lstripSlash path}")) := by
    rintro _ _ area rest ⟨⟩ hplace
    rw [stagedPlace_additional] at hplace
    cases hplace
    exact ⟨by decide, hsource, hdestination⟩
  have htest : StagesInAreas (unchecked (.test .exists (pathInOldRoot path))) := .of_unstaged rfl
  have hdirectory : StagesInAreas (checked (.mkdir
      (pathParent s!"{stagingDirectory}/additional/{lstripSlash path}"))) := .of_unstaged rfl
  simp only [stageAdditionalPath, pathExists, issues_bind, issues_probe, htest, issues_onlyIf,
    issues_run_unit, hdirectory, hcopy, implies_true, and_self]

theorem LooksElsewhere.inAreas {invocation : Invocation} (h : LooksElsewhere invocation) :
    StagesInAreas invocation := by
  intro source destination area rest hcommand
  have hmoves := h.1.2
  rw [hcommand] at hmoves
  cases hmoves

theorem issues_copyToStaging_inAreas {existing : ExistingInstallInfo}
    (hplain : ∀ path ∈ config.migration.additionalPaths, isPlainWord path)
    (hhome : existing.homeSubvolume ≠ "" → existing.homeSubvolume = "@home")
    (hkeys : existing.secureBootDirectory ∈
      ["", pathInOldRoot sbctlDirectory, pathInOldRoot sbctlLegacyDirectory]) :
    Issues StagesInAreas (copyToStaging config existing) := by
  have hremove : StagesInAreas (checked (.rmRecursive stagingDirectory)) := by
    rintro _ _ _ _ ⟨⟩
  have hdirectory : StagesInAreas (checked (.mkdir stagingDirectory)) := .of_unstaged rfl
  have hcopyHome : Issues StagesInAreas
      (onlyIf (config.migration.preserveHome && existing.homeSubvolume != "")
        (copyIntoStaging s!"{oldMountDirectory}/{existing.homeSubvolume}" "home")) := by
    refine issues_onlyIf.mpr fun hcopies => ?_
    rw [Bool.and_eq_true, bne_iff_ne] at hcopies
    rw [hhome hcopies.2]
    exact issues_copyIntoStaging_inAreas (by decide) (by decide)
      (show stagedPlace _ = some ["home"] by decide) (by decide)
  have hcopyKeys : Issues StagesInAreas
      (onlyIf (config.migration.preserveSecureBootKeys && existing.secureBootDirectory != "")
        (copyIntoStaging existing.secureBootDirectory "sbctl")) := by
    refine issues_onlyIf.mpr fun _ => ?_
    have hsource : isPlainWord s!"{existing.secureBootDirectory}/." := by
      simp only [List.mem_cons, List.not_mem_nil, or_false] at hkeys
      obtain hdirectory | hdirectory | hdirectory := hkeys <;> rw [hdirectory] <;> decide
    exact issues_copyIntoStaging_inAreas hsource (by decide)
      (show stagedPlace _ = some ["sbctl"] by decide) (by decide)
  have hadditional : Issues StagesInAreas
      (forEach config.migration.additionalPaths stageAdditionalPath) :=
    IssuesGiven.forEach fun path hpath => issues_stageAdditionalPath_inAreas (hplain path hpath)
  rw [copyToStaging]
  simp only [issues_bind, issues_run_unit, hremove, hdirectory, hcopyHome, hcopyKeys, hadditional,
    implies_true, and_self]

/-- Where the shell takes no additional path apart, the staging step stages into the three
directories. -/
theorem issues_execute_inAreas
    (hplain : ∀ path ∈ config.migration.additionalPaths, isPlainWord path) :
    Issues StagesInAreas (execute config) := by
  have hfind : ∀ disk, Issues StagesInAreas (findLuksPartition disk) :=
    fun _ => issues_findLuksPartition_elsewhere.mono fun _ h => h.inAreas
  have hopen : ∀ partition, Issues StagesInAreas (openAndMount config partition) :=
    fun _ => issues_openAndMount_elsewhere.mono fun _ h => h.inAreas
  have hclose : Issues StagesInAreas unmountAndClose :=
    issues_unmountAndClose_elsewhere.mono fun _ h => h.inAreas
  have hspace : ∀ existing, Issues StagesInAreas (ensureStagingSpace config existing) :=
    fun _ => issues_ensureStagingSpace_elsewhere.mono fun _ h => h.inAreas
  have hinspect : ∀ disk partition, Issues StagesInAreas (inspectMountedSystem disk partition) := by
    have hunstaged : ∀ disk partition, Issues Unstaged (inspectMountedSystem disk partition) := by
      simp [inspectMountedSystem, sizeMb, findSecureBootDirectory, directoryExists, Unstaged,
        Command.stages]
    exact fun disk partition => (hunstaged disk partition).mono fun _ h => .of_unstaged h
  have hstage : ∀ disk partition, Issues StagesInAreas
      (stageMountedSystem config disk partition) := by
    intro disk partition
    refine issues_bind.mpr ⟨hinspect disk partition, fun existing hexisting => ?_⟩
    obtain ⟨hhome, hkeys⟩ := canReturn_inspectMountedSystem hexisting
    simp only [issues_bind, issues_info, hspace, issues_copyToStaging_inAreas hplain hhome hkeys,
      implies_true, and_self]
  simp only [execute, issues_bind, hfind, hopen, (hstage _ _).tryFinally hclose, issues_info,
    implies_true, and_self]

end MigrationStagingStepExecutor

end Issues

/-! ## The restore step -/

namespace MigrationRestoreStepExecutor

/-- Some copy of every owed file is in the staging directory or in the target. -/
def StagedOrRestored (owed : Set TreePath) (s : MigrationState) : Prop :=
  owed ⊆ s.allStaged ∪ s.target

/-- What is staged has not changed, and what is staged at the directories done is restored. -/
structure Restored (staged : String → Set TreePath) (done : List (String × String))
    (s : MigrationState) : Prop where
  unchanged : s.staged = staged
  restored : ∀ x ∈ done, ∀ area, stagedPlace x.1 = some [area] → staged area ⊆ s.target

variable {staged : String → Set TreePath} {done : List (String × String)}

theorem Restored.keeps (hs : Restored staged done s)
    (howed : owed ⊆ {file | ∃ area, file ∈ staged area}) : StagedOrRestored owed s := by
  intro file hfile
  obtain ⟨area, harea⟩ := howed hfile
  exact .inl ⟨area, hs.unchanged.symm ▸ harea⟩

/-- What the loop over the staged directories needs of their words. -/
structure StagedWords (area stagedDirectory destination : String) : Prop where
  directory : stagedPlace stagedDirectory = some [area]
  source : stagedPlace s!"{stagedDirectory}/." = some [area]
  destination : stagedPlace s!"{destination}/" = none

theorem stagedWords : ∀ x ∈ stagedDestinations, ∃ area, StagedWords area x.1 x.2 := by
  simp only [stagedDestinations, List.mem_cons, List.not_mem_nil, or_false, forall_eq_or_imp,
    forall_eq]
  refine ⟨⟨"home", ?_⟩, ⟨"sbctl", ?_⟩, ⟨"additional", ?_⟩⟩ <;>
    exact ⟨by decide, by decide, by decide⟩

theorem keeps_restoreDirectory {area stagedDirectory destination : String}
    (hwords : StagedWords area stagedDirectory destination)
    (howed : owed ⊆ {file | ∃ area, file ∈ staged area}) (hs : Restored staged done s) :
    Keeps (migrationWorld old) s (restoreDirectory stagedDirectory destination)
      (StagedOrRestored owed)
      fun _ s' => Restored staged (done ++ [(stagedDirectory, destination)]) s' := by
  have hdone : ∀ s', Restored staged done s' → staged area ⊆ s'.target →
      Restored staged (done ++ [(stagedDirectory, destination)]) s' := by
    intro s' hs' hrestored
    refine ⟨hs'.unchanged, fun x hx area' harea' => ?_⟩
    obtain hx | rfl := by simpa using hx
    · exact hs'.restored x hx area' harea'
    · obtain rfl : area = area' := by simpa [hwords.directory] using harea'
      exact hrestored
  have hfound : Keeps (migrationWorld old) s (directoryExists stagedDirectory)
      (StagedOrRestored owed)
      fun found s' => s' = s ∧ (found = false → staged area = ∅) := by
    refine keeps_probe (hs.keeps howed) fun result s' hstep => ?_
    obtain rfl := MigrationStagingStepExecutor.LeavesFiles.test.eq hstep
    refine ⟨hs.keeps howed, rfl, fun hmissing => ?_⟩
    exact hs.unchanged ▸ hstep.1.2 [area] hwords.directory hmissing area (List.prefix_refl _)
  refine hfound.bind fun found s' _ hs' => ?_
  obtain ⟨rfl, hmissing⟩ := hs'
  refine .onlyIf (fun _ => ?_) (hs.keeps howed) fun hskips => ?_
  · rw [info, Program.log_bind, keeps_log, Program.ret_bind]
    have hdirectory : Keeps (migrationWorld old) s' (run_ (.mkdir destination))
        (StagedOrRestored owed) fun _ s'' => Restored staged done s'' :=
      MigrationStagingStepExecutor.keeps_quiet ⟨rfl, rfl⟩ hs (hs.keeps howed)
    refine hdirectory.bind fun _ s'' _ hs'' => ?_
    refine keeps_run_unit (hs''.keeps howed) fun result copied hstep => ?_
    have hcopies : CopiesToTarget s'' s!"{stagedDirectory}/." result.success copied := by
      have hmoves := hstep.2
      simpa only [MovesFiles, hwords.destination] using hmoves
    have hrestored : Restored staged done copied := by
      refine ⟨hcopies.staged.trans hs''.unchanged, fun x hx area' harea' => ?_⟩
      exact (hs''.restored x hx area' harea').trans hcopies.grows
    refine ⟨hrestored.keeps howed, fun hsuccess => hdone copied hrestored ?_⟩
    exact hs''.unchanged ▸ hcopies.copies area hwords.source hsuccess
  · refine hdone s' hs ?_
    rw [hmissing hskips]
    exact Set.empty_subset _

theorem stagedDestinations_areas {area : String} (harea : area ∈ stagingAreas) :
    ∃ x ∈ stagedDestinations, stagedPlace x.1 = some [area] := by
  simp only [stagingAreas, List.mem_cons, List.not_mem_nil, or_false] at harea
  rcases harea with rfl | rfl | rfl
  · exact ⟨_, .head _, by decide⟩
  · exact ⟨_, .tail _ (.head _), by decide⟩
  · exact ⟨_, .tail _ (.tail _ (.head _)), by decide⟩

/-- Where everything owed is staged, the restore step loses none of it. -/
theorem keeps_execute (hwell : WellStaged old s) (howed : owed ⊆ s.allStaged) :
    Keeps (migrationWorld old) s (execute config) (StagedOrRestored owed) fun _ _ => True := by
  have hstart : Restored s.staged [] s := ⟨rfl, by simp⟩
  have hloop : Keeps (migrationWorld old) s
      (forEach stagedDestinations fun x => restoreDirectory x.1 x.2) (StagedOrRestored owed)
      fun _ s' => Restored s.staged stagedDestinations s' := by
    refine Keeps.forEach (I := fun done s' => Restored s.staged done s') (hstart.keeps howed)
      hstart fun done x s' hx _ hs' => ?_
    obtain ⟨area, hwords⟩ := stagedWords x hx
    exact keeps_restoreDirectory hwords howed hs'
  have hreport : ∀ s', owed ⊆ s'.target → Keeps (migrationWorld old) s' (reportRestoredData config)
      (StagedOrRestored owed) fun _ s'' => owed ⊆ s''.target := by
    intro s' hs'
    have hissues : Issues LeavesFiles (reportRestoredData config) := by
      simp [reportRestoredData, reportRestoredHome, reportRestoredKeys, directoryExists, LeavesFiles,
        Command.writes, Command.movesFiles]
    exact hissues.keeps (fun _ _ _ _ hgood hI hstep => hgood.eq hstep ▸ hI) hs'
      fun _ h => h.trans Set.subset_union_right
  have hstaging : Keeps (migrationWorld old) s (directoryExists stagingDirectory)
      (StagedOrRestored owed) fun _ s' => s' = s := by
    refine keeps_probe (hstart.keeps howed) fun result s' hstep => ?_
    obtain rfl := MigrationStagingStepExecutor.LeavesFiles.test.eq hstep
    exact ⟨hstart.keeps howed, rfl⟩
  refine hstaging.bind fun found s' _ hs' => ?_
  subst hs'
  cases found with
  | false => exact keeps_log.mpr (keeps_ret (hstart.keeps howed) trivial)
  | true =>
    refine hloop.bind fun _ s'' _ hs'' => ?_
    have htarget : owed ⊆ s''.target := by
      intro file hfile
      obtain ⟨area, hstaged⟩ := howed hfile
      have harea : area ∈ stagingAreas := by
        by_contra hother
        rw [hwell.areas area hother] at hstaged
        exact hstaged
      obtain ⟨x, hx, hplace⟩ := stagedDestinations_areas harea
      exact hs''.restored x hx area hplace hstaged
    refine (hreport s'' htarget).bind fun _ reported _ hreported => ?_
    refine keeps_run_unit (hreported.trans Set.subset_union_right) fun result removed hstep => ?_
    have hremoves : RemovesStaging reported result.success removed := by
      simpa [MovesFiles] using hstep.2
    refine ⟨?_, fun _ => trivial⟩
    rw [StagedOrRestored, hremoves.target]
    exact hreported.trans Set.subset_union_right

theorem issues_execute_inAreas : IssuesGiven allowed StagesInAreas (execute config) := by
  have hdirectory : ∀ path, StagesInAreas (checked (.mkdir path)) := fun _ => .of_unstaged rfl
  have hprobes : ∀ flag path, StagesInAreas (unchecked (.test flag path)) :=
    fun _ _ => .of_unstaged rfl
  have hlists : ∀ path, StagesInAreas (unchecked (.ls path)) := fun _ => .of_unstaged rfl
  have hremove : StagesInAreas (checked (.rmRecursive stagingDirectory)) := by
    rintro _ _ _ _ ⟨⟩
  have hrestore : ∀ x ∈ stagedDestinations,
      IssuesGiven allowed StagesInAreas (restoreDirectory x.1 x.2) := by
    intro x hx
    obtain ⟨area, hwords⟩ := stagedWords x hx
    have hcopy : StagesInAreas (checked (.cpArchive s!"{x.1}/." s!"{x.2}/")) := by
      rintro _ _ area' rest ⟨⟩ hplace
      rw [hwords.destination] at hplace
      cases hplace
    simp only [restoreDirectory, directoryExists, issues_bind, issues_probe, hprobes, issues_onlyIf,
      issues_info, issues_run_unit, hdirectory, hcopy, implies_true, and_self]
  have hloop : IssuesGiven allowed StagesInAreas
      (forEach stagedDestinations fun x => restoreDirectory x.1 x.2) := IssuesGiven.forEach hrestore
  simp only [execute, directoryExists, issues_bind, issues_probe, hprobes, issues_ite,
    restoreStaging, hloop, reportRestoredData, issues_onlyIf, reportRestoredHome, issues_query,
    hlists, issues_warning, reportRestoredKeys, issues_run_unit, hremove, issues_info,
    implies_true, and_self]

end MigrationRestoreStepExecutor

/-! ## Histories -/

/-- What holds at every moment: all that is owed is somewhere. -/
structure Kept (old : OldSystem) (h : History) : Prop where
  well : WellStaged old h.disk.files
  owed : h.owed ⊆ old.files
  copies : h.KeepsCopies old

/-- What holds between the staging step and the end of the run: all that is owed is staged. -/
structure StillStaged (old : OldSystem) (h : History) : Prop where
  well : WellStaged old h.disk.files
  staged : h.owed ⊆ h.disk.files.allStaged

theorem StillStaged.kept {h : History} (hstaged : StillStaged old h) : Kept old h :=
  ⟨hstaged.well, hstaged.staged.trans hstaged.well.files,
    fun _ hfile => .inr (.inl (hstaged.staged hfile))⟩

/-- A run that keeps what is owed: while the disk holds the old system it copies what earlier runs
staged, and later its old password opens no volume. -/
structure KeepsOwed (old : OldSystem) (config : InstallerConfig) (h : History) : Prop where
  plain : ∀ path ∈ config.migration.additionalPaths, isPlainWord path
  covers : h.disk.files.holdsOld →
    h.owed ⊆ MigrationStagingStepExecutor.copiedFiles config old
  closed : h.disk.files.holdsOld = false →
    config.credentials.sourceLuksPassword ∉ h.disk.opens

section Steps

variable {h : History} {exchanges : Exchanges} {outcome : Outcome InstallerError Unit}
  {disk : MigrationDisk}

theorem replays_files (hreplay : Replays (passwordWorld old) h.disk exchanges disk) :
    Replays (migrationWorld old) h.disk.files exchanges disk.files :=
  (hreplay.mono fun _ _ _ _ hstep => hstep.1).map

/-- Every step keeps the staging directory in order. -/
theorem WellStaged.replay {p : Script Unit} (hwell : WellStaged old h.disk.files)
    (hissues : Issues StagesInAreas p) (hrun : Runs p exchanges outcome)
    (hreplay : Replays (passwordWorld old) h.disk exchanges disk) : WellStaged old disk.files :=
  (replays_files hreplay).preserves
    (fun x hx _ _ hs hstep => hs.step (hissues.of_runs hrun x hx) hstep.2) hwell

/-- The steps that do not stage leave the staging directory as it is. -/
theorem StillStaged.unstaged {p : Script Unit} (hstaged : StillStaged old h)
    (hissues : Issues Unstaged p) (hrun : Runs p exchanges outcome)
    (hreplay : Replays (passwordWorld old) h.disk exchanges disk) :
    StillStaged old ⟨disk, h.owed⟩ := by
  have hsame : disk.files.staged = h.disk.files.staged :=
    (replays_files hreplay).preserves (P := fun s => s.staged = h.disk.files.staged)
      (fun x hx _ _ hs hstep =>
        ((LeavesStaging.of_unstaged (hissues.of_runs hrun x hx)).staged_eq hstep.2).trans hs) rfl
  refine ⟨hstaged.well.mono fun area => hsame ▸ Set.Subset.refl _, fun file hfile => ?_⟩
  obtain ⟨area, harea⟩ := hstaged.staged hfile
  exact ⟨area, hsame.symm ▸ harea⟩

/-- Where no volume opens, the staging step raises before it changes anything. -/
theorem keeps_staging_closed (hclosed : h.disk.files.holdsOld = false)
    (hopens : config.credentials.sourceLuksPassword ∉ h.disk.opens) :
    Keeps (passwordWorld old) h.disk (MigrationStagingStepExecutor.execute config)
      (fun s => s.files = h.disk.files) fun _ _ => False := by
  let I : MigrationDisk → Prop := fun s => s.files = h.disk.files ∧ s.opens ⊆ h.disk.opens
  have hstep : ∀ {invocation answer s s'}, MigrationStagingStepExecutor.LooksElsewhere invocation →
      I s → passwordWorld old s invocation answer s' → I s' := by
    intro invocation answer s s' hgood hI hstep
    have hopens : s'.opens ⊆ s.opens := by
      have htakes := hstep.2
      unfold TakesPassword at htakes
      split at htakes
      · rename_i hcommand
        have hwrites := hgood.1.1
        rw [hcommand] at hwrites
        cases hwrites
      · exact htakes.1
      · exact htakes
    exact ⟨(hgood.1.eq hstep.1).trans hI.1, hopens.trans hI.2⟩
  have hfind : Keeps (passwordWorld old) h.disk
      (MigrationStagingStepExecutor.findLuksPartition config.storage.targetDisk)
      (fun s => s.files = h.disk.files) fun _ s => I s :=
    MigrationStagingStepExecutor.issues_findLuksPartition_elsewhere.keeps
      (fun _ _ _ _ hgood hI hworld => hstep hgood hI hworld) ⟨rfl, Set.Subset.refl _⟩
      fun _ hI => hI.1
  refine hfind.bind fun partition s _ hI => ?_
  have hopen : Keeps (passwordWorld old) s
      (tryRunWithInput (.cryptsetupOpen none partition oldMapperName)
        config.credentials.sourceLuksPassword)
      (fun s => s.files = h.disk.files) fun result _ => result.success = false := by
    refine keeps_invoke hI.1 fun result s' hworld => ?_
    have hleaves : LeavesFiles ⟨.cryptsetupOpen none partition oldMapperName, false,
        some config.credentials.sourceLuksPassword⟩ := ⟨rfl, rfl⟩
    refine ⟨(hleaves.eq hworld.1).trans hI.1, fun _ => ?_⟩
    by_contra hsuccess
    rw [Bool.not_eq_false] at hsuccess
    obtain hholds | ⟨password, hpassword, hinput⟩ := hworld.2.2 hsuccess
    · rw [hI.1, hclosed] at hholds
      cases hholds
    · cases hinput
      exact hopens (hI.2 hpassword)
  have hfails : Keeps (passwordWorld old) s
      (MigrationStagingStepExecutor.openAndMount config partition)
      (fun s => s.files = h.disk.files) fun _ _ => False := by
    refine hopen.bind fun result s' hs' hresult => ?_
    rw [hresult]
    exact keeps_raise hs'
  exact hfails.bind fun _ _ _ hfalse => hfalse.elim

/-- The staging step of a run that keeps what is owed. -/
theorem Kept.staging (hkept : Kept old h) (hkeeps : KeepsOwed old config h)
    (hrun : Runs (MigrationStagingStepExecutor.execute config) exchanges outcome)
    (hreplay : Replays (passwordWorld old) h.disk exchanges disk) :
    Kept old ⟨disk, h.owed⟩ ∧
      (outcome = .returned () → StillStaged old (h.complete .migrationStaging disk)) := by
  have hwell : WellStaged old disk.files :=
    hkept.well.replay (MigrationStagingStepExecutor.issues_execute_inAreas hkeeps.plain) hrun hreplay
  cases hholds : h.disk.files.holdsOld with
  | false =>
    have hkeep : Keeps (passwordWorld old) h.disk (MigrationStagingStepExecutor.execute config)
        (fun s => s.files = h.disk.files) fun _ _ => False :=
      keeps_staging_closed hholds (hkeeps.closed hholds)
    obtain ⟨hfiles, hreturns⟩ := hkeep exchanges outcome disk hrun hreplay
    refine ⟨⟨hwell, hkept.owed, fun file hfile => ?_⟩, fun houtcome => (hreturns () houtcome).elim⟩
    have hcopies := hkept.copies file hfile
    rwa [← hfiles] at hcopies
  | true =>
    let always : MigrationState → Prop := fun s => ∀ file ∈ h.owed,
      s.holdsOld ∧ file ∈ old.files ∨ file ∈ s.allStaged ∨ file ∈ s.target
    have halways : ∀ s : MigrationState, s.holdsOld → always s :=
      fun s hs file hfile => .inl ⟨hs, hkept.owed hfile⟩
    have hkeep : Keeps (migrationWorld old) h.disk.files
        (MigrationStagingStepExecutor.execute config) always fun _ s =>
          MigrationStagingStepExecutor.CopiesOf old
            (MigrationStagingStepExecutor.copiedPlaces config old) s :=
      MigrationStagingStepExecutor.keeps_execute halways hholds
    obtain ⟨hcopies, hreturns⟩ := hkeep exchanges outcome disk.files hrun (replays_files hreplay)
    refine ⟨⟨hwell, hkept.owed, hcopies⟩, fun houtcome => ⟨hwell, ?_⟩⟩
    refine Set.union_subset (fun file hfile => ?_) (Set.Subset.refl _)
    obtain ⟨place, hplace, hbelow⟩ := hkeeps.covers hholds hfile
    exact (hreturns () houtcome).2 place hplace hbelow

/-- A later step: as long as it runs nothing owed is lost, and after it all that is owed is
staged. -/
theorem StillStaged.step {step : InstallStep} (hstaged : StillStaged old h)
    (hlater : step ≠ .migrationStaging) (hrun : Runs (step.execute config) exchanges outcome)
    (hreplay : Replays (passwordWorld old) h.disk exchanges disk) :
    Kept old ⟨disk, h.owed⟩ ∧ StillStaged old (h.complete step disk) := by
  by_cases hrestore : step = .migrationRestore
  · subst hrestore
    rw [InstallStep.execute] at hrun
    have hwell : WellStaged old disk.files := hstaged.well.replay
      MigrationRestoreStepExecutor.issues_execute_inAreas hrun hreplay
    have hkeep : Keeps (migrationWorld old) h.disk.files (MigrationRestoreStepExecutor.execute config)
        (MigrationRestoreStepExecutor.StagedOrRestored h.owed) fun _ _ => True :=
      MigrationRestoreStepExecutor.keeps_execute hstaged.well hstaged.staged
    obtain ⟨hcopies, -⟩ := hkeep exchanges outcome disk.files hrun (replays_files hreplay)
    refine ⟨⟨hwell, hstaged.staged.trans hstaged.well.files, fun file hfile => .inr ?_⟩,
      hwell, Set.empty_subset _⟩
    exact hcopies hfile
  · have hafter : StillStaged old ⟨disk, h.owed⟩ :=
      hstaged.unstaged (issues_unstaged hlater hrestore) hrun hreplay
    have hcomplete : h.complete step disk = ⟨disk, h.owed⟩ := by
      cases step <;> first | rfl | contradiction
    exact ⟨hafter.kept, hcomplete ▸ hafter⟩

/-- Every moment after the staging step. -/
theorem StillStaged.moment {safeDump : PlainValue → String} {steps : List InstallStep}
    {h' : History} (hstaged : StillStaged old h) (hlater : .migrationStaging ∉ steps)
    (hmoment : Moment safeDump old config steps h h') : Kept old h' := by
  induction hmoment with
  | during hrun hreplay =>
    rw [List.mem_cons, not_or] at hlater
    exact (hstaged.step (Ne.symm hlater.1) hrun hreplay).1
  | after hrun hreplay _ ih =>
    rw [List.mem_cons, not_or] at hlater
    exact ih (hstaged.step (Ne.symm hlater.1) hrun hreplay).2 hlater.2
  | finishing hrun hreplay =>
    exact (hstaged.unstaged (Installer.issues_finish.mono fun _ h => h.2.2) hrun hreplay).kept

/-- Every moment of a run that keeps what is owed. -/
theorem Kept.moment {safeDump : PlainValue → String} {h' : History} (hkept : Kept old h)
    (henabled : config.migration.enabled) (hkeeps : KeepsOwed old config h)
    (hmoment : Moment safeDump old config (Installer.enabledSteps config) h h') : Kept old h' := by
  have hsteps : ∃ steps, Installer.enabledSteps config = .migrationStaging :: steps ∧
      .migrationStaging ∉ steps := by
    have hstaging : InstallStep.migrationStaging.enabled config = true := henabled
    refine ⟨_, by rw [Installer.enabledSteps, installSteps, List.filter_cons_of_pos hstaging], ?_⟩
    rw [List.mem_filter]
    rintro ⟨hmem, -⟩
    revert hmem
    decide
  obtain ⟨steps, hsteps, hlater⟩ := hsteps
  rw [hsteps] at hmoment
  cases hmoment with
  | during hrun hreplay => exact (hkept.staging hkeeps hrun hreplay).1
  | after hrun hreplay hrest =>
    exact ((hkept.staging hkeeps hrun hreplay).2 rfl).moment hlater hrest

end Steps

/-- The installer's own layout is migrated, and the new password is the old one. -/
def samePasswordConfig : InstallerConfig :=
  { sampleConfig with
    migration := { sampleConfig.migration with enabled := true, preserveSecureBootKeys := false }
    credentials := { sampleConfig.credentials with sourceLuksPassword := "new password" } }

/-- The disk holds the old system, its home directories are staged, and the new volume opens. -/
structure SamePasswordDisk where
  holdsOld : Bool
  staged : Bool
  opens : Bool

def migratedHome : TreePath := ["@home", "user", "notes.txt"]

def SamePasswordDisk.disk (s : SamePasswordDisk) : MigrationDisk where
  files :=
    { holdsOld := s.holdsOld
      staged := fun area => {file | s.staged ∧ area = "home" ∧ file = migratedHome}
      target := ∅ }
  opens := {password | s.opens ∧ password = "new password"}

/-- `test` in `installedSystem`. -/
def installedPasses : TestFlag → TreePath → Bool
  | .exists, place => (MigrationStagingStepExecutor.installedFiles ++
      MigrationStagingStepExecutor.installedDirectories).contains place
  | .file, place => MigrationStagingStepExecutor.installedFiles.contains place
  | .directory, place => MigrationStagingStepExecutor.installedDirectories.contains place

def answerOf (success : Bool) : CommandExecutionResult := ⟨if success then 0 else 1, "", ""⟩

def samePasswordMachine (s : SamePasswordDisk) (invocation : Invocation) :
    CommandExecutionResult × SamePasswordDisk :=
  match invocation.command with
  | .lsblkNames _ => (answering "sda\nsda1\nsda2\n", s)
  | .diskFree _ => (answering "Avail\n99999\n", s)
  | .mountpoint _ => (answerOf false, s)
  | .cryptsetupIsLuks _ => (answerOf (s.holdsOld || s.opens), s)
  | .subvolumeList _ => (answering MigrationStagingStepExecutor.installedSystem.listing, s)
  | .test flag path => (answerOf (((oldPlace path).map (installedPasses flag)).getD true), s)
  | .cryptsetupOpen .. =>
    (answerOf (s.holdsOld || s.opens && invocation.inputData == some "new password"), s)
  | .cryptsetupLuksFormat .. => (answerOf true,
    { s with holdsOld := false, opens := s.opens || invocation.inputData == some "new password" })
  | .cpArchive source destination =>
    if source = s!"{oldMountDirectory}/@home/." ∧ destination = s!"{stagingDirectory}/home/" then
      (answerOf s.holdsOld, { s with staged := s.staged || s.holdsOld })
    else (answerOf false, s)
  | .rmRecursive path =>
    (answerOf true, { s with staged := s.staged && path != stagingDirectory })
  | command => (answerOf true, { s with holdsOld := s.holdsOld && command.writes.isEmpty })

section SamePassword

open MigrationStagingStepExecutor (installedSystem)

variable {disk : SamePasswordDisk} {invocation : Invocation}

theorem success_answerOf {success : Bool} : (answerOf success).success = success := by
  cases success <;> rfl

theorem installedPasses_iff {flag : TestFlag} {place : TreePath} :
    installedPasses flag place ↔ installedSystem.passes flag place := by
  cases flag with
  | «exists» =>
    rw [installedPasses, List.contains_iff_mem, List.mem_append]
    rfl
  | file =>
    rw [installedPasses, List.contains_iff_mem]
    rfl
  | directory =>
    rw [installedPasses, List.contains_iff_mem]
    rfl

theorem mem_allStaged_iff : migratedHome ∈ disk.disk.files.allStaged ↔ disk.staged = true := by
  constructor
  · rintro ⟨area, hstaged, -⟩
    exact hstaged
  · exact fun hstaged => ⟨"home", hstaged, rfl, rfl⟩

theorem not_keepsCopies {owed : Set TreePath} (hholds : disk.holdsOld = false)
    (hstaged : disk.staged = false) (howed : migratedHome ∈ owed) :
    ¬ History.KeepsCopies installedSystem ⟨disk.disk, owed⟩ := by
  intro hcopies
  obtain ⟨hheld, -⟩ | hcopy | htarget := hcopies migratedHome howed
  · exact Bool.false_ne_true (hholds.symm.trans hheld)
  · exact Bool.false_ne_true (hstaged.symm.trans (mem_allStaged_iff.mp hcopy))
  · exact htarget

/-- No word names a place below both directories. -/
theorem stagedPlace_of_oldPlace {word : String} {place : TreePath} (h : oldPlace word = some place) :
    stagedPlace word = none := by
  have hold : pathComponents oldMountDirectory = ["tmp", "old-system"] := by decide
  have hstaging : pathComponents stagingDirectory = ["tmp", "migration-staging"] := by decide
  have hother : ("migration-staging" : String) ≠ "old-system" := by decide
  unfold oldPlace at h
  split at h
  · rw [stagedPlace, eq_append_of_below h, hold, hstaging]
    simp only [List.cons_append, below, if_true, if_neg hother]
  · cases h

theorem samePasswordMachine_looksTrue :
    LooksTrue installedSystem disk.disk.files invocation
      (samePasswordMachine disk invocation).1 := by
  obtain ⟨command, raises, input⟩ := invocation
  cases command with
  | subvolumeList path => exact fun _ _ => rfl
  | test flag path =>
    refine ⟨fun place hplace _ => ?_, fun place hplace hfails => ?_⟩
    · simp only [samePasswordMachine, hplace, Option.map_some, Option.getD_some, success_answerOf]
      exact installedPasses_iff
    · cases hold : oldPlace path with
      | none => simp [samePasswordMachine, hold, success_answerOf] at hfails
      | some place' =>
        rw [stagedPlace_of_oldPlace hold] at hplace
        cases hplace
  | _ => trivial

theorem installed_filesBelow_home : installedSystem.filesBelow ["@home"] = {migratedHome} := by
  ext file
  constructor
  · rintro ⟨hfile, hbelow⟩
    have hhome : ∀ file ∈ MigrationStagingStepExecutor.installedFiles, ["@home"] <+: file →
        file = migratedHome := by decide
    exact hhome file hfile hbelow
  · rintro rfl
    have hfile : migratedHome ∈ MigrationStagingStepExecutor.installedFiles := by decide
    exact ⟨hfile, by decide⟩

theorem losesFiles_of_holdsOld {holdsOld : Bool} (h : holdsOld → disk.holdsOld) :
    LosesFiles disk.disk.files { disk with holdsOld }.disk.files :=
  ⟨h, rfl, Set.Subset.refl _⟩

theorem copiesToStaging_home : CopiesToStaging installedSystem disk.disk.files
    s!"{oldMountDirectory}/@home/." s!"{stagingDirectory}/home/" "home" disk.holdsOld
    { disk with staged := disk.staged || disk.holdsOld }.disk.files := by
  have hplace : oldPlace s!"{oldMountDirectory}/@home/." = some ["@home"] := by decide
  refine ⟨rfl, rfl, fun area file hfile => ?_, fun area file hfile => ?_, fun _ _ area harea => ?_,
    fun place hplace' hholds _ file hfile => ?_⟩
  · exact ⟨by simp [hfile.1], hfile.2⟩
  · obtain ⟨-, -, rfl⟩ := hfile
    have hfile : migratedHome ∈ MigrationStagingStepExecutor.installedFiles := by decide
    exact .inr hfile
  · simp [SamePasswordDisk.disk, harea]
  · obtain rfl : ["@home"] = place := by simpa [hplace] using hplace'
    rw [installed_filesBelow_home] at hfile
    have hheld : disk.holdsOld = true := hholds
    exact ⟨by simp [hheld], rfl, hfile⟩

theorem movesFiles_of_failedCopy {source destination : String} {raises : Bool}
    {input : Option String} :
    MovesFiles installedSystem disk.disk.files ⟨.cpArchive source destination, raises, input⟩
      (answerOf false) disk.disk.files := by
  have hstaging : ∀ area, CopiesToStaging installedSystem disk.disk.files source destination area
      (answerOf false).success disk.disk.files := fun area =>
    ⟨rfl, rfl, fun _ => Set.Subset.refl _, fun _ => Set.subset_union_left, fun _ _ _ _ => rfl, by
      rintro _ _ _ ⟨⟩⟩
  have htarget : CopiesToTarget disk.disk.files source (answerOf false).success disk.disk.files :=
    ⟨rfl, rfl, Set.Subset.refl _, by rintro _ _ ⟨⟩⟩
  simp only [MovesFiles]
  split
  · exact hstaging _
  · exact htarget

theorem movesFiles_of_other {command : Command} {raises : Bool} {input : Option String}
    {answer : CommandExecutionResult} (h : command.movesFiles = false) :
    MovesFiles installedSystem disk.disk.files ⟨command, raises, input⟩ answer
      { disk with holdsOld := disk.holdsOld && command.writes.isEmpty }.disk.files := by
  by_cases hwrites : command.writes = []
  · have hleaves : LeavesFiles ⟨command, raises, input⟩ := ⟨hwrites, h⟩
    rw [hleaves.movesFiles_iff, hwrites, List.isEmpty_nil, Bool.and_true]
  · unfold MovesFiles
    split
    · rename_i hcommand
      cases hcommand
      cases h
    · rename_i hcommand
      cases hcommand
      cases h
    · rename_i hcommand
      cases hcommand
      cases h
    · rw [if_neg hwrites]
      exact losesFiles_of_holdsOld fun hholds => (Bool.and_eq_true_iff.mp hholds).1

theorem samePasswordMachine_moves :
    MovesFiles installedSystem disk.disk.files invocation (samePasswordMachine disk invocation).1
      (samePasswordMachine disk invocation).2.disk.files := by
  obtain ⟨command, raises, input⟩ := invocation
  cases command with
  | cpArchive source destination =>
    by_cases hhome : source = s!"{oldMountDirectory}/@home/." ∧
        destination = s!"{stagingDirectory}/home/"
    · obtain ⟨rfl, rfl⟩ := hhome
      have hplace : stagedPlace s!"{stagingDirectory}/home/" = some ["home"] := by decide
      simp only [samePasswordMachine, and_self, if_true, MovesFiles, hplace, success_answerOf]
      exact copiesToStaging_home
    · simp only [samePasswordMachine, hhome, if_false]
      exact movesFiles_of_failedCopy
  | rmRecursive path =>
    by_cases hpath : path = stagingDirectory
    · subst hpath
      simp only [samePasswordMachine, MovesFiles, if_true, bne_self_eq_false, Bool.and_false]
      exact ⟨rfl, rfl, fun _ _ hfile => absurd hfile.1 Bool.false_ne_true, fun _ _ => by
        simp [SamePasswordDisk.disk]⟩
    · simp only [samePasswordMachine, MovesFiles, hpath, if_false, bne_iff_ne.mpr hpath,
        Bool.and_true]
      exact losesFiles_of_holdsOld id
  | rmForce path => exact losesFiles_of_holdsOld fun h => (Bool.and_eq_true_iff.mp h).1
  | cryptsetupLuksFormat => exact losesFiles_of_holdsOld fun hholds => by cases hholds
  | lsblkNames | diskFree | mountpoint | cryptsetupIsLuks | subvolumeList | test | cryptsetupOpen =>
    exact LeavesFiles.movesFiles_iff ⟨rfl, rfl⟩ |>.mpr rfl
  | _ => exact movesFiles_of_other rfl

theorem samePasswordMachine_takes :
    TakesPassword disk.disk invocation (samePasswordMachine disk invocation).1
      (samePasswordMachine disk invocation).2.disk := by
  obtain ⟨command, raises, input⟩ := invocation
  cases command with
  | cryptsetupLuksFormat =>
    rintro password ⟨hopens, rfl⟩
    obtain hopens | hinput := Bool.or_eq_true_iff.mp hopens
    · exact .inl ⟨hopens, rfl⟩
    · exact .inr (beq_iff_eq.mp hinput)
  | cryptsetupOpen =>
    refine ⟨Set.Subset.refl _, fun hsuccess => ?_⟩
    simp only [samePasswordMachine, success_answerOf, Bool.or_eq_true_iff, Bool.and_eq_true_iff,
      beq_iff_eq] at hsuccess
    obtain hholds | ⟨hopens, hinput⟩ := hsuccess
    · exact .inl hholds
    · exact .inr ⟨_, ⟨hopens, rfl⟩, hinput⟩
  | cpArchive =>
    simp only [samePasswordMachine]
    split <;> exact Set.Subset.refl _
  | _ => exact Set.Subset.refl _

theorem samePasswordMachine_replays (p : Script Unit) (limit : Nat) (disk : SamePasswordDisk) :
    Replays (passwordWorld installedSystem) disk.disk
      (simulate samePasswordMachine p limit disk).exchanges
      (simulate samePasswordMachine p limit disk).final.disk :=
  (simulate_replays (M := fun s i r s' => passwordWorld installedSystem s.disk i r s'.disk)
    (fun _ _ => ⟨⟨samePasswordMachine_looksTrue, samePasswordMachine_moves⟩,
      samePasswordMachine_takes⟩) p limit disk).map

end SamePassword

end ArchInstaller
