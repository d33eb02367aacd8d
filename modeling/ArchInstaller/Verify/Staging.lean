import ArchInstaller.Config.Sample
import ArchInstaller.Verify.DeviceNames
import ArchInstaller.Verify.InstallRuns
import ArchInstaller.World.OldSystem

/-! # What the staging step copies

`MigrationStagingStepExecutor.execute` on an old system of any layout: the places it copies from
are fixed names below the btrfs top level, while the preserved paths are those of the running
system, composed from its mounts. -/

namespace ArchInstaller.MigrationStagingStepExecutor

open Interaction PyText Script
open Interaction.Program (forEach onlyIf)

/-! ## The places of the commands' words -/

theorem pathInOldRoot_eq (path : String) :
    pathInOldRoot path = oldMountDirectory ++ "/" ++ ("@" ++ "/" ++ lstripSlash path) := by
  have hroot : "/@/" = "/" ++ ("@" ++ "/") := rfl
  simp only [pathInOldRoot, toString, hroot, String.append_assoc]

theorem isPlainWord_lstripSlash (path : String) :
    isPlainWord (lstripSlash path) = isPlainWord path := by
  have hslash : isShellSafe '/' = true := by decide
  simp only [isPlainWord, pathComponents_lstripSlash]
  congr 1
  simp only [lstripSlash, String.toList_ofList]
  induction path.toList with
  | nil => rfl
  | cons c cs ih =>
    by_cases hc : c = '/'
    · rw [List.dropWhile_cons_of_pos (by simpa using hc), ih, hc, List.all_cons, hslash,
        Bool.true_and]
    · rw [List.dropWhile_cons_of_neg (by simpa using hc)]

/-- A plain path is looked up in the `@` subvolume. -/
theorem oldPlace_pathInOldRoot (path : String) : oldPlace (pathInOldRoot path) =
    if isPlainWord path then some ("@" :: pathComponents path) else none := by
  have hdirectory : isPlainWord oldMountDirectory = true := by decide
  have hroot : isPlainWord "@" = true := by decide
  have hname : pathComponents "@" = ["@"] := by decide
  rw [oldPlace, pathInOldRoot_eq, isPlainWord_slash, isPlainWord_slash, isPlainWord_lstripSlash,
    hdirectory, hroot, Bool.true_and, Bool.true_and, pathComponents_slash, pathComponents_slash,
    pathComponents_lstripSlash, below_append, hname, List.singleton_append]

theorem stagedPlace_additional (path : String) :
    stagedPlace s!"{stagingDirectory}/additional/{lstripSlash path}" =
      some ("additional" :: pathComponents path) := by
  have hname : pathComponents "additional" = ["additional"] := by decide
  have htext : s!"{stagingDirectory}/additional/{lstripSlash path}" =
      stagingDirectory ++ "/" ++ ("additional" ++ "/" ++ lstripSlash path) := by
    have hadditional : "/additional/" = "/" ++ ("additional" ++ "/") := rfl
    simp only [toString, hadditional, String.append_assoc]
  rw [stagedPlace, htext, pathComponents_slash, pathComponents_slash, pathComponents_lstripSlash,
    below_append, hname, List.singleton_append]

/-! ## The places that are copied -/

variable (config : InstallerConfig) (old : OldSystem)

def holdsKeys : Prop := ["@", "var", "lib", "sbctl", "keys"] ∈ old.directories

def holdsLegacyKeys : Prop := ["@", "usr", "share", "secureboot", "keys"] ∈ old.directories

/-- The places that the staging step copies, with all that lies below them. -/
def copiedPlaces : Set TreePath := {place |
  (config.migration.preserveHome ∧ homeSubvolumeOf old.listing ≠ "" ∧ place = ["@home"]) ∨
  (config.migration.preserveSecureBootKeys ∧
    (holdsKeys old ∧ place = ["@", "var", "lib", "sbctl"] ∨
    ¬ holdsKeys old ∧ holdsLegacyKeys old ∧ place = ["@", "usr", "share", "secureboot"])) ∨
  ∃ path ∈ config.migration.additionalPaths, isPlainWord path ∧
    place = "@" :: pathComponents path}

/-- The files that the staging step copies. -/
def copiedFiles : Set TreePath := {file | ∃ place ∈ copiedPlaces config old, file ∈ old.filesBelow place}

/-- The paths that the migration preserves, as the running system shows them. The keys are in the
first of the two directories that shows any. -/
def Preserved (path : TreePath) : Prop :=
  (config.migration.preserveHome ∧ ["home"] <+: path) ∨
  (config.migration.preserveSecureBootKeys ∧
    (old.locate ["var", "lib", "sbctl", "keys"] ∈ old.directories ∧
      ["var", "lib", "sbctl"] <+: path ∨
    old.locate ["var", "lib", "sbctl", "keys"] ∉ old.directories ∧
      old.locate ["usr", "share", "secureboot", "keys"] ∈ old.directories ∧
      ["usr", "share", "secureboot"] <+: path)) ∨
  ∃ entry ∈ config.migration.additionalPaths, pathComponents entry <+: path

/-- Every preserved file lies where the step copies from. -/
def Covers : Prop :=
  ∀ path, Preserved config old path → old.locate path ∈ old.files →
    old.locate path ∈ copiedFiles config old

/-- Whatever run of the step the old system allows, no command of it writes a block device, and
where it returns there is a copy of every preserved file in the staging directory. -/
def LosesNothing : Prop :=
  ∀ (s s' : MigrationState) (exchanges : Exchanges) (outcome : Outcome InstallerError Unit),
    s.holdsOld → Runs (execute config) exchanges outcome →
    Replays (migrationWorld old) s exchanges s' →
    (∀ x ∈ exchanges, x.1.command.writes = []) ∧
    (outcome = .returned () → ∀ path, Preserved config old path → old.locate path ∈ old.files →
      old.locate path ∈ s'.allStaged)

variable {config old} {s : MigrationState}

/-! ## Calls in the old system -/

/-- A command that leaves the copies alone and does not look at the old system. -/
def LooksElsewhere (invocation : Invocation) : Prop :=
  LeavesFiles invocation ∧ (∀ path, invocation.command ≠ .subvolumeList path) ∧
    ∀ flag path, invocation.command ≠ .test flag path

theorem LooksElsewhere.step {invocation : Invocation} (h : LooksElsewhere invocation)
    (answer : CommandExecutionResult) : migrationWorld old s invocation answer s := by
  refine ⟨?_, h.1.movesFiles_iff.mpr rfl⟩
  unfold LooksTrue
  split
  · exact absurd ‹_› (h.2.1 _)
  · exact absurd ‹_› (h.2.2 _ _)
  · trivial

theorem issues_findLuksPartition_elsewhere {disk : String} :
    Issues LooksElsewhere (findLuksPartition disk) := by
  have hfirst : ∀ partitions, Issues LooksElsewhere (firstLuksPartition disk partitions) := by
    intro partitions
    induction partitions with
    | nil => simp [firstLuksPartition]
    | cons partition partitions ih =>
      simp [firstLuksPartition, ih, LooksElsewhere, LeavesFiles, Command.writes,
        Command.movesFiles]
  simp [findLuksPartition, hfirst, LooksElsewhere, LeavesFiles, Command.writes,
    Command.movesFiles]

theorem issues_openAndMount_elsewhere {partition : String} :
    Issues LooksElsewhere (openAndMount config partition) := by
  simp [openAndMount, mountOldSystem, LooksElsewhere, LeavesFiles, Command.writes,
    Command.movesFiles]

theorem issues_sizeMb_elsewhere {path : String} : Issues LooksElsewhere (sizeMb path) := by
  simp [sizeMb, LooksElsewhere, LeavesFiles, Command.writes, Command.movesFiles]

theorem issues_ensureStagingSpace_elsewhere {existing : ExistingInstallInfo} :
    Issues LooksElsewhere (ensureStagingSpace config existing) := by
  have hsizes : ∀ paths, Issues LooksElsewhere (additionalSizeMb paths) := by
    intro paths
    induction paths with
    | nil => simp [additionalSizeMb]
    | cons path paths ih => simp [additionalSizeMb, issues_sizeMb_elsewhere, ih]
  simp [ensureStagingSpace, hsizes, LooksElsewhere, LeavesFiles, Command.writes,
    Command.movesFiles]

theorem issues_unmountAndClose_elsewhere : Issues LooksElsewhere unmountAndClose := by
  simp [unmountAndClose, LooksElsewhere, LeavesFiles, Command.writes, Command.movesFiles]

/-- Such commands keep what there is to keep. -/
theorem keeps_elsewhere {α : Type} {p : Script α} (h : Issues LooksElsewhere p)
    {always I : MigrationState → Prop} (hs : I s) (halways : ∀ s, I s → always s) :
    Keeps (migrationWorld old) s p always fun _ s' => I s' :=
  h.keeps (fun _ _ _ _ hgood hI hstep => hgood.1.eq hstep ▸ hI) hs halways

theorem reaches_elsewhere {α : Type} {p : Script α} {value : α} (hissues : Issues LooksElsewhere p)
    (h : CanAlwaysReturn p value) :
    Reaches (migrationWorld old) s p fun value' s' => value' = value ∧ s' = s :=
  h.reaches hissues fun _ answer hgood _ => hgood.step answer

/-! ## The inspection -/

/-- What the inspection finds out about the old system. -/
structure Inspected (old : OldSystem) (existing : ExistingInstallInfo) : Prop where
  home : existing.homeSubvolume = homeSubvolumeOf old.listing
  keys : holdsKeys old → existing.secureBootDirectory = pathInOldRoot sbctlDirectory
  legacyKeys : ¬ holdsKeys old → holdsLegacyKeys old →
    existing.secureBootDirectory = pathInOldRoot sbctlLegacyDirectory
  noKeys : ¬ holdsKeys old → ¬ holdsLegacyKeys old → existing.secureBootDirectory = ""

theorem oldPlace_keys :
    oldPlace s!"{pathInOldRoot sbctlDirectory}/keys" = some ["@", "var", "lib", "sbctl", "keys"] := by
  decide

theorem oldPlace_legacyKeys : oldPlace s!"{pathInOldRoot sbctlLegacyDirectory}/keys" =
    some ["@", "usr", "share", "secureboot", "keys"] := by
  decide

section Inspection

variable {always : MigrationState → Prop} {path : String} {place : TreePath} {flag : TestFlag}

theorem LeavesFiles.test : LeavesFiles (unchecked (.test flag path)) := ⟨rfl, rfl⟩

/-- `test` of a plain path tells what the old system has there. -/
theorem keeps_test (hs : s.holdsOld) (halways : always s) (hplace : oldPlace path = some place) :
    Keeps (migrationWorld old) s (probe (.test flag path)) always
      fun found s' => s' = s ∧ (found ↔ old.passes flag place) := by
  refine keeps_probe halways fun result s' hstep => ?_
  obtain rfl := LeavesFiles.test.eq hstep
  exact ⟨halways, rfl, hstep.1.1 place hplace hs⟩

theorem keeps_findSecureBootDirectory (hs : s.holdsOld) (halways : always s) :
    Keeps (migrationWorld old) s findSecureBootDirectory always fun directory s' => s' = s ∧
      (holdsKeys old → directory = pathInOldRoot sbctlDirectory) ∧
      (¬ holdsKeys old → holdsLegacyKeys old → directory = pathInOldRoot sbctlLegacyDirectory) ∧
      (¬ holdsKeys old → ¬ holdsLegacyKeys old → directory = "") := by
  refine (keeps_test hs halways oldPlace_keys).bind fun found s' _ hfound => ?_
  obtain ⟨rfl, hkeys⟩ := hfound
  cases found with
  | true =>
    have hholds : holdsKeys old := hkeys.mp rfl
    exact keeps_ret halways ⟨rfl, fun _ => rfl, fun h => absurd hholds h, fun h => absurd hholds h⟩
  | false =>
    have hnone : ¬ holdsKeys old := fun h => Bool.false_ne_true (hkeys.mpr h)
    refine (keeps_test hs halways oldPlace_legacyKeys).bind fun found s'' _ hfound => ?_
    obtain ⟨rfl, hlegacy⟩ := hfound
    cases found with
    | true =>
      have hholds : holdsLegacyKeys old := hlegacy.mp rfl
      exact keeps_ret halways
        ⟨rfl, fun h => absurd h hnone, fun _ _ => rfl, fun _ h => absurd hholds h⟩
    | false =>
      have hnone' : ¬ holdsLegacyKeys old := fun h => Bool.false_ne_true (hlegacy.mpr h)
      exact keeps_ret halways
        ⟨rfl, fun h => absurd h hnone, fun _ h => absurd h hnone', fun _ _ => rfl⟩

theorem keeps_inspectMountedSystem {disk partition : String} (hs : s.holdsOld)
    (halways : always s) :
    Keeps (migrationWorld old) s (inspectMountedSystem disk partition) always
      fun existing s' => s' = s ∧ Inspected old existing := by
  have hlisting : Keeps (migrationWorld old) s (query (.subvolumeList oldMountDirectory)) always
      fun listing s' => s' = s ∧ listing = old.listing := by
    refine keeps_query halways fun result s' hstep => ?_
    have hleaves : LeavesFiles (unchecked (.subvolumeList oldMountDirectory)) := ⟨rfl, rfl⟩
    obtain rfl := hleaves.eq hstep
    exact ⟨halways, rfl, hstep.1 rfl hs⟩
  refine hlisting.bind fun listing s' _ hlisted => ?_
  obtain ⟨rfl, rfl⟩ := hlisted
  have hkeys : ∀ homeSizeMb, Keeps (migrationWorld old) s' (do
      let secureBootDirectory ← findSecureBootDirectory
      return ({ disk, rootPartition := partition, homeSubvolume := homeSubvolumeOf old.listing,
                homeSizeMb, secureBootDirectory } : ExistingInstallInfo)) always
      fun existing s'' => s'' = s' ∧ Inspected old existing := by
    intro homeSizeMb
    refine (keeps_findSecureBootDirectory hs halways).bind fun directory s'' _ hdirectory => ?_
    obtain ⟨rfl, hkeys, hlegacy, hnone⟩ := hdirectory
    exact keeps_ret halways ⟨rfl, rfl, hkeys, hlegacy, hnone⟩
  have hsize : ∀ path, Keeps (migrationWorld old) s' (sizeMb path) always fun _ s'' => s'' = s' :=
    fun path => keeps_elsewhere issues_sizeMb_elsewhere rfl fun _ h => h ▸ halways
  by_cases hhome : (homeSubvolumeOf old.listing != "") = true
  · rw [if_pos hhome]
    refine (hsize _).bind fun homeSizeMb s'' _ hs'' => ?_
    subst hs''
    exact hkeys homeSizeMb
  · rw [if_neg hhome]
    exact hkeys 0

end Inspection

/-! ## The copies -/

/-- The disk holds the old system, and what it has at the places is staged. -/
def CopiesOf (old : OldSystem) (places : Set TreePath) (s : MigrationState) : Prop :=
  s.holdsOld ∧ ∀ place ∈ places, old.filesBelow place ⊆ s.allStaged

theorem CopiesOf.mono {places places' : Set TreePath} (h : CopiesOf old places s)
    (hsubset : places' ⊆ places) : CopiesOf old places' s :=
  ⟨h.1, fun place hplace => h.2 place (hsubset hplace)⟩

/-- The place that `copyIntoStaging` or `stageAdditionalPath` copies for a word. -/
def placeOf (word : String) : Set TreePath := {place | oldPlace word = some place}

section Copies

variable {always : MigrationState → Prop} {places : Set TreePath}

theorem keeps_quiet {command : Command} (hleaves : LeavesFiles (checked command))
    {I : MigrationState → Prop} (hs : I s) (halways : always s) :
    Keeps (migrationWorld old) s (run_ command) always fun _ s' => I s' := by
  refine keeps_run_unit halways fun result s' hstep => ?_
  obtain rfl := hleaves.eq hstep
  exact ⟨halways, fun _ => hs⟩

theorem keeps_cpArchive {source destination area : String} {rest : TreePath}
    (halways : ∀ s : MigrationState, s.holdsOld → always s) (hs : CopiesOf old places s)
    (hdestination : stagedPlace destination = some (area :: rest)) :
    Keeps (migrationWorld old) s (run_ (.cpArchive source destination)) always
      fun _ s' => CopiesOf old (places ∪ placeOf source) s' := by
  refine keeps_run_unit (halways s hs.1) fun result s' hstep => ?_
  have hcopies : CopiesToStaging old s source destination area result.success s' := by
    have hmoves := hstep.2
    simpa only [MovesFiles, hdestination] using hmoves
  have hholds : s'.holdsOld := hcopies.holdsOld ▸ hs.1
  refine ⟨halways s' hholds, fun hsuccess => ⟨hholds, ?_⟩⟩
  rintro place (hplace | hplace) file hfile
  · obtain ⟨area', harea'⟩ := hs.2 place hplace hfile
    exact ⟨area', hcopies.grows area' harea'⟩
  · exact ⟨area, hcopies.copies place hplace hs.1 hsuccess hfile⟩

theorem keeps_copyIntoStaging {sourceDirectory name area : String} {rest : TreePath}
    (halways : ∀ s : MigrationState, s.holdsOld → always s) (hs : CopiesOf old places s)
    (hdestination : stagedPlace s!"{stagingDirectory}/{name}/" = some (area :: rest)) :
    Keeps (migrationWorld old) s (copyIntoStaging sourceDirectory name) always
      fun _ s' => CopiesOf old (places ∪ placeOf s!"{sourceDirectory}/.") s' := by
  rw [copyIntoStaging, info, Program.log_bind, keeps_log, Program.ret_bind]
  refine (keeps_quiet ⟨rfl, rfl⟩ hs (halways s hs.1)).bind fun _ s' _ hs' => ?_
  exact keeps_cpArchive halways hs' hdestination

/-- The place of an additional path, unless the shell takes the path apart. -/
def additionalPlace (path : String) : Set TreePath :=
  {place | isPlainWord path ∧ place = "@" :: pathComponents path}

theorem placeOf_pathInOldRoot (path : String) :
    placeOf (pathInOldRoot path) = additionalPlace path := by
  ext place
  simp only [placeOf, additionalPlace, oldPlace_pathInOldRoot, Set.mem_ofPred_eq]
  by_cases hplain : isPlainWord path = true
  · simp [hplain, eq_comm]
  · simp [hplain]

theorem keeps_stageAdditionalPath {path : String}
    (halways : ∀ s : MigrationState, s.holdsOld → always s) (hs : CopiesOf old places s) :
    Keeps (migrationWorld old) s (stageAdditionalPath path) always
      fun _ s' => CopiesOf old (places ∪ additionalPlace path) s' := by
  have hfound : Keeps (migrationWorld old) s (pathExists (pathInOldRoot path)) always
      fun found s' => s' = s ∧ (isPlainWord path →
        (found ↔ old.passes .exists ("@" :: pathComponents path))) := by
    refine keeps_probe (halways s hs.1) fun result s' hstep => ?_
    obtain rfl := LeavesFiles.test.eq hstep
    refine ⟨halways s' hs.1, rfl, fun hplain => ?_⟩
    exact hstep.1.1 _ (by rw [oldPlace_pathInOldRoot, if_pos hplain]) hs.1
  refine hfound.bind fun found s' _ hs' => ?_
  obtain ⟨rfl, hpasses⟩ := hs'
  refine .onlyIf (fun _ => ?_) (halways s' hs.1) fun hmissing => ?_
  · refine (keeps_quiet ⟨rfl, rfl⟩ hs (halways s' hs.1)).bind fun _ s'' _ hs'' => ?_
    rw [← placeOf_pathInOldRoot]
    exact keeps_cpArchive halways hs'' (stagedPlace_additional path)
  · refine ⟨hs.1, ?_⟩
    rintro place (hplace | ⟨hplain, rfl⟩)
    · exact hs.2 place hplace
    · intro file hfile
      exact absurd ((hpasses hplain).mpr (OldSystem.passes_of_file hfile)) (by simp [hmissing])

/-! The three parts of `copiedPlaces`. -/

def homePlaces (config : InstallerConfig) (old : OldSystem) : Set TreePath := {place |
  config.migration.preserveHome ∧ homeSubvolumeOf old.listing ≠ "" ∧ place = ["@home"]}

def keyPlaces (config : InstallerConfig) (old : OldSystem) : Set TreePath := {place |
  config.migration.preserveSecureBootKeys ∧
    (holdsKeys old ∧ place = ["@", "var", "lib", "sbctl"] ∨
    ¬ holdsKeys old ∧ holdsLegacyKeys old ∧ place = ["@", "usr", "share", "secureboot"])}

def additionalPlaces (paths : List String) : Set TreePath :=
  {place | ∃ path ∈ paths, place ∈ additionalPlace path}

theorem copiedPlaces_eq : copiedPlaces config old =
    homePlaces config old ∪ keyPlaces config old ∪ additionalPlaces config.migration.additionalPaths := by
  ext place
  simp only [copiedPlaces, homePlaces, keyPlaces, additionalPlaces, additionalPlace,
    Set.mem_ofPred_eq, Set.mem_union, or_assoc]

theorem homeSubvolumeOf_eq {listing : String} (h : homeSubvolumeOf listing ≠ "") :
    homeSubvolumeOf listing = "@home" := by
  unfold homeSubvolumeOf at h ⊢
  split
  · rfl
  · rename_i hmissing
    rw [if_neg hmissing] at h
    exact absurd rfl h

theorem keeps_copyHome {existing : ExistingInstallInfo}
    (halways : ∀ s : MigrationState, s.holdsOld → always s) (hs : CopiesOf old places s)
    (hinspected : Inspected old existing) :
    Keeps (migrationWorld old) s
      (onlyIf (config.migration.preserveHome && existing.homeSubvolume != "")
        (copyIntoStaging s!"{oldMountDirectory}/{existing.homeSubvolume}" "home")) always
      fun _ s' => CopiesOf old (places ∪ homePlaces config old) s' := by
  have hcopy : ∀ source, Keeps (migrationWorld old) s (copyIntoStaging source "home") always
      fun _ s' => CopiesOf old (places ∪ placeOf s!"{source}/.") s' := fun source =>
    keeps_copyIntoStaging halways hs (show stagedPlace _ = some ["home"] by decide)
  refine .onlyIf (fun hcopies => ?_) (halways s hs.1) fun hskips => ?_
  · simp only [hinspected.home, Bool.and_eq_true, bne_iff_ne] at hcopies
    rw [hinspected.home, homeSubvolumeOf_eq hcopies.2]
    refine (hcopy _).mono fun _ s' _ hs' => hs'.mono ?_
    refine Set.union_subset_union_right places fun place hhome => ?_
    rw [hhome.2.2]
    change oldPlace _ = some ["@home"]
    decide
  · simp only [hinspected.home, Bool.and_eq_false_iff, bne_eq_false_iff_eq] at hskips
    refine hs.mono (Set.union_subset (Set.Subset.refl _) fun place hhome => ?_)
    obtain hoff | hnone := hskips
    · exact absurd hhome.1 (by simp [hoff])
    · exact absurd hnone hhome.2.1

theorem keeps_copyKeys {existing : ExistingInstallInfo}
    (halways : ∀ s : MigrationState, s.holdsOld → always s) (hs : CopiesOf old places s)
    (hinspected : Inspected old existing) :
    Keeps (migrationWorld old) s
      (onlyIf (config.migration.preserveSecureBootKeys && existing.secureBootDirectory != "")
        (copyIntoStaging existing.secureBootDirectory "sbctl")) always
      fun _ s' => CopiesOf old (places ∪ keyPlaces config old) s' := by
  have hcopy : ∀ source, Keeps (migrationWorld old) s (copyIntoStaging source "sbctl") always
      fun _ s' => CopiesOf old (places ∪ placeOf s!"{source}/.") s' := fun source =>
    keeps_copyIntoStaging halways hs (show stagedPlace _ = some ["sbctl"] by decide)
  refine .onlyIf (fun _ => ?_) (halways s hs.1) fun hskips => ?_
  · refine (hcopy _).mono fun _ s' _ hs' => hs'.mono ?_
    refine Set.union_subset_union_right places fun place hplace => ?_
    obtain ⟨-, ⟨hholds, rfl⟩ | ⟨hnone, hholds, rfl⟩⟩ := hplace
    · rw [hinspected.keys hholds]
      change oldPlace _ = some ["@", "var", "lib", "sbctl"]
      decide
    · rw [hinspected.legacyKeys hnone hholds]
      change oldPlace _ = some ["@", "usr", "share", "secureboot"]
      decide
  · refine hs.mono (Set.union_subset (Set.Subset.refl _) fun place hplace => ?_)
    have hdirectory : existing.secureBootDirectory = "" := by
      have hon : config.migration.preserveSecureBootKeys = true := hplace.1
      simpa [hon] using hskips
    obtain ⟨-, ⟨hholds, -⟩ | ⟨hnone, hholds, -⟩⟩ := hplace
    · exact absurd ((hinspected.keys hholds).symm.trans hdirectory) (by decide)
    · exact absurd ((hinspected.legacyKeys hnone hholds).symm.trans hdirectory) (by decide)

/-- After the copies every file at the copied places is staged. -/
theorem keeps_copyToStaging {existing : ExistingInstallInfo}
    (halways : ∀ s : MigrationState, s.holdsOld → always s) (hs : s.holdsOld)
    (hinspected : Inspected old existing) :
    Keeps (migrationWorld old) s (copyToStaging config existing) always
      fun _ s' => CopiesOf old (copiedPlaces config old) s' := by
  have hremove : Keeps (migrationWorld old) s (run_ (.rmRecursive stagingDirectory)) always
      fun _ s' => CopiesOf old ∅ s' := by
    refine keeps_run_unit (halways s hs) fun result s' hstep => ?_
    have hremoves : RemovesStaging s result.success s' := by simpa [MovesFiles] using hstep.2
    have hholds : s'.holdsOld := hremoves.holdsOld ▸ hs
    exact ⟨halways s' hholds, fun _ => ⟨hholds, by simp⟩⟩
  have hadditional : ∀ s, CopiesOf old (homePlaces config old ∪ keyPlaces config old) s →
      Keeps (migrationWorld old) s (forEach config.migration.additionalPaths stageAdditionalPath)
        always fun _ s' => CopiesOf old (copiedPlaces config old) s' := by
    intro s hs
    rw [copiedPlaces_eq]
    refine Keeps.forEach (I := fun done s => CopiesOf old
      (homePlaces config old ∪ keyPlaces config old ∪ additionalPlaces done) s) (halways s hs.1) ?_ ?_
    · simpa [additionalPlaces] using hs
    · intro done path s _ _ hs
      refine (keeps_stageAdditionalPath halways hs).mono fun _ s' _ hs' => hs'.mono ?_
      rintro place (hplace | ⟨path', hpath', hplace⟩)
      · exact .inl (.inl hplace)
      · obtain hdone | rfl := by simpa using hpath'
        · exact .inl (.inr ⟨path', hdone, hplace⟩)
        · exact .inr hplace
  refine hremove.bind fun _ s' _ hs' => ?_
  refine (keeps_quiet ⟨rfl, rfl⟩ hs' (halways s' hs'.1)).bind fun _ s' _ hs' => ?_
  refine (keeps_copyHome halways hs' hinspected).bind fun _ s' _ hs' => ?_
  refine (keeps_copyKeys halways hs' hinspected).bind fun _ s' _ hs' => ?_
  rw [Set.empty_union] at hs'
  exact hadditional s' hs'

theorem keeps_stageMountedSystem {disk partition : String}
    (halways : ∀ s : MigrationState, s.holdsOld → always s) (hs : s.holdsOld) :
    Keeps (migrationWorld old) s (stageMountedSystem config disk partition) always
      fun _ s' => CopiesOf old (copiedPlaces config old) s' := by
  refine (keeps_inspectMountedSystem hs (halways s hs)).bind fun existing s' _ hs' => ?_
  obtain ⟨rfl, hinspected⟩ := hs'
  have hlog : ∀ message, Keeps (migrationWorld old) s' (info message) always
      fun _ s'' => s''.holdsOld := fun _ => keeps_log.mpr (keeps_ret (halways s' hs) hs)
  refine (hlog _).bind fun _ s'' _ hs'' => ?_
  have hspace : Keeps (migrationWorld old) s'' (ensureStagingSpace config existing) always
      fun _ s'' => s''.holdsOld :=
    keeps_elsewhere issues_ensureStagingSpace_elsewhere hs'' halways
  exact hspace.bind fun _ s'' _ hs'' => keeps_copyToStaging halways hs'' hinspected

/-- A staging step that returns has staged what there is at the copied places. -/
theorem keeps_execute (halways : ∀ s : MigrationState, s.holdsOld → always s) (hs : s.holdsOld) :
    Keeps (migrationWorld old) s (execute config) always
      fun _ s' => CopiesOf old (copiedPlaces config old) s' := by
  have hfind : Keeps (migrationWorld old) s (findLuksPartition config.storage.targetDisk) always
      fun _ s' => s'.holdsOld := keeps_elsewhere issues_findLuksPartition_elsewhere hs halways
  have hclean : ∀ (Q : MigrationState → Prop) (s : MigrationState), always s → Q s →
      Keeps (migrationWorld old) s unmountAndClose always fun _ s' => Q s' := by
    intro Q s hs hQ
    have hboth : Keeps (migrationWorld old) s unmountAndClose always fun _ s' => always s' ∧ Q s' :=
      keeps_elsewhere (I := fun s => always s ∧ Q s) issues_unmountAndClose_elsewhere ⟨hs, hQ⟩
        fun _ h => h.1
    exact hboth.mono fun _ _ _ h => h.2
  refine hfind.bind fun partition s' _ hs' => ?_
  have hopen : Keeps (migrationWorld old) s' (openAndMount config partition) always
      fun _ s'' => s''.holdsOld := keeps_elsewhere issues_openAndMount_elsewhere hs' halways
  refine hopen.bind fun _ s'' _ hs'' => ?_
  refine ((keeps_stageMountedSystem halways hs'').tryFinally fun Q s _ hs hQ =>
    hclean Q s hs hQ).bind fun _ s''' hs''' hcopies => ?_
  rw [info, keeps_log]
  exact keeps_ret hs''' hcopies

end Copies

/-! ## A run that stages no more -/

/-- The disk holds the old system, and nothing is staged that does not lie at a copied place. -/
def StagesOnly (config : InstallerConfig) (old : OldSystem) (s : MigrationState) : Prop :=
  s.holdsOld ∧ s.allStaged ⊆ copiedFiles config old

section Reaches

/-- A path below the old system's directory is not below the staging directory. -/
theorem stagedPlace_pathInOldRoot (path : String) : stagedPlace (pathInOldRoot path) = none := by
  have hold : pathComponents oldMountDirectory = ["tmp", "old-system"] := by decide
  have hstaging : pathComponents stagingDirectory = ["tmp", "migration-staging"] := by decide
  rw [stagedPlace, pathInOldRoot_eq, pathComponents_slash, hold, hstaging]
  simp [below]

/-- `test` answers truly, and does not find what is no plain word. -/
theorem reaches_test {flag : TestFlag} {path : String} (hstaged : stagedPlace path = none) :
    Reaches (migrationWorld old) s (probe (.test flag path)) fun found s' => s' = s ∧
      (found ↔ ∃ place, oldPlace path = some place ∧ old.passes flag place) := by
  have hstep : ∀ answer : CommandExecutionResult,
      (answer.success ↔ ∃ place, oldPlace path = some place ∧ old.passes flag place) →
      migrationWorld old s (unchecked (.test flag path)) answer s := by
    intro answer hanswer
    refine ⟨⟨fun place hplace _ => ?_, fun place hplace => ?_⟩, LeavesFiles.test.movesFiles_iff.mpr rfl⟩
    · rw [hanswer]
      simp [hplace]
    · rw [hstaged] at hplace
      cases hplace
  by_cases hpasses : ∃ place, oldPlace path = some place ∧ old.passes flag place
  · exact reaches_probe (answering "") (hstep _ (iff_of_true rfl hpasses))
      ⟨rfl, iff_of_true rfl hpasses⟩
  · exact reaches_probe ⟨1, "", ""⟩ (hstep _ (iff_of_false (by decide) hpasses))
      ⟨rfl, iff_of_false (by decide) hpasses⟩

theorem reaches_findSecureBootDirectory :
    Reaches (migrationWorld old) s findSecureBootDirectory fun directory s' => s' = s ∧
      (holdsKeys old → directory = pathInOldRoot sbctlDirectory) ∧
      (¬ holdsKeys old → holdsLegacyKeys old → directory = pathInOldRoot sbctlLegacyDirectory) ∧
      (¬ holdsKeys old → ¬ holdsLegacyKeys old → directory = "") := by
  refine (reaches_test (by decide)).bind fun found s' hfound => ?_
  obtain ⟨rfl, hkeys⟩ := hfound
  rw [oldPlace_keys] at hkeys
  simp only [Option.some.injEq, exists_eq_left'] at hkeys
  cases found with
  | true =>
    have hholds : holdsKeys old := hkeys.mp rfl
    exact reaches_ret ⟨rfl, fun _ => rfl, fun h => absurd hholds h, fun h => absurd hholds h⟩
  | false =>
    have hnone : ¬ holdsKeys old := fun h => Bool.false_ne_true (hkeys.mpr h)
    refine (reaches_test (by decide)).bind fun found s'' hfound => ?_
    obtain ⟨rfl, hlegacy⟩ := hfound
    rw [oldPlace_legacyKeys] at hlegacy
    simp only [Option.some.injEq, exists_eq_left'] at hlegacy
    cases found with
    | true =>
      have hholds : holdsLegacyKeys old := hlegacy.mp rfl
      exact reaches_ret ⟨rfl, fun h => absurd h hnone, fun _ _ => rfl, fun _ h => absurd hholds h⟩
    | false =>
      have hnone' : ¬ holdsLegacyKeys old := fun h => Bool.false_ne_true (hlegacy.mpr h)
      exact reaches_ret ⟨rfl, fun h => absurd h hnone, fun _ h => absurd h hnone', fun _ _ => rfl⟩

theorem reaches_inspectMountedSystem {disk partition : String} :
    Reaches (migrationWorld old) s (inspectMountedSystem disk partition)
      fun existing s' => s' = s ∧ Inspected old existing ∧ existing.homeSizeMb = 0 := by
  have hlisting : Reaches (migrationWorld old) s (query (.subvolumeList oldMountDirectory))
      fun listing s' => s' = s ∧ listing = old.listing :=
    reaches_query (answering old.listing)
      ⟨fun _ _ => rfl, LeavesFiles.movesFiles_iff ⟨rfl, rfl⟩ |>.mpr rfl⟩ ⟨rfl, rfl⟩
  refine hlisting.bind fun listing s' hlisted => ?_
  obtain ⟨rfl, rfl⟩ := hlisted
  have hkeys : Reaches (migrationWorld old) s' (do
      let secureBootDirectory ← findSecureBootDirectory
      return ({ disk, rootPartition := partition, homeSubvolume := homeSubvolumeOf old.listing,
                homeSizeMb := 0, secureBootDirectory } : ExistingInstallInfo))
      fun existing s'' => s'' = s' ∧ Inspected old existing ∧ existing.homeSizeMb = 0 := by
    refine reaches_findSecureBootDirectory.bind fun directory s'' hdirectory => ?_
    obtain ⟨rfl, hkeys, hlegacy, hnone⟩ := hdirectory
    exact reaches_ret ⟨rfl, ⟨rfl, hkeys, hlegacy, hnone⟩, rfl⟩
  by_cases hhome : (homeSubvolumeOf old.listing != "") = true
  · rw [if_pos hhome]
    refine (reaches_elsewhere issues_sizeMb_elsewhere canReturn_sizeMb).bind fun size s'' hs'' => ?_
    obtain ⟨rfl, rfl⟩ := hs''
    exact hkeys
  · rw [if_neg hhome]
    exact hkeys

theorem reaches_quiet {command : Command} (helsewhere : LooksElsewhere (checked command))
    {I : MigrationState → Prop} (hs : I s) :
    Reaches (migrationWorld old) s (run_ command) fun _ s' => I s' :=
  reaches_run_unit (answering "") (helsewhere.step _) rfl hs

theorem reaches_cpArchive {source destination area : String} {rest : TreePath}
    (hs : StagesOnly config old s) (hdestination : stagedPlace destination = some (area :: rest))
    (hsource : placeOf source ⊆ copiedPlaces config old) :
    Reaches (migrationWorld old) s (run_ (.cpArchive source destination))
      fun _ s' => StagesOnly config old s' := by
  let copied : Set TreePath := {file | ∃ place ∈ placeOf source, file ∈ old.filesBelow place}
  have hcopies : CopiesToStaging old s source destination area true (s.addStaged area copied) := by
    refine ⟨rfl, rfl, fun area' => ?_, fun area' => ?_, fun _ _ area' harea => ?_,
      fun place hplace _ _ file hfile => ?_⟩
    · by_cases harea : area' = area
      · subst harea
        simp [MigrationState.addStaged]
      · simp [MigrationState.addStaged, harea]
    · by_cases harea : area' = area
      · subst harea
        simp only [MigrationState.addStaged, Function.update_self]
        refine Set.union_subset_union_right _ fun file hfile => ?_
        obtain ⟨place, -, hfile⟩ := hfile
        exact hfile.1
      · simp [MigrationState.addStaged, harea]
    · simp [MigrationState.addStaged, harea]
    · simp only [MigrationState.addStaged, Function.update_self]
      exact .inr ⟨place, hplace, hfile⟩
  have hmoves : MovesFiles old s (checked (.cpArchive source destination)) (answering "")
      (s.addStaged area copied) := by
    simp only [MovesFiles, hdestination]
    exact hcopies
  refine reaches_run_unit (answering "") ⟨trivial, hmoves⟩ rfl ⟨hs.1, ?_⟩
  rintro file ⟨area', hfile⟩
  by_cases harea : area' = area
  · subst harea
    simp only [MigrationState.addStaged, Function.update_self] at hfile
    obtain hbefore | ⟨place, hplace, hfile⟩ := hfile
    · exact hs.2 ⟨area', hbefore⟩
    · exact ⟨place, hsource hplace, hfile⟩
  · simp only [MigrationState.addStaged, ne_eq, harea, not_false_eq_true,
      Function.update_of_ne] at hfile
    exact hs.2 ⟨area', hfile⟩

/-- A word that names one place names no other. -/
theorem placeOf_subset {word : String} {place : TreePath} {places : Set TreePath}
    (hword : oldPlace word = some place) (hplace : place ∈ places) : placeOf word ⊆ places := by
  intro place' hplace'
  have heq : some place = some place' := hword.symm.trans hplace'
  obtain rfl : place = place' := by simpa using heq
  exact hplace

theorem reaches_copyIntoStaging {sourceDirectory name area : String} {rest : TreePath}
    (hs : StagesOnly config old s)
    (hdestination : stagedPlace s!"{stagingDirectory}/{name}/" = some (area :: rest))
    (hsource : placeOf s!"{sourceDirectory}/." ⊆ copiedPlaces config old) :
    Reaches (migrationWorld old) s (copyIntoStaging sourceDirectory name)
      fun _ s' => StagesOnly config old s' := by
  rw [copyIntoStaging, info, Program.log_bind, reaches_log, Program.ret_bind]
  have helsewhere : LooksElsewhere (checked (.mkdir s!"{stagingDirectory}/{name}")) := by
    simp [LooksElsewhere, LeavesFiles, Command.writes, Command.movesFiles]
  exact (reaches_quiet helsewhere hs).bind fun _ s' hs' =>
    reaches_cpArchive hs' hdestination hsource

theorem reaches_copyHome {existing : ExistingInstallInfo} (hs : StagesOnly config old s)
    (hinspected : Inspected old existing) :
    Reaches (migrationWorld old) s
      (onlyIf (config.migration.preserveHome && existing.homeSubvolume != "")
        (copyIntoStaging s!"{oldMountDirectory}/{existing.homeSubvolume}" "home"))
      fun _ s' => StagesOnly config old s' := by
  refine .onlyIf (fun hcopies => ?_) fun _ => hs
  simp only [hinspected.home, Bool.and_eq_true, bne_iff_ne] at hcopies
  rw [hinspected.home, homeSubvolumeOf_eq hcopies.2]
  refine reaches_copyIntoStaging hs (show stagedPlace _ = some ["home"] by decide) ?_
  have hhome : ["@home"] ∈ copiedPlaces config old := .inl ⟨hcopies.1, hcopies.2, rfl⟩
  exact placeOf_subset (by decide) hhome

theorem reaches_copyKeys {existing : ExistingInstallInfo} (hs : StagesOnly config old s)
    (hinspected : Inspected old existing) :
    Reaches (migrationWorld old) s
      (onlyIf (config.migration.preserveSecureBootKeys && existing.secureBootDirectory != "")
        (copyIntoStaging existing.secureBootDirectory "sbctl"))
      fun _ s' => StagesOnly config old s' := by
  refine .onlyIf (fun hcopies => ?_) fun _ => hs
  rw [Bool.and_eq_true, bne_iff_ne] at hcopies
  refine reaches_copyIntoStaging hs (show stagedPlace _ = some ["sbctl"] by decide) ?_
  by_cases hkeys : holdsKeys old
  · rw [hinspected.keys hkeys]
    have hplace : ["@", "var", "lib", "sbctl"] ∈ copiedPlaces config old :=
      .inr (.inl ⟨hcopies.1, .inl ⟨hkeys, rfl⟩⟩)
    exact placeOf_subset (by decide) hplace
  · by_cases hlegacy : holdsLegacyKeys old
    · rw [hinspected.legacyKeys hkeys hlegacy]
      have hplace : ["@", "usr", "share", "secureboot"] ∈ copiedPlaces config old :=
        .inr (.inl ⟨hcopies.1, .inr ⟨hkeys, hlegacy, rfl⟩⟩)
      exact placeOf_subset (by decide) hplace
    · exact absurd (hinspected.noKeys hkeys hlegacy) hcopies.2

theorem reaches_stageAdditionalPath {path : String} (hs : StagesOnly config old s)
    (hpath : path ∈ config.migration.additionalPaths) :
    Reaches (migrationWorld old) s (stageAdditionalPath path)
      fun _ s' => StagesOnly config old s' := by
  refine (reaches_test (stagedPlace_pathInOldRoot path)).bind fun found s' hfound => ?_
  obtain ⟨rfl, -⟩ := hfound
  refine .onlyIf (fun _ => ?_) fun _ => hs
  have helsewhere : ∀ directory, LooksElsewhere (checked (.mkdir directory)) := by
    simp [LooksElsewhere, LeavesFiles, Command.writes, Command.movesFiles]
  refine (reaches_quiet (helsewhere _) hs).bind fun _ s'' hs'' => ?_
  refine reaches_cpArchive hs'' (stagedPlace_additional path) ?_
  rw [placeOf_pathInOldRoot]
  exact fun place hplace => .inr (.inr ⟨path, hpath, hplace⟩)

theorem reaches_copyToStaging {existing : ExistingInstallInfo} (hs : s.holdsOld)
    (hinspected : Inspected old existing) :
    Reaches (migrationWorld old) s (copyToStaging config existing)
      fun _ s' => StagesOnly config old s' := by
  let emptied : MigrationState := { s with staged := fun _ => ∅ }
  have hremoves : RemovesStaging s true emptied := ⟨rfl, rfl, fun _ => by simp [emptied], by simp [emptied]⟩
  have hmoves : MovesFiles old s (checked (.rmRecursive stagingDirectory)) (answering "") emptied := by
    simp only [MovesFiles, if_true]
    exact hremoves
  have hremove : Reaches (migrationWorld old) s (run_ (.rmRecursive stagingDirectory))
      fun _ s' => StagesOnly config old s' := by
    refine reaches_run_unit (answering "") ⟨trivial, hmoves⟩ rfl ⟨hs, ?_⟩
    rintro file ⟨area, hfile⟩
    exact absurd hfile (Set.notMem_empty file)
  have helsewhere : LooksElsewhere (checked (.mkdir stagingDirectory)) := by
    simp [LooksElsewhere, LeavesFiles, Command.writes, Command.movesFiles]
  refine hremove.bind fun _ s' hs' => ?_
  refine (reaches_quiet helsewhere hs').bind fun _ s' hs' => ?_
  refine (reaches_copyHome hs' hinspected).bind fun _ s' hs' => ?_
  refine (reaches_copyKeys hs' hinspected).bind fun _ s' hs' => ?_
  exact .forEach hs' fun path hpath s hs => reaches_stageAdditionalPath hs hpath

/-- There is a run that returns and stages nothing but what lies at the copied places. -/
theorem reaches_execute (hs : s.holdsOld) :
    Reaches (migrationWorld old) s (execute config) fun _ s' => StagesOnly config old s' := by
  obtain ⟨partition, hpartition⟩ := canReturn_findLuksPartition config.storage.targetDisk
  refine (reaches_elsewhere issues_findLuksPartition_elsewhere hpartition).bind fun found s' hs' => ?_
  obtain ⟨-, rfl⟩ := hs'
  refine (reaches_elsewhere issues_openAndMount_elsewhere canReturn_openAndMount).bind
    fun _ s' hs' => ?_
  obtain ⟨-, rfl⟩ := hs'
  have hstage : Reaches (migrationWorld old) s' (stageMountedSystem config config.storage.targetDisk
      found) fun _ s'' => StagesOnly config old s'' := by
    refine reaches_inspectMountedSystem.bind fun existing s'' hs'' => ?_
    obtain ⟨rfl, hinspected, hsize⟩ := hs''
    have hlog : ∀ message, Reaches (migrationWorld old) s'' (info message)
        fun _ s => s = s'' := fun _ => reaches_log.mpr (reaches_ret rfl)
    refine (hlog _).bind fun _ s hs => ?_
    subst hs
    refine (reaches_elsewhere issues_ensureStagingSpace_elsewhere
      (canReturn_ensureStagingSpace hsize)).bind fun _ s' hs' => ?_
    obtain ⟨-, rfl⟩ := hs'
    exact reaches_copyToStaging hs hinspected
  have hclean : CanAlwaysReturn unmountAndClose () := by simp [unmountAndClose]
  refine (hstage.tryFinally fun _ s hs => ?_).bind fun _ s hs => ?_
  · refine (reaches_elsewhere issues_unmountAndClose_elsewhere hclean).mono fun _ s' hs' => ?_
    obtain ⟨-, rfl⟩ := hs'
    exact hs
  · exact reaches_log.mpr (reaches_ret hs)

end Reaches

/-! ## The claim of the step -/

theorem covers_of_losesNothing (h : LosesNothing config old) : Covers config old := by
  intro path hpreserved hfile
  let start : MigrationState := ⟨true, fun _ => ∅, ∅⟩
  have hreaches : Reaches (migrationWorld old) start (execute config)
      fun _ s' => StagesOnly config old s' := reaches_execute rfl
  obtain ⟨exchanges, _, s', hrun, hreplay, -, honly⟩ := hreaches
  exact honly ((h start s' exchanges _ rfl hrun hreplay).2 rfl path hpreserved hfile)

theorem losesNothing_of_covers (h : Covers config old) : LosesNothing config old := by
  intro s s' exchanges outcome hs hrun hreplay
  refine ⟨fun x hx => (issues_execute.of_runs hrun x hx).1, fun houtcome path hpreserved hfile => ?_⟩
  have hkeeps : Keeps (migrationWorld old) s (execute config) (fun _ => True)
      fun _ s' => CopiesOf old (copiedPlaces config old) s' := keeps_execute (fun _ _ => trivial) hs
  obtain ⟨-, hpost⟩ := hkeeps exchanges outcome s' hrun hreplay
  obtain ⟨place, hplace, hbelow⟩ := h path hpreserved hfile
  exact (hpost () houtcome).2 place hplace hbelow

def installedFiles : List TreePath :=
  [["@home", "user", "notes.txt"], ["@var", "lib", "sbctl", "keys", "db", "db.key"]]

def installedDirectories : List TreePath :=
  [[], ["@"], ["@home"], ["@home", "user"], ["@var"], ["@var", "lib"], ["@var", "lib", "sbctl"],
    ["@var", "lib", "sbctl", "keys"], ["@var", "lib", "sbctl", "keys", "db"]]

def installedMounts : TreePath → Option TreePath
  | ["home"] => some ["@home"]
  | ["var"] => some ["@var"]
  | _ => none

/-- `/var` is a subvolume of its own, as in the installer's own layout. -/
def installedSystem : OldSystem where
  files := {file | file ∈ installedFiles}
  directories := {place | place ∈ installedDirectories}
  closed := by
    intro place name h
    have hparents : ∀ inner ∈ installedFiles ++ installedDirectories,
        inner.dropLast ∈ installedDirectories := by decide
    have hplace := hparents (place ++ [name]) (List.mem_append.mpr h)
    rwa [List.dropLast_concat] at hplace
  listing := "ID 256 gen 9 top level 5 path @\nID 257 gen 9 top level 5 path @home\n" ++
    "ID 258 gen 9 top level 5 path @var\n"
  root := ["@"]
  mounts := installedMounts

end ArchInstaller.MigrationStagingStepExecutor
