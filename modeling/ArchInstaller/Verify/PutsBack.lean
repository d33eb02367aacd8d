import ArchInstaller.Executors.Migration
import ArchInstaller.Interaction.Triple
import ArchInstaller.Verify.LastCopy
import ArchInstaller.World.FileSystem

/-! # Staging, and restoring what was staged

Restoring puts every file of the additional paths back where it was, as long as no additional path
is a directory that an earlier one holds or leads into: `cp -a` copies such a directory into
itself, one level too deep. -/

namespace ArchInstaller

open Files Interaction PyText Script

variable {κ : Type}

def oldMountPlace : List String := ["tmp", "old-system"]

def stagingPlace : List String := ["tmp", "migration-staging"]

def additionalPlace : List String := stagingPlace ++ ["additional"]

def targetPlace : List String := ["mnt"]

def sbctlPlace : List String := ["var", "lib", "sbctl"]

def sbctlLegacyPlace : List String := ["usr", "share", "secureboot"]

/-- The place of a path in the old system, whose `/` is the `@` subvolume of the volume. -/
def rootPlace (path : String) : List String := "@" :: pathComponents path

/-- The shell takes the path as it stands, and it goes up nowhere. -/
def IsPlace (path : String) : Prop := wordPlace path = some (pathComponents path)

/-! ## The claim -/

/-- There is an additional path in the old system. -/
def Existing (old : Volume String κ) (path : String) : Prop :=
  Finds old.tree (pathInOldRoot path) (rootPlace path) .exists

/-- A path of the old home directories, or a directory that leads to them. -/
def FromHome (old : Volume String κ) (path : List String) : Prop :=
  path <+: ["home"] ∨ ∃ rest, path = "home" :: rest ∧ old.tree ("@home" :: rest) ≠ none

/-- A path of the old sbctl directory, or a directory that leads to it. -/
def FromSbctl (old : Volume String κ) (path : List String) : Prop :=
  path <+: sbctlPlace ∨ ∃ rest, path = sbctlPlace ++ rest ∧
    (old.tree ("@" :: sbctlPlace ++ rest) ≠ none ∨ old.tree ("@" :: sbctlLegacyPlace ++ rest) ≠ none)

/-- A path of an additional path, or a directory that leads to it. -/
def FromAdditional (old : Volume String κ) (paths : List String) (path : List String) : Prop :=
  ∃ additional ∈ paths, Existing old additional ∧ (path <+: pathComponents additional ∨
    pathComponents additional <+: path ∧ old.tree ("@" :: path) ≠ none)

/-- Every file of an additional path is at its path in the target, and the target has no new path
that did not come from the old system. -/
structure PutBack (old : Volume String κ) (paths : List String) (before after : Tree String κ) :
    Prop where
  files : ∀ additional ∈ paths, Existing old additional → ∀ path content,
    pathComponents additional <+: path → old.tree ("@" :: path) = some (.file content) →
      after (targetPlace ++ path) = some (.file content)
  noOthers : ∀ path, before (targetPlace ++ path) = none → after (targetPlace ++ path) ≠ none →
    FromHome old path ∨ FromSbctl old path ∨ FromAdditional old paths path

/-- Whatever the old system is and whatever happens to the other files between the two steps: when
both succeed, the files are put back. -/
def PutsBack (κ : Type) (config : InstallerConfig) : Prop :=
  ∀ (old : Volume String κ) (start staged before after : Tree String κ) (staging restoring),
    Runs (MigrationStagingStepExecutor.execute config) staging (.returned ()) →
    Replays (fileWorld old.tree) start staging staged →
    (∀ rest, before (stagingPlace ++ rest) = staged (stagingPlace ++ rest)) →
    Runs (MigrationRestoreStepExecutor.execute config) restoring (.returned ()) →
    Replays (fileWorld old.tree) before restoring after →
    PutBack old config.migration.additionalPaths before after

/-- No additional path is a directory that leads to an earlier one or that is in an earlier one. -/
def ApartIn (old : Volume String κ) : List String → Prop :=
  List.Pairwise fun earlier later => Existing old earlier → Existing old later →
    (pathComponents later <+: pathComponents earlier →
      pathComponents later = pathComponents earlier) ∧
    (pathComponents earlier <+: pathComponents later →
      old.tree (rootPlace later) ≠ some .directory)

/-- No additional path is in another one, and none is listed twice. -/
def Apart : List String → Prop :=
  List.Pairwise fun earlier later => ¬ pathComponents later <+: pathComponents earlier ∧
    ¬ pathComponents earlier <+: pathComponents later

theorem Apart.apartIn {paths : List String} (h : Apart paths) (old : Volume String κ) :
    ApartIn old paths :=
  h.imp fun hpair _ _ => ⟨fun hlater => absurd hlater hpair.1, fun hearlier =>
    absurd hearlier hpair.2⟩

/-! ## The words of the commands -/

theorem wordPlace_pathInOldRoot {path : String} (h : IsPlace path) :
    wordPlace (pathInOldRoot path) = some (oldMountPlace ++ rootPlace path) := by
  have hword : pathInOldRoot path = oldMountDirectory ++ "/@" ++ "/" ++ lstripSlash path := by
    simp only [pathInOldRoot, toString, String.append_assoc]
    rfl
  have hroot : wordPlace (oldMountDirectory ++ "/@") = some (oldMountPlace ++ ["@"]) := by decide
  rw [hword, wordPlace_slash hroot ((wordPlace_lstripSlash path).trans h), rootPlace]
  rfl

/-- Where `_copy_to_staging` copies an additional path. -/
def stagedWord (path : String) : String := s!"{stagingDirectory}/additional/{lstripSlash path}"

theorem wordPlace_stagedWord {path : String} (h : IsPlace path) :
    wordPlace (stagedWord path) = some (additionalPlace ++ pathComponents path) := by
  have hword : stagedWord path = stagingDirectory ++ "/additional" ++ "/" ++ lstripSlash path := by
    simp only [stagedWord, toString, String.append_assoc]
    rfl
  have harea : wordPlace (stagingDirectory ++ "/additional") = some additionalPlace := by decide
  rw [hword, wordPlace_slash harea ((wordPlace_lstripSlash path).trans h)]

theorem wordPlace_pathParent {word : String} {place : List String} (h : wordPlace word = some place) :
    wordPlace (pathParent word) = some place.dropLast := by
  obtain rfl := wordPlace_eq h
  exact wordPlace_join fun name hname => wordPlace_of_mem h ((List.dropLast_sublist _).subset hname)

/-! ## What a step of the staging keeps -/

/-- Only what is below a place, or leads to it, may be another. -/
def OnlyAt (place : List String) (t t' : Tree String κ) : Prop :=
  ∀ path, ¬ place <+: path → ¬ path <+: place → t' path = t path

/-- The old system is mounted. -/
def Mounted (old : Volume String κ) (t : Tree String κ) : Prop :=
  ∀ path, t (oldMountPlace ++ path) = old.tree path

variable {old : Volume String κ} {t t' t'' : Tree String κ} {place rest : List String}

theorem OnlyAt.trans (h : OnlyAt place t t') (h' : OnlyAt place t' t'') : OnlyAt place t t'' :=
  fun path hbelow habove => (h' path hbelow habove).trans (h path hbelow habove)

theorem onlyAt_mkdirs : OnlyAt place t (t.mkdirs place) :=
  fun _ _ habove => Tree.mkdirs_of_not_above habove

theorem onlyAt_mkdirs_dropLast : OnlyAt place t (t.mkdirs place.dropLast) :=
  fun _ _ habove => Tree.mkdirs_of_not_above fun h => habove (h.trans place.dropLast_prefix)

theorem onlyAt_graft {s : Tree String κ} : OnlyAt place t (t.graft s place) :=
  fun _ hbelow _ => Tree.graft_of_not_below hbelow

theorem Mounted.of_onlyAt (rest : List String) (h : Mounted old t) (honly : OnlyAt (stagingPlace ++ rest) t t') :
    Mounted old t' := by
  intro path
  rw [honly _ (by simp [stagingPlace, oldMountPlace]) (by simp [stagingPlace, oldMountPlace])]
  exact h path

/-- One directory of the staging area is not touched by what happens in another. -/
theorem OnlyAt.other_area {area area' : String} {path : List String}
    (h : OnlyAt (stagingPlace ++ area :: rest) t t') (harea : area ≠ area') :
    t' (stagingPlace ++ area' :: path) = t (stagingPlace ++ area' :: path) :=
  h _ (not_prefix_append_of_ne harea) (not_prefix_append_of_ne harea.symm)

/-- What the staging area holds once the additional paths `done` are copied. -/
structure StagedData (old : Volume String κ) (done : List String) (t : Tree String κ) : Prop where
  directory : t stagingPlace = some .directory
  home : ∀ rest, t (stagingPlace ++ "home" :: rest) ≠ none →
    rest = [] ∨ old.tree ("@home" :: rest) ≠ none
  sbctl : ∀ rest, t (stagingPlace ++ "sbctl" :: rest) ≠ none → rest = [] ∨
    old.tree ("@" :: sbctlPlace ++ rest) ≠ none ∨ old.tree ("@" :: sbctlLegacyPlace ++ rest) ≠ none
  sound : ∀ path node, t (additionalPlace ++ path) = some node →
    ∃ additional ∈ done, Existing old additional ∧
      (path <+: pathComponents additional ∧ path ≠ pathComponents additional ∧ node = .directory ∨
        pathComponents additional <+: path ∧ old.tree ("@" :: path) = some node)
  complete : ∀ additional ∈ done, Existing old additional → ∀ path node,
    pathComponents additional <+: path → old.tree ("@" :: path) = some node →
      t (additionalPlace ++ path) = some node
  held : ∀ additional ∈ done, Existing old additional → t additionalPlace = some .directory

/-- A path that does not exist is skipped. -/
theorem StagedData.skip {done : List String} (h : StagedData old done t) {path : String}
    (hpath : ¬ Existing old path) : StagedData old (done ++ [path]) t where
  directory := h.directory
  home := h.home
  sbctl := h.sbctl
  sound place node hnode := by
    obtain ⟨additional, hmem, hsound⟩ := h.sound place node hnode
    exact ⟨additional, List.mem_append_left _ hmem, hsound⟩
  complete additional hmem hexisting := by
    rw [List.mem_append, List.mem_singleton] at hmem
    rcases hmem with hmem | rfl
    · exact h.complete additional hmem hexisting
    · exact absurd hexisting hpath
  held additional hmem hexisting := by
    rw [List.mem_append, List.mem_singleton] at hmem
    rcases hmem with hmem | rfl
    · exact h.held additional hmem hexisting
    · exact absurd hexisting hpath

/-- An additional path without names is the root of the old system, a directory. -/
theorem Existing.root {path : String} (h : Existing old path) (hplain : IsPlace path)
    (hroot : pathComponents path = []) : old.tree (rootPlace path) = some .directory := by
  have hempty : lstripSlash path = "" := lstripSlash_eq_empty hplain hroot
  refine h.2 ?_
  rw [pathInOldRoot, hempty]
  decide

/-- A path that is no directory inside an earlier one is copied to its place. -/
theorem StagedData.copy {done : List String} (h : StagedData old done t) {path : String}
    (hplain : IsPlace path) (hexisting : Existing old path) (hmounted : Mounted old t)
    (hapart : ∀ earlier ∈ done, Existing old earlier →
      (pathComponents path <+: pathComponents earlier →
        pathComponents path = pathComponents earlier) ∧
      (pathComponents earlier <+: pathComponents path →
        old.tree (rootPlace path) ≠ some .directory))
    (hmake : t.CanMake (additionalPlace ++ pathComponents path).dropLast)
    (hcopy : CopiedTo (t.mkdirs (additionalPlace ++ pathComponents path).dropLast) t'
      (oldMountPlace ++ rootPlace path)
      (copyTarget (t.mkdirs (additionalPlace ++ pathComponents path).dropLast)
        (oldMountPlace ++ rootPlace path) (additionalPlace ++ pathComponents path))) :
    Mounted old t' ∧ StagedData old (done ++ [path]) t' := by
  have hnotAbove : ¬ additionalPlace ++ pathComponents path <+:
      (additionalPlace ++ pathComponents path).dropLast := by
    intro hpre
    have hlength := hpre.length_le
    have hplace : 0 < additionalPlace.length := by decide
    rw [List.length_dropLast, List.length_append] at hlength
    omega
  have hfree : t (additionalPlace ++ pathComponents path) ≠ some .directory := by
    intro hdirectory
    obtain ⟨earlier, hmem, hearlier, ⟨hpre, hne, -⟩ | ⟨hpre, hroot⟩⟩ :=
      h.sound (pathComponents path) .directory hdirectory
    · exact hne ((hapart earlier hmem hearlier).1 hpre)
    · exact (hapart earlier hmem hearlier).2 hpre hroot
  have htarget : copyTarget (t.mkdirs (additionalPlace ++ pathComponents path).dropLast)
      (oldMountPlace ++ rootPlace path) (additionalPlace ++ pathComponents path) =
        additionalPlace ++ pathComponents path := by
    rw [copyTarget, Tree.mkdirs_of_not_above hnotAbove]
    split
    · next hdirectory => exact absurd hdirectory hfree
    · rfl
  rw [htarget] at hcopy
  obtain ⟨-, haccepted, rfl⟩ := hcopy
  have honly : OnlyAt (additionalPlace ++ pathComponents path) t (((t.mkdirs
      (additionalPlace ++ pathComponents path).dropLast).graft ((t.mkdirs
        (additionalPlace ++ pathComponents path).dropLast).subtree
          (oldMountPlace ++ rootPlace path)) (additionalPlace ++ pathComponents path))) :=
    onlyAt_mkdirs_dropLast.trans onlyAt_graft
  have hmounted' : Mounted old (t.mkdirs (additionalPlace ++ pathComponents path).dropLast) := by
    exact hmounted.of_onlyAt ("additional" :: pathComponents path) onlyAt_mkdirs_dropLast
  have hsource : (t.mkdirs (additionalPlace ++ pathComponents path).dropLast).subtree
      (oldMountPlace ++ rootPlace path) = fun rest => old.tree (rootPlace path ++ rest) := by
    funext rest
    rw [Tree.subtree_apply, List.append_assoc, hmounted']
  rw [hsource] at honly haccepted ⊢
  have honly' : OnlyAt (stagingPlace ++ "additional" :: pathComponents path) t _ := honly
  refine ⟨hmounted.of_onlyAt _ honly', ?_, ?_, ?_, ?_, ?_, ?_⟩
  · exact haccepted.directory (Tree.mkdirs_directory h.directory)
  · intro rest hrest
    rw [honly'.other_area (by decide)] at hrest
    exact h.home rest hrest
  · intro rest hrest
    rw [honly'.other_area (by decide)] at hrest
    exact h.sbctl rest hrest
  · intro place node hnode
    rcases Tree.graft_cases (t.mkdirs (additionalPlace ++ pathComponents path).dropLast)
      (fun rest => old.tree (rootPlace path ++ rest)) (additionalPlace ++ pathComponents path)
      (additionalPlace ++ place) with heq | ⟨rest, node', hrest, hroot, heq⟩
    · rw [heq] at hnode
      by_cases habove : additionalPlace ++ place <+: (additionalPlace ++ pathComponents path).dropLast
      · rw [Tree.mkdirs_of_above habove] at hnode
        refine ⟨path, by simp, hexisting, .inl ⟨?_, ?_, (Option.some.inj hnode).symm⟩⟩
        · exact (List.prefix_append_right_inj _).mp (habove.trans (List.dropLast_prefix _))
        · rintro rfl
          exact hnotAbove habove
      · rw [Tree.mkdirs_of_not_above habove] at hnode
        obtain ⟨additional, hmem, hsound⟩ := h.sound place node hnode
        exact ⟨additional, List.mem_append_left _ hmem, hsound⟩
    · obtain rfl : place = pathComponents path ++ rest := by simpa using hrest
      rw [hnode] at heq
      obtain rfl : node = node' := Option.some.inj heq
      exact ⟨path, by simp, hexisting, .inr ⟨List.prefix_append _ _, hroot⟩⟩
  · intro additional hmem hadditional place node hpre hroot
    by_cases hbelow : pathComponents path <+: place
    · obtain ⟨rest, rfl⟩ := hbelow
      have hroot' : old.tree (rootPlace path ++ rest) = some node := hroot
      rw [← List.append_assoc, Tree.graft_append, hroot', Option.some_or]
    · rw [List.mem_append, List.mem_singleton] at hmem
      rcases hmem with hmem | rfl
      · rw [Tree.graft_of_not_below (by simpa using hbelow)]
        exact hmake.eq_of_some (h.complete additional hmem hadditional place node hpre hroot)
      · exact absurd hpre hbelow
  · intro additional hmem hadditional
    by_cases hnames : pathComponents path = []
    · have hroot : old.tree (rootPlace path ++ []) = some .directory := by
        rw [List.append_nil]
        exact hexisting.root hplain hnames
      have hgraft : (t.mkdirs (additionalPlace ++ pathComponents path).dropLast).graft
          (fun rest => old.tree (rootPlace path ++ rest)) (additionalPlace ++ pathComponents path)
            (additionalPlace ++ pathComponents path ++ []) = _ := Tree.graft_append []
      rw [hroot, Option.some_or] at hgraft
      simpa [hnames] using hgraft
    · have habove : additionalPlace <+: (additionalPlace ++ pathComponents path).dropLast := by
        rw [List.dropLast_append_of_ne_nil hnames]
        exact List.prefix_append _ _
      exact haccepted.directory (Tree.mkdirs_of_above habove)

/-! ## What the commands do -/

/-- A command that leaves the files alone. -/
def LeavesTree (invocation : Invocation) : Prop := invocation.command.leavesFiles

variable {α : Type}

/-- Nothing is asked of a program here. -/
theorem keeps_anything {p : Script α} :
    Keeps (fileWorld old.tree) t p (fun _ => True) fun _ _ => True :=
  fun _ _ _ _ _ => ⟨trivial, fun _ _ => trivial⟩

theorem keeps_leavesTree {p : Script α} (h : Issues LeavesTree p) :
    Keeps (fileWorld old.tree) t p (fun _ => True) fun _ t' => t' = t :=
  h.keeps (fun _ _ _ _ hgood heq hstep => (fileWorld_eq hstep hgood).trans heq) rfl
    fun _ _ => trivial

theorem keeps_test {word : String} {flag : TestFlag} (hword : wordPlace word = some place) :
    Keeps (fileWorld old.tree) t (probe (.test flag word)) (fun _ => True)
      fun found t' => t' = t ∧ (found ↔ Finds t word place flag) :=
  keeps_probe trivial fun _ _ hstep => ⟨trivial, hstep.1, hstep.2 place hword⟩

theorem keeps_mkdir {word : String} (hword : wordPlace word = some place) :
    Keeps (fileWorld old.tree) t (run_ (.mkdir word)) (fun _ => True)
      fun _ t' => t.CanMake place ∧ t' = t.mkdirs place :=
  keeps_run_unit trivial fun _ _ hstep => ⟨trivial, fun hok => hstep hok place hword⟩

/-- The contents of a directory are copied into a directory. -/
theorem keeps_copyContents {directory destination : String} {target : List String}
    (hdirectory : wordPlace directory = some place)
    (hdestination : wordPlace destination = some target) :
    Keeps (fileWorld old.tree) t (run_ (.cpArchive (directory ++ "/.") destination)) (fun _ => True)
      fun _ t' => t target = some .directory ∧ CopiedTo t t' place target :=
  keeps_run_unit trivial fun _ _ hstep => ⟨trivial, fun hok =>
    (hstep hok).contents directory place target rfl hdirectory hdestination⟩

namespace PutsBack

open MigrationStagingStepExecutor MigrationRestoreStepExecutor

variable {config : InstallerConfig}

/-- One additional path. -/
theorem keeps_stageAdditionalPath {done : List String} {path : String} (hplain : IsPlace path)
    (hmounted : Mounted old t) (hdata : StagedData old done t)
    (hapart : ∀ earlier ∈ done, Existing old earlier → Existing old path →
      (pathComponents path <+: pathComponents earlier →
        pathComponents path = pathComponents earlier) ∧
      (pathComponents earlier <+: pathComponents path →
        old.tree (rootPlace path) ≠ some .directory)) :
    Keeps (fileWorld old.tree) t (stageAdditionalPath path) (fun _ => True)
      fun _ t' => Mounted old t' ∧ StagedData old (done ++ [path]) t' := by
  refine (keeps_test (wordPlace_pathInOldRoot hplain)).bind fun found t' _ hfound => ?_
  obtain ⟨rfl, hfound⟩ := hfound
  have hexisting : found = true ↔ Existing old path := by
    rw [hfound]
    simp only [Existing, Finds, hmounted (rootPlace path)]
  refine .onlyIf (fun hyes => ?_) trivial fun hno => ?_
  · have hpath : Existing old path := hexisting.mp hyes
    refine (keeps_mkdir (wordPlace_pathParent (wordPlace_stagedWord hplain))).bind
      fun _ made _ hmade => ?_
    obtain ⟨hmake, rfl⟩ := hmade
    refine keeps_run_unit trivial fun _ copied hstep => ⟨trivial, fun hok => ?_⟩
    exact hdata.copy hplain hpath hmounted (fun earlier hmem hearlier =>
      hapart earlier hmem hearlier hpath) hmake
        ((hstep hok).whole _ _ (wordPlace_pathInOldRoot hplain) (wordPlace_stagedWord hplain))
  · have hpath : ¬ Existing old path := by
      rw [← hexisting, hno]
      exact Bool.false_ne_true
    exact ⟨hmounted, hdata.skip hpath⟩

/-- The loop over the additional paths. -/
theorem keeps_stageAdditionalPaths {paths : List String} (hplain : ∀ path ∈ paths, IsPlace path)
    (hapart : ApartIn old paths) (hmounted : Mounted old t) (hdata : StagedData old [] t) :
    Keeps (fileWorld old.tree) t (Program.forEach paths stageAdditionalPath) (fun _ => True)
      fun _ t' => StagedData old paths t' := by
  have hloop : Keeps (fileWorld old.tree) t (Program.forEach paths stageAdditionalPath)
      (fun _ => True) fun _ t' => ApartIn old paths → Mounted old t' ∧ StagedData old paths t' := by
    refine Keeps.forEach (I := fun done t => ApartIn old done →
      Mounted old t ∧ StagedData old done t) trivial (fun _ => ⟨hmounted, hdata⟩) ?_
    intro done path t hpath _ hI
    by_cases hdone : ApartIn old (done ++ [path])
    · obtain ⟨hapart, -, hcross⟩ := List.pairwise_append.mp hdone
      obtain ⟨hmounted, hdata⟩ := hI hapart
      exact (keeps_stageAdditionalPath (hplain path hpath) hmounted hdata fun earlier hmem =>
        hcross earlier hmem path (List.mem_singleton_self path)).mono fun _ _ _ h _ => h
    · exact fun _ _ _ _ _ => ⟨trivial, fun _ _ h => absurd h hdone⟩
  exact hloop.mono fun _ _ _ h => (h hapart).2

/-- A directory of the old system whose contents go into an area of their own. -/
theorem keeps_copyIntoArea {sourceDirectory area : String} {source : List String}
    (hsource : wordPlace sourceDirectory = some (oldMountPlace ++ source))
    (harea : wordPlace s!"{stagingDirectory}/{area}" = some (stagingPlace ++ [area]))
    (hinto : wordPlace s!"{stagingDirectory}/{area}/" = some (stagingPlace ++ [area]))
    (hmounted : Mounted old t) (hdirectory : t stagingPlace = some .directory) :
    Keeps (fileWorld old.tree) t (copyIntoStaging sourceDirectory area) (fun _ => True)
      fun _ t' => OnlyAt (stagingPlace ++ [area]) t t' ∧ t' stagingPlace = some .directory ∧
        ∀ rest, t' (stagingPlace ++ area :: rest) ≠ none →
          t (stagingPlace ++ area :: rest) ≠ none ∨ rest = [] ∨ old.tree (source ++ rest) ≠ none := by
  rw [copyIntoStaging, info, Program.log_bind, keeps_log, Program.ret_bind]
  refine (keeps_mkdir harea).bind fun _ made _ hmade => ?_
  obtain ⟨hmake, rfl⟩ := hmade
  have hword : s!"{sourceDirectory}/." = sourceDirectory ++ "/." := rfl
  rw [hword]
  refine (keeps_copyContents hsource hinto).mono fun _ copied _ hcopied => ?_
  obtain ⟨-, -, haccepted, rfl⟩ := hcopied
  have honly : OnlyAt (stagingPlace ++ [area]) t (t.mkdirs (stagingPlace ++ [area])) :=
    onlyAt_mkdirs
  refine ⟨honly.trans onlyAt_graft, haccepted.directory (Tree.mkdirs_directory hdirectory), ?_⟩
  intro rest hrest
  have hplace : stagingPlace ++ area :: rest = stagingPlace ++ [area] ++ rest := by simp
  rw [hplace, Tree.graft_append, Tree.subtree_apply, List.append_assoc,
    hmounted.of_onlyAt _ honly] at hrest
  cases hroot : old.tree (source ++ rest) with
  | some node => exact .inr (.inr (by simp))
  | none =>
    rw [hroot, Option.none_or] at hrest
    by_cases habove : stagingPlace ++ [area] ++ rest <+: stagingPlace ++ [area]
    · have hlength := habove.length_le
      simp only [List.length_append, List.length_cons] at hlength
      exact .inr (.inl (List.length_eq_zero_iff.mp (by omega)))
    · rw [Tree.mkdirs_of_not_above habove, ← hplace] at hrest
      exact .inl hrest

/-- The home directories are staged. -/
theorem keeps_stageHome (hmounted : Mounted old t) (hdata : StagedData old [] t) :
    Keeps (fileWorld old.tree) t (copyIntoStaging s!"{oldMountDirectory}/@home" "home")
      (fun _ => True) fun _ t' => Mounted old t' ∧ StagedData old [] t' := by
  have hsource : wordPlace s!"{oldMountDirectory}/@home" = some (oldMountPlace ++ ["@home"]) := by
    decide
  refine (keeps_copyIntoArea hsource (by decide) (by decide) hmounted hdata.directory).mono
    fun _ t' _ h => ?_
  obtain ⟨honly, hdirectory, hcopied⟩ := h
  refine ⟨hmounted.of_onlyAt _ honly, hdirectory, ?_, ?_, ?_, by simp, by simp⟩
  · intro rest hrest
    rcases hcopied rest hrest with hold | hcopied
    · exact hdata.home rest hold
    · exact hcopied
  · intro rest hrest
    rw [honly.other_area (by decide)] at hrest
    exact hdata.sbctl rest hrest
  · intro path node hnode
    have hbefore : t (additionalPlace ++ path) = some node :=
      (honly.other_area (by decide)).symm.trans hnode
    obtain ⟨additional, hmem, -⟩ := hdata.sound path node hbefore
    cases hmem

/-- The sbctl directory is staged. -/
theorem keeps_stageKeys {directory : List String} {word : String}
    (hword : wordPlace word = some (oldMountPlace ++ "@" :: directory))
    (hsbctl : directory = sbctlPlace ∨ directory = sbctlLegacyPlace)
    (hmounted : Mounted old t) (hdata : StagedData old [] t) :
    Keeps (fileWorld old.tree) t (copyIntoStaging word "sbctl")
      (fun _ => True) fun _ t' => Mounted old t' ∧ StagedData old [] t' := by
  refine (keeps_copyIntoArea hword (by decide) (by decide) hmounted hdata.directory).mono
    fun _ t' _ h => ?_
  obtain ⟨honly, hdirectory, hcopied⟩ := h
  refine ⟨hmounted.of_onlyAt _ honly, hdirectory, ?_, ?_, ?_, by simp, by simp⟩
  · intro rest hrest
    rw [honly.other_area (by decide)] at hrest
    exact hdata.home rest hrest
  · intro rest hrest
    rcases hcopied rest hrest with hold | hempty | hcopied
    · exact hdata.sbctl rest hold
    · exact .inl hempty
    · rcases hsbctl with rfl | rfl
      · exact .inr (.inl hcopied)
      · exact .inr (.inr hcopied)
  · intro path node hnode
    have hbefore : t (additionalPlace ++ path) = some node :=
      (honly.other_area (by decide)).symm.trans hnode
    obtain ⟨additional, hmem, -⟩ := hdata.sound path node hbefore
    cases hmem

/-- The copies into the staging directory, from whatever was there before. -/
theorem keeps_copyToStaging {existing : ExistingInstallInfo}
    (hhome : existing.homeSubvolume ≠ "" → existing.homeSubvolume = "@home")
    (hkeys : existing.secureBootDirectory ∈
      ["", pathInOldRoot sbctlDirectory, pathInOldRoot sbctlLegacyDirectory])
    (hplain : ∀ path ∈ config.migration.additionalPaths, IsPlace path)
    (hapart : ApartIn old config.migration.additionalPaths) (hmounted : Mounted old t) :
    Keeps (fileWorld old.tree) t (copyToStaging config existing) (fun _ => True)
      fun _ t' => StagedData old config.migration.additionalPaths t' := by
  have hstaging : wordPlace stagingDirectory = some stagingPlace := by decide
  have hremove : Keeps (fileWorld old.tree) t (run_ (.rmRecursive stagingDirectory))
      (fun _ => True) fun _ t' => t' = t.remove stagingPlace :=
    keeps_run_unit trivial fun _ _ hstep => ⟨trivial, fun hok => hstep hok _ hstaging⟩
  refine hremove.bind fun _ removed _ hremoved => ?_
  subst hremoved
  refine (keeps_mkdir hstaging).bind fun _ made _ hmade => ?_
  obtain ⟨-, rfl⟩ := hmade
  have hmounted : Mounted old ((t.remove stagingPlace).mkdirs stagingPlace) := by
    refine hmounted.of_onlyAt [] fun path hbelow habove => ?_
    rw [List.append_nil] at hbelow habove
    rw [Tree.mkdirs_of_not_above habove, Tree.remove_of_not_below hbelow]
  have hnone : ∀ name rest,
      (t.remove stagingPlace).mkdirs stagingPlace (stagingPlace ++ name :: rest) = none := by
    intro name rest
    rw [Tree.mkdirs_of_not_above, Tree.remove_of_below (List.prefix_append _ _)]
    intro habove
    have hlength := habove.length_le
    simp only [List.length_append, List.length_cons] at hlength
    omega
  have hdata : StagedData old [] ((t.remove stagingPlace).mkdirs stagingPlace) := by
    refine ⟨Tree.mkdirs_of_above (List.prefix_refl _), ?_, ?_, ?_, by simp, by simp⟩
    · exact fun rest hrest => absurd (hnone "home" rest) hrest
    · exact fun rest hrest => absurd (hnone "sbctl" rest) hrest
    · intro path node hnode
      have hfree := hnone "additional" path
      rw [show stagingPlace ++ "additional" :: path = additionalPlace ++ path from rfl, hnode]
        at hfree
      cases hfree
  generalize (t.remove stagingPlace).mkdirs stagingPlace = made at hmounted hdata
  have hstageHome : Keeps (fileWorld old.tree) made
      (Program.onlyIf (config.migration.preserveHome && existing.homeSubvolume != "")
        (copyIntoStaging s!"{oldMountDirectory}/{existing.homeSubvolume}" "home")) (fun _ => True)
      fun _ t' => Mounted old t' ∧ StagedData old [] t' := by
    refine .onlyIf (fun hwanted => ?_) trivial fun _ => ⟨hmounted, hdata⟩
    rw [Bool.and_eq_true, bne_iff_ne] at hwanted
    rw [hhome hwanted.2]
    exact keeps_stageHome hmounted hdata
  refine hstageHome.bind fun _ withHome _ hwithHome => ?_
  have hstageKeys : Keeps (fileWorld old.tree) withHome (Program.onlyIf
      (config.migration.preserveSecureBootKeys && existing.secureBootDirectory != "")
        (copyIntoStaging existing.secureBootDirectory "sbctl")) (fun _ => True)
      fun _ t' => Mounted old t' ∧ StagedData old [] t' := by
    refine .onlyIf (fun hwanted => ?_) trivial fun _ => hwithHome
    rw [Bool.and_eq_true, bne_iff_ne] at hwanted
    simp only [List.mem_cons, List.not_mem_nil, or_false] at hkeys
    rcases hkeys with hempty | hsbctl | hlegacy
    · exact absurd hempty hwanted.2
    · rw [hsbctl]
      exact keeps_stageKeys (by decide) (.inl rfl) hwithHome.1 hwithHome.2
    · rw [hlegacy]
      exact keeps_stageKeys (by decide) (.inr rfl) hwithHome.1 hwithHome.2
  refine hstageKeys.bind fun _ withKeys _ hwithKeys => ?_
  exact keeps_stageAdditionalPaths hplain hapart hwithKeys.1 hwithKeys.2

/-- The partition is found, opened and mounted. -/
theorem keeps_openAndMount (partition : String) :
    Keeps (fileWorld old.tree) t (openAndMount config partition) (fun _ => True)
      fun _ t' => Mounted old t' := by
  have hdirectory : wordPlace oldMountDirectory = some oldMountPlace := by decide
  have hmount : ∀ t : Tree String κ, Keeps (fileWorld old.tree) t (tryRun
      (.mountTopLevel s!"/dev/mapper/{oldMapperName}" oldMountDirectory)) (fun _ => True)
      fun mounted t' => mounted.success → Mounted old t' := by
    refine fun t => keeps_invoke trivial fun result t' hstep => ⟨trivial, fun _ hok => ?_⟩
    obtain rfl := hstep hok oldMountPlace hdirectory
    exact fun path => Tree.mount_append path
  refine keeps_anything.bind fun unlocked t' _ _ => ?_
  split
  · refine keeps_anything.bind fun _ made _ _ => ?_
    refine (hmount made).bind fun mounted t' _ hmounted => ?_
    refine .onlyIf (fun hfailed => ?_) trivial fun hdone => hmounted (by simpa using hdone)
    exact keeps_anything.bind fun _ _ _ _ => keeps_raise trivial
  · exact keeps_raise trivial

/-- The work between mounting and unmounting. -/
theorem keeps_stageMountedSystem {disk partition : String}
    (hplain : ∀ path ∈ config.migration.additionalPaths, IsPlace path)
    (hapart : ApartIn old config.migration.additionalPaths) (hmounted : Mounted old t) :
    Keeps (fileWorld old.tree) t (stageMountedSystem config disk partition) (fun _ => True)
      fun _ t' => StagedData old config.migration.additionalPaths t' := by
  have hsize : ∀ path, Issues LeavesTree (sizeMb path) := by
    simp [sizeMb, LeavesTree, Command.leavesFiles]
  have hinspect : Issues LeavesTree (inspectMountedSystem disk partition) := by
    simp [inspectMountedSystem, hsize, findSecureBootDirectory, directoryExists, LeavesTree,
      Command.leavesFiles]
  have hadditional : ∀ paths, Issues LeavesTree (additionalSizeMb paths) := by
    intro paths
    induction paths with
    | nil => simp [additionalSizeMb]
    | cons path paths ih => simp [additionalSizeMb, hsize, ih]
  have hspace : ∀ existing, Issues LeavesTree (ensureStagingSpace config existing) := by
    simp [ensureStagingSpace, hadditional, LeavesTree, Command.leavesFiles]
  have hsame : Keeps (fileWorld old.tree) t (inspectMountedSystem disk partition) (fun _ => True)
      fun _ t' => t' = t := keeps_leavesTree hinspect
  have hfacts := hsame.canReturn fun _ => canReturn_inspectMountedSystem
  refine hfacts.bind fun existing t' _ hexisting => ?_
  obtain ⟨rfl, hhome, hkeys⟩ := hexisting
  simp only [info, Program.log_bind, Program.ret_bind, keeps_log]
  refine (keeps_leavesTree (hspace existing)).bind fun _ t'' _ hsame => ?_
  subst hsame
  exact keeps_copyToStaging hhome hkeys hplain hapart hmounted

end PutsBack

/-- What is staged does not depend on anything outside the staging directory. -/
theorem StagedData.of_eq {paths : List String} (h : StagedData old paths t)
    (hsame : ∀ rest, t' (stagingPlace ++ rest) = t (stagingPlace ++ rest)) :
    StagedData old paths t' := by
  have hadditional : ∀ path, t' (additionalPlace ++ path) = t (additionalPlace ++ path) :=
    fun path => hsame ("additional" :: path)
  refine ⟨?_, ?_, ?_, ?_, ?_, ?_⟩
  · simpa using (hsame []).trans (by simpa using h.directory)
  · exact fun rest hrest => h.home rest (by rwa [← hsame])
  · exact fun rest hrest => h.sbctl rest (by rwa [← hsame])
  · exact fun path node hnode => h.sound path node ((hadditional path).symm.trans hnode)
  · exact fun additional hmem hadditional' path node hpre hroot =>
      (hadditional path).trans (h.complete additional hmem hadditional' path node hpre hroot)
  · exact fun additional hmem hexisting =>
      (hsame ["additional"]).trans (h.held additional hmem hexisting)

namespace PutsBack

open MigrationStagingStepExecutor MigrationRestoreStepExecutor

variable {config : InstallerConfig}

/-- A command that changes nothing outside the directory of the old system. -/
theorem keeps_cleanup {paths : List String} {word : String} {command : Command}
    (hcommand : command = .umount word ∨ command = .rmdir word)
    (hword : wordPlace word = some oldMountPlace) (hdata : StagedData old paths t) :
    Keeps (fileWorld old.tree) t (tryRun_ command) (fun _ => True)
      fun _ t' => StagedData old paths t' := by
  have hsame : ∀ t' : Tree String κ, (∀ path, ¬ oldMountPlace <+: path → t' path = t path) →
      StagedData old paths t' :=
    fun t' honly => hdata.of_eq fun rest => honly _ (by simp [stagingPlace, oldMountPlace])
  have hinvoke : Keeps (fileWorld old.tree) t (tryRun command) (fun _ => True)
      fun _ t' => StagedData old paths t' := by
    refine keeps_invoke trivial fun result t' hstep => ⟨trivial, fun _ => ?_⟩
    rcases hcommand with rfl | rfl
    · exact hsame t' (hstep _ hword)
    · exact hsame t' (hstep _ hword)
  exact hinvoke.bind fun _ _ _ h => keeps_ret trivial h

theorem keeps_unmountAndClose {paths : List String} (hdata : StagedData old paths t) :
    Keeps (fileWorld old.tree) t unmountAndClose (fun _ => True)
      fun _ t' => StagedData old paths t' := by
  have hword : wordPlace oldMountDirectory = some oldMountPlace := by decide
  refine (keeps_cleanup (.inl rfl) hword hdata).bind fun _ unmounted _ hdata => ?_
  refine (keeps_leavesTree (by simp [LeavesTree, Command.leavesFiles])).bind fun _ closed _ hsame => ?_
  subst hsame
  exact keeps_cleanup (.inr rfl) hword hdata

/-- The staging step. -/
theorem keeps_staging (hplain : ∀ path ∈ config.migration.additionalPaths, IsPlace path)
    (hapart : ApartIn old config.migration.additionalPaths) :
    Keeps (fileWorld old.tree) t (MigrationStagingStepExecutor.execute config) (fun _ => True)
      fun _ t' => StagedData old config.migration.additionalPaths t' := by
  refine keeps_anything.bind fun partition found _ _ => ?_
  refine (keeps_openAndMount partition).bind fun _ opened _ hmounted => ?_
  have hstaged : Keeps (fileWorld old.tree) opened (Program.tryFinally
      (stageMountedSystem config config.storage.targetDisk partition) unmountAndClose)
      (fun _ => True) fun _ t' => StagedData old config.migration.additionalPaths t' := by
    refine (keeps_stageMountedSystem hplain hapart hmounted).tryFinally fun Q t hQ _ ht => ?_
    rcases hQ with rfl | ⟨value, rfl⟩
    · exact keeps_anything
    · exact keeps_unmountAndClose ht
  refine hstaged.bind fun _ staged _ hdata => ?_
  rw [info, keeps_log]
  exact keeps_ret trivial hdata

/-! ### The restore step -/

/-- What restoring one staged directory does. -/
structure RestoresArea (area : String) (destination : List String) (t t' : Tree String κ) :
    Prop where
  staging : ∀ rest, t' (stagingPlace ++ rest) = t (stagingPlace ++ rest)
  noOthers : ∀ path, t (targetPlace ++ path) = none → t' (targetPlace ++ path) ≠ none →
    path <+: destination ∨ ∃ rest, path = destination ++ rest ∧
      t (stagingPlace ++ area :: rest) ≠ none
  copied : t (stagingPlace ++ [area]) = some .directory → ∀ rest node,
    t (stagingPlace ++ area :: rest) = some node →
      t' (targetPlace ++ destination ++ rest) = some node

theorem keeps_restoreArea (area : String) (destination : List String) {destinationWord : String}
    (hstaged : wordPlace s!"{stagingDirectory}/{area}" = some (stagingPlace ++ [area]))
    (hdestination : wordPlace destinationWord = some (targetPlace ++ destination))
    (hinto : wordPlace s!"{destinationWord}/" = some (targetPlace ++ destination)) :
    Keeps (fileWorld old.tree) t (restoreDirectory s!"{stagingDirectory}/{area}" destinationWord)
      (fun _ => True) fun _ t' => RestoresArea area destination t t' := by
  refine (keeps_test hstaged).bind fun found t' _ hfound => ?_
  obtain ⟨rfl, hfound⟩ := hfound
  refine .onlyIf (fun _ => ?_) trivial fun hmissing => ⟨fun _ => rfl, ?_, ?_⟩
  · rw [info, Program.log_bind, keeps_log, Program.ret_bind]
    refine (keeps_mkdir hdestination).bind fun _ made _ hmade => ?_
    obtain ⟨-, rfl⟩ := hmade
    have hword : ∀ word : String, s!"{word}/." = word ++ "/." := fun _ => rfl
    rw [hword]
    refine (keeps_copyContents hstaged hinto).mono fun _ copied _ hcopied => ?_
    obtain ⟨-, -, haccepted, rfl⟩ := hcopied
    have houtside : ∀ rest, ¬ stagingPlace ++ rest <+: targetPlace ++ destination := by
      simp [stagingPlace, targetPlace]
    have houtside' : ∀ rest, ¬ targetPlace ++ destination <+: stagingPlace ++ rest := by
      simp [stagingPlace, targetPlace]
    have hstaging : ∀ rest, t'.mkdirs (targetPlace ++ destination) (stagingPlace ++ rest) =
        t' (stagingPlace ++ rest) := fun rest => Tree.mkdirs_of_not_above (houtside rest)
    have hsource : (t'.mkdirs (targetPlace ++ destination)).subtree (stagingPlace ++ [area]) =
        fun rest => t' (stagingPlace ++ area :: rest) := by
      funext rest
      rw [Tree.subtree_apply, List.append_assoc, hstaging]
      rfl
    rw [hsource]
    refine ⟨fun rest => ?_, fun path hbefore hafter => ?_, fun _ rest node hnode => ?_⟩
    · rw [Tree.graft_of_not_below (houtside' rest), hstaging]
    · rcases Tree.graft_cases (t'.mkdirs (targetPlace ++ destination))
        (fun rest => t' (stagingPlace ++ area :: rest)) (targetPlace ++ destination)
        (targetPlace ++ path) with heq | ⟨rest, node, hrest, hnode, -⟩
      · rw [heq] at hafter
        by_cases habove : targetPlace ++ path <+: targetPlace ++ destination
        · exact .inl ((List.prefix_append_right_inj _).mp habove)
        · rw [Tree.mkdirs_of_not_above habove] at hafter
          exact absurd hbefore hafter
      · refine .inr ⟨rest, ?_, by simp [hnode]⟩
        rwa [List.append_assoc, List.append_cancel_left_eq] at hrest
    · rw [Tree.graft_append, hnode, Option.some_or]
  · exact fun path hbefore hafter => absurd hbefore hafter
  · intro hdirectory
    have hyes := hfound.mpr hdirectory
    rw [hmissing] at hyes
    cases hyes

/-- What was staged came from the old system, so what is restored did. -/
theorem putBack_of_areas {paths : List String} {home sbctl additional : Tree String κ}
    (hdata : StagedData old paths t) (hhome : RestoresArea "home" ["home"] t home)
    (hsbctl : RestoresArea "sbctl" sbctlPlace home sbctl)
    (hadditional : RestoresArea "additional" [] sbctl additional) :
    PutBack old paths t additional := by
  have hstaging : ∀ rest, sbctl (stagingPlace ++ rest) = t (stagingPlace ++ rest) :=
    fun rest => (hsbctl.staging rest).trans (hhome.staging rest)
  refine ⟨fun path hmem hexisting place content hpre hroot => ?_, fun path hbefore hafter => ?_⟩
  · have hdirectory := (hstaging ["additional"]).trans (hdata.held path hmem hexisting)
    have hstaged := hdata.complete path hmem hexisting place _ hpre hroot
    have hrestored := hadditional.copied hdirectory place (.file content)
      ((hstaging ("additional" :: place)).trans hstaged)
    rwa [List.append_nil] at hrestored
  by_cases hnewHome : home (targetPlace ++ path) = none
  · by_cases hnewSbctl : sbctl (targetPlace ++ path) = none
    · rcases hadditional.noOthers path hnewSbctl hafter with hpre | ⟨rest, rfl, hrest⟩
      · obtain rfl := List.prefix_nil.mp hpre
        exact .inl (.inl List.nil_prefix)
      · rw [hstaging] at hrest
        obtain ⟨node, hnode⟩ := Option.ne_none_iff_exists'.mp hrest
        obtain ⟨source, hmem, hexisting, ⟨hpre, -⟩ | ⟨hpre, hroot⟩⟩ :=
          hdata.sound path node hnode
        · exact .inr (.inr ⟨source, hmem, hexisting, .inl hpre⟩)
        · exact .inr (.inr ⟨source, hmem, hexisting, .inr ⟨hpre, by simp [hroot]⟩⟩)
    · refine .inr (.inl ?_)
      rcases hsbctl.noOthers path hnewHome hnewSbctl with hpre | ⟨rest, rfl, hrest⟩
      · exact .inl hpre
      · rw [hhome.staging] at hrest
        rcases hdata.sbctl rest hrest with rfl | hroot
        · exact .inl (by simp)
        · exact .inr ⟨rest, rfl, hroot⟩
  · refine .inl ?_
    rcases hhome.noOthers path hbefore hnewHome with hpre | ⟨rest, rfl, hrest⟩
    · exact .inl hpre
    · rcases hdata.home rest hrest with rfl | hroot
      · exact .inl (by simp)
      · exact .inr ⟨rest, rfl, hroot⟩

theorem issues_reportRestoredData : Issues LeavesTree (reportRestoredData config) := by
  simp [reportRestoredData, reportRestoredHome, reportRestoredKeys, directoryExists, LeavesTree,
    Command.leavesFiles]

/-- The restore step, where there is a staging directory. -/
theorem keeps_restoring (hdirectory : t stagingPlace = some .directory) :
    Keeps (fileWorld old.tree) t (MigrationRestoreStepExecutor.execute config) (fun _ => True)
      fun _ t' => ∃ home sbctl additional, RestoresArea "home" ["home"] t home ∧
        RestoresArea "sbctl" sbctlPlace home sbctl ∧
        RestoresArea "additional" [] sbctl additional ∧
        ∀ path, t' (targetPlace ++ path) = additional (targetPlace ++ path) := by
  have hstaging : wordPlace stagingDirectory = some stagingPlace := by decide
  refine (keeps_test hstaging).bind fun found before _ hfound => ?_
  obtain ⟨rfl, hfound⟩ := hfound
  obtain rfl : found = true := hfound.mpr hdirectory
  have hloop : Keeps (fileWorld old.tree) before
      (Program.forEach stagedDestinations fun x => restoreDirectory x.1 x.2) (fun _ => True)
      fun _ t' => ∃ home sbctl, RestoresArea "home" ["home"] before home ∧
        RestoresArea "sbctl" sbctlPlace home sbctl ∧ RestoresArea "additional" [] sbctl t' := by
    refine (keeps_restoreArea "home" ["home"] (by decide) (by decide) (by decide)).bind
      fun _ home _ hhome => ?_
    refine (keeps_restoreArea "sbctl" sbctlPlace (by decide) (by decide) (by decide)).bind
      fun _ sbctl _ hsbctl => ?_
    refine (keeps_restoreArea "additional" [] (by decide) (by decide) (by decide)).bind
      fun _ additional _ hadditional => ?_
    exact keeps_ret trivial ⟨home, sbctl, hhome, hsbctl, hadditional⟩
  refine hloop.bind fun _ restored _ hrestored => ?_
  refine (keeps_leavesTree issues_reportRestoredData).bind fun _ reported _ hsame => ?_
  subst hsame
  refine keeps_run_unit trivial fun _ removed hstep => ⟨trivial, fun hok => ?_⟩
  obtain rfl := hstep hok stagingPlace hstaging
  obtain ⟨home, sbctl, hhome, hsbctl, hadditional⟩ := hrestored
  refine ⟨home, sbctl, reported, hhome, hsbctl, hadditional, fun path => ?_⟩
  exact Tree.remove_of_not_below (by simp [stagingPlace, targetPlace])

/-- No additional path that exists is a directory inside an earlier one or leads to one: then
whatever happens in between, the two steps put back every file. -/
theorem putBack_of_runs {start staged before after : Tree String κ} {staging restoring : Exchanges}
    (hplain : ∀ path ∈ config.migration.additionalPaths, IsPlace path)
    (hapart : ApartIn old config.migration.additionalPaths)
    (hstaging : Runs (MigrationStagingStepExecutor.execute config) staging (.returned ()))
    (hstaged : Replays (fileWorld old.tree) start staging staged)
    (hkept : ∀ rest, before (stagingPlace ++ rest) = staged (stagingPlace ++ rest))
    (hrestoring : Runs (MigrationRestoreStepExecutor.execute config) restoring (.returned ()))
    (hrestored : Replays (fileWorld old.tree) before restoring after) :
    PutBack old config.migration.additionalPaths before after := by
  have hdata := (keeps_staging hplain hapart staging _ staged hstaging hstaged).2 () rfl
  have hbefore : StagedData old config.migration.additionalPaths before := hdata.of_eq hkept
  obtain ⟨home, sbctl, additional, hhome, hsbctl, hadditional, hsame⟩ :=
    (keeps_restoring hbefore.directory restoring _ after hrestoring hrestored).2 () rfl
  have hputBack := putBack_of_areas hbefore hhome hsbctl hadditional
  refine ⟨fun entry hmem hexisting path content hpre hroot => ?_, fun path hnew => ?_⟩
  · exact (hsame path).trans (hputBack.files entry hmem hexisting path content hpre hroot)
  · rw [hsame]
    exact hputBack.noOthers path hnew

end PutsBack

end ArchInstaller
