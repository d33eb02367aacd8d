import ArchInstaller.Config.Sample
import ArchInstaller.Verify.PutsBack

/-! # Copies that end up inside each other

Where an additional path is in another one, or is listed twice, there are an old system and two
successful runs after which the target has a directory that the old system did not have. The old
system of these runs has directories only, so that every copy succeeds. -/

namespace ArchInstaller

namespace PutsBack

open Files Interaction PyText Script MigrationStagingStepExecutor MigrationRestoreStepExecutor

variable {κ α : Type} {config : InstallerConfig} {old : Volume String κ}
  {t t' t'' : Tree String κ} {place : List String}

/-! ## Trees of directories -/

def DirectoriesOnly (t : Tree String κ) : Prop := ∀ path node, t path = some node → node = .directory

/-- No directory goes. -/
def Grows (t t' : Tree String κ) : Prop := ∀ path, t path = some .directory → t' path = some .directory

theorem Grows.trans (h : Grows t t') (h' : Grows t' t'') : Grows t t'' :=
  fun path hpath => h' path (h path hpath)

namespace DirectoriesOnly

theorem eq_of_ne_none (h : DirectoriesOnly t) {path : List String} (hpath : t path ≠ none) :
    t path = some .directory := by
  obtain ⟨node, hnode⟩ := Option.ne_none_iff_exists'.mp hpath
  rw [hnode, h path node hnode]

theorem canMake (h : DirectoriesOnly t) : t.CanMake place := by
  intro path _
  cases hpath : t path with
  | none => exact .inl rfl
  | some node => exact .inr (by rw [h path node hpath])

theorem mkdirs (h : DirectoriesOnly t) : DirectoriesOnly (t.mkdirs place) := by
  intro path node hnode
  by_cases hpath : path <+: place
  · rw [Tree.mkdirs_of_above hpath] at hnode
    exact (Option.some.inj hnode).symm
  · rw [Tree.mkdirs_of_not_above hpath] at hnode
    exact h path node hnode

theorem grows_mkdirs : Grows t (t.mkdirs place) := fun _ hpath => Tree.mkdirs_directory hpath

theorem subtree (h : DirectoriesOnly t) : DirectoriesOnly (t.subtree place) :=
  fun rest node hnode => h (place ++ rest) node hnode

/-- A tree of directories is accepted wherever there is a directory to hold it. -/
theorem accepts {s : Tree String κ} (h : DirectoriesOnly t) (hs : DirectoriesOnly s)
    (hheld : ∀ parent name, place = parent ++ [name] → t parent = some .directory) :
    t.Accepts s place :=
  ⟨hheld, fun rest node node' hnode hnode' => by
    rw [hs rest node hnode, h _ node' hnode']⟩

theorem graft {s : Tree String κ} (h : DirectoriesOnly t) (hs : DirectoriesOnly s) :
    DirectoriesOnly (t.graft s place) := by
  intro path node hnode
  rcases Tree.graft_cases t s place path with heq | ⟨rest, node', -, hrest, heq⟩
  · exact h path node (heq ▸ hnode)
  · rw [hnode] at heq
    rw [Option.some.inj heq]
    exact hs rest node' hrest

theorem grows_graft {s : Tree String κ} (hs : DirectoriesOnly s) : Grows t (t.graft s place) := by
  intro path hpath
  rcases Tree.graft_cases t s place path with heq | ⟨rest, node, -, hrest, heq⟩
  · rw [heq, hpath]
  · rw [heq, hs rest node hrest]

theorem mount {s : Tree String κ} (h : DirectoriesOnly t) (hs : DirectoriesOnly s) :
    DirectoriesOnly (t.mount s place) := by
  intro path node hnode
  by_cases hpath : place <+: path
  · obtain ⟨rest, rfl⟩ := hpath
    rw [Tree.mount_append] at hnode
    exact hs rest node hnode
  · rw [Tree.mount_of_not_below hpath] at hnode
    exact h path node hnode

theorem remove (h : DirectoriesOnly t) : DirectoriesOnly (t.remove place) := by
  intro path node hnode
  by_cases hpath : place <+: path
  · rw [Tree.remove_of_below hpath] at hnode
    cases hnode
  · rw [Tree.remove_of_not_below hpath] at hnode
    exact h path node hnode

theorem along {path : List String} : DirectoriesOnly (Volume.along κ path).tree := by
  intro place node hnode
  by_cases hplace : place <+: path
  · simp only [Volume.along, if_pos hplace, Option.some.injEq] at hnode
    exact hnode.symm
  · simp [Volume.along, hplace] at hnode

end DirectoriesOnly

/-! ## Runs in which every command succeeds -/

def succeeds : CommandExecutionResult := ⟨0, "", ""⟩

theorem reaches_test {flag : TestFlag} {word : String} :
    Reaches (fileWorld old.tree) t (probe (.test flag word)) fun found t' => t' = t ∧
      (wordPlace word = none → found = false) ∧
      ∀ place, wordPlace word = some place → (found ↔ Finds t word place flag) := by
  have hreaches : ∀ answer : CommandExecutionResult,
      (wordPlace word = none → answer.success = false) →
      (∀ place, wordPlace word = some place → (answer.success ↔ Finds t word place flag)) →
      Reaches (fileWorld old.tree) t (probe (.test flag word)) fun found t' => t' = t ∧
        (wordPlace word = none → found = false) ∧
        ∀ place, wordPlace word = some place → (found ↔ Finds t word place flag) := by
    intro answer hnone hsome
    have hstep : fileWorld old.tree t (unchecked (.test flag word)) answer t := ⟨rfl, hsome⟩
    exact reaches_probe answer hstep ⟨rfl, hnone, hsome⟩
  have hfailed : (⟨1, "", ""⟩ : CommandExecutionResult).success = false := rfl
  cases hword : wordPlace word with
  | none => exact hword ▸ hreaches ⟨1, "", ""⟩ (fun _ => rfl) (by simp [hword])
  | some place =>
    rw [← hword]
    by_cases hfinds : Finds t word place flag
    · refine hreaches succeeds (by simp [hword]) fun place' hplace => ?_
      obtain rfl : place = place' := by simpa [hword] using hplace
      exact iff_of_true rfl hfinds
    · refine hreaches ⟨1, "", ""⟩ (fun _ => rfl) fun place' hplace => ?_
      obtain rfl : place = place' := by simpa [hword] using hplace
      exact iff_of_false (by decide) hfinds

theorem reaches_mkdir {word : String} (ht : DirectoriesOnly t) :
    Reaches (fileWorld old.tree) t (run_ (.mkdir word)) fun _ t' => DirectoriesOnly t' ∧
      Grows t t' ∧ ∀ place, wordPlace word = some place → t' = t.mkdirs place := by
  cases hword : wordPlace word with
  | none =>
    have hstep : fileWorld old.tree t (checked (.mkdir word)) succeeds t := by
      intro _ place hplace
      rw [hword] at hplace
      cases hplace
    exact reaches_run_unit succeeds hstep rfl ⟨ht, fun _ h => h, nofun⟩
  | some place =>
    have hstep : fileWorld old.tree t (checked (.mkdir word)) succeeds (t.mkdirs place) := by
      intro _ place' hplace
      obtain rfl : place = place' := by simpa [hword] using hplace
      exact ⟨ht.canMake, rfl⟩
    refine reaches_run_unit succeeds hstep rfl ⟨ht.mkdirs, DirectoriesOnly.grows_mkdirs, ?_⟩
    rintro _ ⟨⟩
    rfl

/-- The contents of a directory are copied into a directory that has just been made. -/
theorem reaches_copyContents {directory destination : String} {source target : List String}
    (hdirectory : wordPlace directory = some source)
    (hdestination : wordPlace destination = some target) (ht : DirectoriesOnly t)
    (hsource : t source ≠ none) (hmade : ∀ path, path <+: target → t path = some .directory) :
    Reaches (fileWorld old.tree) t (run_ (.cpArchive (directory ++ "/.") destination)) fun _ t' =>
      DirectoriesOnly t' ∧ Grows t t' ∧ t' = t.graft (t.subtree source) target := by
  have hstep : fileWorld old.tree t (checked (.cpArchive (directory ++ "/.") destination)) succeeds
      (t.graft (t.subtree source) target) := by
    refine fun _ => ⟨fun place target' hplace => ?_, fun directory' place target' hword hplace
      htarget => ?_⟩
    · rw [wordPlace_contents] at hplace
      cases hplace
    · obtain rfl : directory = directory' := String.append_left_inj "/." |>.mp hword
      obtain rfl : source = place := by simpa [hdirectory] using hplace
      obtain rfl : target = target' := by simpa [hdestination] using htarget
      refine ⟨hmade target (List.prefix_refl _), hsource, ht.accepts ht.subtree ?_, rfl⟩
      rintro parent name rfl
      exact hmade parent (List.prefix_append _ _)
  exact reaches_run_unit succeeds hstep rfl
    ⟨ht.graft ht.subtree, DirectoriesOnly.grows_graft ht.subtree, rfl⟩

/-! ## The additional paths -/

/-- A path that ends up one level too deep: a directory of the way to `deepest` is copied into
itself. -/
def Stray (deepest path : List String) : Prop :=
  path = "@" :: deepest ∨ ∃ before name rest, deepest = before ++ name :: rest ∧
    path = before ++ name :: name :: rest

/-- The old system has the directories on one way, and nothing else. -/
def oneWay (κ : Type) (deepest : List String) : Volume String κ := .along κ ("@" :: deepest)

variable {deepest : List String}

theorem oneWay_root {path : List String} :
    (oneWay κ deepest).tree ("@" :: path) = if path <+: deepest then some .directory else none := by
  simp [oneWay, Volume.along, List.cons_prefix_cons]

theorem existing_oneWay_iff {path : String} :
    Existing (oneWay κ deepest) path ↔ pathComponents path <+: deepest := by
  simp only [Existing, Finds, rootPlace, oneWay_root]
  by_cases h : pathComponents path <+: deepest <;> simp [h]

/-- A path that meets a directory at its place is copied into it. -/
theorem stray_of_directory {path : String} (hmounted : Mounted (oneWay κ deepest) t)
    (hpath : pathComponents path <+: deepest)
    (hdirectory : t (additionalPlace ++ pathComponents path) = some .directory) :
    ∃ stray, Stray deepest stray ∧ t.graft (t.subtree (oldMountPlace ++ rootPlace path))
      (copyTarget t (oldMountPlace ++ rootPlace path) (additionalPlace ++ pathComponents path))
        (additionalPlace ++ stray) = some .directory := by
  obtain ⟨rest, hrest⟩ := hpath
  have hlast : (oldMountPlace ++ rootPlace path).getLast? = (rootPlace path).getLast? := by
    rw [rootPlace, List.getLast?_append, List.getLast?_cons, Option.some_or]
  have hsource : t (oldMountPlace ++ rootPlace path ++ rest) = some .directory := by
    rw [List.append_assoc, hmounted, rootPlace, List.cons_append, hrest, oneWay_root,
      if_pos (List.prefix_refl _)]
  have htarget : copyTarget t (oldMountPlace ++ rootPlace path)
      (additionalPlace ++ pathComponents path) =
        additionalPlace ++ (pathComponents path ++ (rootPlace path).getLast?.toList) := by
    simp only [copyTarget, hdirectory, hlast, List.append_assoc]
  refine ⟨pathComponents path ++ (rootPlace path).getLast?.toList ++ rest, ?_, ?_⟩
  · rcases List.eq_nil_or_concat (pathComponents path) with hnil | ⟨before, name, hnames⟩
    · rw [hnil] at hrest
      exact .inl (by simp [rootPlace, hnil, ← hrest])
    · refine .inr ⟨before, name, rest, ?_, ?_⟩
      · rw [← hrest, hnames]
        simp
      · simp [rootPlace, hnames, List.getLast?_cons]
  · have hplace : additionalPlace ++ (pathComponents path ++ (rootPlace path).getLast?.toList ++
        rest) = additionalPlace ++ (pathComponents path ++ (rootPlace path).getLast?.toList) ++
          rest := (List.append_assoc _ _ _).symm
    rw [htarget, hplace, Tree.graft_append, Tree.subtree_apply, hsource, Option.some_or]

/-- Which paths of the only way have been staged, or that one has gone astray. -/
structure WayStaged (deepest : List String) (done : List String) (t : Tree String κ) : Prop where
  directoriesOnly : DirectoriesOnly t
  mounted : Mounted (oneWay κ deepest) t
  staging : t stagingPlace = some .directory
  area : (∃ path ∈ done, pathComponents path <+: deepest) → t additionalPlace = some .directory
  staged : (∃ stray, Stray deepest stray ∧ t additionalPlace = some .directory ∧
      t (additionalPlace ++ stray) = some .directory) ∨
    (done.filter fun path => decide (pathComponents path <+: deepest)).length ≤ 1 ∧
      ((∃ path ∈ done, pathComponents path <+: deepest) →
        ∀ path, path <+: deepest → t (additionalPlace ++ path) = some .directory)

/-- A path that is not on the way is skipped. -/
theorem WayStaged.skip {done : List String} (h : WayStaged deepest done t) {path : String}
    (hpath : ¬ pathComponents path <+: deepest) : WayStaged deepest (done ++ [path]) t := by
  have hexists : (∃ entry ∈ done ++ [path], pathComponents entry <+: deepest) →
      ∃ entry ∈ done, pathComponents entry <+: deepest := by
    rintro ⟨entry, hmem, hentry⟩
    rw [List.mem_append, List.mem_singleton] at hmem
    rcases hmem with hmem | rfl
    · exact ⟨entry, hmem, hentry⟩
    · exact absurd hentry hpath
  refine ⟨h.directoriesOnly, h.mounted, h.staging, fun hsome => h.area (hexists hsome), ?_⟩
  refine h.staged.imp_right fun hfew => ⟨?_, fun hsome => hfew.2 (hexists hsome)⟩
  simpa [List.filter_append, hpath] using hfew.1

/-- What copying a path of the way leads to. -/
theorem WayStaged.copy {done : List String} {path : String}
    (h : WayStaged deepest done t) (hpath : pathComponents path <+: deepest) :
    let made := t.mkdirs (additionalPlace ++ pathComponents path).dropLast
    let source := oldMountPlace ++ rootPlace path
    let target := copyTarget made source (additionalPlace ++ pathComponents path)
    CopiedTo made (made.graft (made.subtree source) target) source target ∧
      WayStaged deepest (done ++ [path]) (made.graft (made.subtree source) target) := by
  intro made source target
  have hnotAbove : ¬ additionalPlace ++ pathComponents path <+:
      (additionalPlace ++ pathComponents path).dropLast := by
    intro hpre
    have hlength := hpre.length_le
    have hplace : 0 < additionalPlace.length := by decide
    rw [List.length_dropLast, List.length_append] at hlength
    omega
  have hmade : DirectoriesOnly made := h.directoriesOnly.mkdirs
  have hgrows : Grows t (made.graft (made.subtree source) target) :=
    DirectoriesOnly.grows_mkdirs.trans (DirectoriesOnly.grows_graft hmade.subtree)
  have hmounted : Mounted (oneWay κ deepest) made :=
    h.mounted.of_onlyAt ("additional" :: pathComponents path) onlyAt_mkdirs_dropLast
  have hsource : ∀ rest, made (source ++ rest) =
      if pathComponents path ++ rest <+: deepest then some .directory else none := by
    intro rest
    rw [List.append_assoc, hmounted, rootPlace, List.cons_append, oneWay_root]
  have hparent : ∀ parent name, additionalPlace ++ pathComponents path = parent ++ [name] →
      made parent = some .directory := by
    intro parent name heq
    refine Tree.mkdirs_of_above ?_
    simp only [heq, List.dropLast_concat, List.prefix_refl]
  have hsame : made (additionalPlace ++ pathComponents path) =
      t (additionalPlace ++ pathComponents path) := Tree.mkdirs_of_not_above hnotAbove
  have hfound : made source ≠ none := by
    have hsource := hsource []
    rw [List.append_nil, List.append_nil, if_pos hpath] at hsource
    simp [hsource]
  have hgraftGrows : Grows made (made.graft (made.subtree source) target) :=
    DirectoriesOnly.grows_graft hmade.subtree
  have hdirectories : DirectoriesOnly (made.graft (made.subtree source) target) :=
    hmade.graft hmade.subtree
  have habove : pathComponents path ≠ [] → made additionalPlace = some .directory := by
    intro hnames
    refine Tree.mkdirs_of_above ?_
    rw [List.dropLast_append_of_ne_nil hnames]
    exact List.prefix_append _ _
  by_cases hdirectory : made (additionalPlace ++ pathComponents path) = some .directory
  · -- there is a directory already, so the copy goes into it
    obtain ⟨name, hname⟩ : ∃ name, source.getLast? = some name :=
      ⟨_, List.getLast?_eq_some_getLast (by simp [source, oldMountPlace])⟩
    have htarget : target = additionalPlace ++ pathComponents path ++ [name] := by
      simp only [target, copyTarget, hdirectory, hname, Option.toList_some]
    have hmounted' : Mounted (oneWay κ deepest) (made.graft (made.subtree source) target) := by
      rw [htarget, List.append_assoc]
      exact hmounted.of_onlyAt ("additional" :: (pathComponents path ++ [name])) onlyAt_graft
    have harea : made additionalPlace = some .directory := by
      by_cases hnames : pathComponents path = []
      · simpa [hnames] using hdirectory
      · exact habove hnames
    obtain ⟨stray, hstray, hplace⟩ := stray_of_directory hmounted hpath hdirectory
    refine ⟨⟨hfound, hmade.accepts hmade.subtree ?_, rfl⟩, hdirectories, hmounted',
      hgrows _ h.staging, fun _ => hgraftGrows _ harea,
      .inl ⟨stray, hstray, hgraftGrows _ harea, hplace⟩⟩
    intro parent name' heq
    rw [htarget] at heq
    rw [← (List.append_inj' heq rfl).1]
    exact hdirectory
  · -- the copy goes to its place
    have htarget : target = additionalPlace ++ pathComponents path := by
      simp only [target, copyTarget]
    have hmounted' : Mounted (oneWay κ deepest) (made.graft (made.subtree source) target) := by
      rw [htarget]
      exact hmounted.of_onlyAt ("additional" :: pathComponents path) onlyAt_graft
    have hway : ∀ place, place <+: deepest → made.graft (made.subtree source) target
        (additionalPlace ++ place) = some .directory := by
      intro place hplace
      by_cases hbelow : pathComponents path <+: place
      · obtain ⟨rest, rfl⟩ := hbelow
        rw [htarget, ← List.append_assoc, Tree.graft_append, Tree.subtree_apply, hsource,
          if_pos hplace, Option.some_or]
      · have hpre : place <+: pathComponents path :=
          (List.prefix_or_prefix_of_prefix hpath hplace).resolve_left hbelow
        have hnames : pathComponents path ≠ [] := fun hnil => hbelow (hnil ▸ List.nil_prefix)
        rw [← List.dropLast_concat_getLast hnames, List.prefix_concat_iff] at hpre
        rcases hpre with rfl | hpre
        · exact absurd (by simp only [List.dropLast_concat_getLast, List.prefix_refl]) hbelow
        · refine hgraftGrows _ (Tree.mkdirs_of_above ?_)
          rwa [List.dropLast_append_of_ne_nil hnames, List.prefix_append_right_inj]
    refine ⟨⟨hfound, hmade.accepts hmade.subtree ?_, rfl⟩, hdirectories, hmounted',
      hgrows _ h.staging, fun _ => ?_, ?_⟩
    · rw [htarget]
      exact hparent
    · simpa using hway [] List.nil_prefix
    · rcases h.staged with ⟨stray, hstray, harea, hplace⟩ | ⟨hfew, hall⟩
      · exact .inl ⟨stray, hstray, hgrows _ harea, hgrows _ hplace⟩
      · have hnone : ∀ entry ∈ done, ¬ pathComponents entry <+: deepest := by
          intro entry hmem hentry
          exact hdirectory (hsame.trans (hall ⟨entry, hmem, hentry⟩ _ hpath))
        refine .inr ⟨?_, fun _ => hway⟩
        rw [List.filter_append, List.filter_eq_nil_iff.mpr (by simpa using hnone)]
        simpa using List.length_filter_le _ [path]

/-- The command that copies a path to the staging directory. -/
theorem step_copyToPlace {path : String} (hplain : IsPlace path)
    (hcopied : CopiedTo t t' (oldMountPlace ++ rootPlace path)
      (copyTarget t (oldMountPlace ++ rootPlace path) (additionalPlace ++ pathComponents path))) :
    fileWorld old.tree t (checked (.cpArchive (pathInOldRoot path) (stagedWord path))) succeeds
      t' := by
  refine fun _ => ⟨fun place target hplace htarget => ?_,
    fun directory place target hword hplace _ => ?_⟩
  · obtain rfl : _ = place := by simpa [wordPlace_pathInOldRoot hplain] using hplace
    obtain rfl : _ = target := by simpa [wordPlace_stagedWord hplain] using htarget
    exact hcopied
  · have hnone := wordPlace_contents directory
    rw [← hword, wordPlace_pathInOldRoot hplain] at hnone
    cases hnone

theorem reaches_stageAdditionalPath {done : List String} {path : String} (hplain : IsPlace path)
    (h : WayStaged deepest done t) :
    Reaches (fileWorld (oneWay κ deepest).tree) t (stageAdditionalPath path)
      fun _ t' => WayStaged deepest (done ++ [path]) t' := by
  refine reaches_test.bind fun found t' hfound => ?_
  obtain ⟨rfl, -, hfound⟩ := hfound
  have hexisting : found = true ↔ pathComponents path <+: deepest := by
    rw [hfound _ (wordPlace_pathInOldRoot hplain), ← existing_oneWay_iff (κ := κ)]
    simp only [Existing, Finds, h.mounted (rootPlace path)]
  refine .onlyIf (fun hyes => ?_) fun hno => ?_
  · refine (reaches_mkdir h.directoriesOnly).bind fun _ made hmade => ?_
    obtain rfl := hmade.2.2 _ (wordPlace_pathParent (wordPlace_stagedWord hplain))
    obtain ⟨hcopied, hstaged⟩ := h.copy (hexisting.mp hyes)
    exact reaches_run_unit succeeds (step_copyToPlace hplain hcopied) rfl hstaged
  · refine h.skip ?_
    rw [← hexisting, hno]
    exact Bool.false_ne_true

/-! ### Paths that are no words -/

theorem wordPlace_of_not_isPlace {path : String} (h : ¬ IsPlace path) : wordPlace path = none := by
  cases hplace : wordPlace path with
  | none => rfl
  | some place => exact absurd (hplace.trans (congrArg some (wordPlace_eq hplace))) h

theorem wordPlace_pathInOldRoot_eq_none {path : String} (h : ¬ IsPlace path) :
    wordPlace (pathInOldRoot path) = none := by
  have hword : pathInOldRoot path = oldMountDirectory ++ "/@" ++ "/" ++ lstripSlash path := by
    simp only [pathInOldRoot, toString, String.append_assoc]
    rfl
  rw [hword]
  exact wordPlace_slash_eq_none ((wordPlace_lstripSlash path).trans (wordPlace_of_not_isPlace h))

theorem wordPlace_stagedWord_eq_none {path : String} (h : ¬ IsPlace path) :
    wordPlace (stagedWord path) = none := by
  have hword : stagedWord path = stagingDirectory ++ "/additional" ++ "/" ++ lstripSlash path := by
    simp only [stagedWord, toString, String.append_assoc]
    rfl
  rw [hword]
  exact wordPlace_slash_eq_none ((wordPlace_lstripSlash path).trans (wordPlace_of_not_isPlace h))

/-- Whatever is at the places of its words, a path can be staged. -/
theorem reaches_stageAnyPath {path : String} (hplain : IsPlace path) (ht : DirectoriesOnly t) :
    Reaches (fileWorld old.tree) t (stageAdditionalPath path)
      fun _ t' => DirectoriesOnly t' ∧ Grows t t' := by
  refine reaches_test.bind fun found t' hfound => ?_
  obtain ⟨rfl, -, hfound⟩ := hfound
  refine .onlyIf (fun hyes => ?_) fun _ => ⟨ht, fun _ h => h⟩
  have hsource := ((hfound _ (wordPlace_pathInOldRoot hplain)).mp hyes).1
  refine (reaches_mkdir ht).bind fun _ made hmade => ?_
  obtain ⟨hdirectories, hgrows, hmkdirs⟩ := hmade
  have hmkdirs := hmkdirs _ (wordPlace_pathParent (wordPlace_stagedWord hplain))
  let source := oldMountPlace ++ rootPlace path
  let target := copyTarget made source (additionalPlace ++ pathComponents path)
  have hheld : ∀ parent name, target = parent ++ [name] → made parent = some .directory := by
    intro parent name heq
    by_cases hdirectory : made (additionalPlace ++ pathComponents path) = some .directory
    · obtain ⟨last, hlast⟩ : ∃ last, source.getLast? = some last :=
        ⟨_, List.getLast?_eq_some_getLast (by simp [source, oldMountPlace])⟩
      simp only [target, copyTarget, hdirectory, hlast, Option.toList_some] at heq
      rw [← (List.append_inj' heq rfl).1]
      exact hdirectory
    · have htarget : target = additionalPlace ++ pathComponents path := by
        simp only [target, copyTarget]
      rw [hmkdirs]
      refine Tree.mkdirs_of_above ?_
      simp only [← htarget, heq, List.dropLast_concat, List.prefix_refl]
  have hcopied : CopiedTo made (made.graft (made.subtree source) target) source target := by
    refine ⟨?_, hdirectories.accepts hdirectories.subtree hheld, rfl⟩
    rw [hgrows _ (ht.eq_of_ne_none hsource)]
    exact Option.some_ne_none _
  exact reaches_run_unit succeeds (step_copyToPlace hplain hcopied) rfl
    ⟨hdirectories.graft hdirectories.subtree,
      hgrows.trans (DirectoriesOnly.grows_graft hdirectories.subtree)⟩

/-- What the old system of these runs does not have. -/
def strayName : String := "stray"

/-- Of a path that the shell takes apart it is not known what its copy does. -/
theorem reaches_stageUnplaced {path : String} (hunplaced : ¬ IsPlace path)
    (ht : DirectoriesOnly t) :
    Reaches (fileWorld old.tree) t (stageAdditionalPath path)
      fun _ t' => DirectoriesOnly t' ∧ Grows t t' ∧ t' additionalPlace = some .directory ∧
        t' (additionalPlace ++ [strayName]) = some .directory := by
  have hsource := wordPlace_pathInOldRoot_eq_none hunplaced
  have htest : Reaches (fileWorld old.tree) t (pathExists (pathInOldRoot path))
      fun found t' => found = true ∧ t' = t := by
    have hstep : fileWorld old.tree t (unchecked (.test .exists (pathInOldRoot path))) succeeds t :=
      ⟨rfl, fun place hplace => by rw [hsource] at hplace; cases hplace⟩
    exact reaches_probe succeeds hstep ⟨rfl, rfl⟩
  refine htest.bind fun found t' hfound => ?_
  obtain ⟨rfl, rfl⟩ := hfound
  refine .onlyIf (fun _ => ?_) nofun
  refine (reaches_mkdir ht).bind fun _ made hmade => ?_
  obtain ⟨hdirectories, hgrows, -⟩ := hmade
  have hstep : fileWorld old.tree made (checked (.cpArchive (pathInOldRoot path) (stagedWord path)))
      succeeds (made.mkdirs (additionalPlace ++ [strayName])) := by
    refine fun _ => ⟨fun place target hplace => ?_, fun directory place target _ _ htarget => ?_⟩
    · rw [hsource] at hplace
      cases hplace
    · rw [wordPlace_stagedWord_eq_none hunplaced] at htarget
      cases htarget
  exact reaches_run_unit succeeds hstep rfl ⟨hdirectories.mkdirs,
    hgrows.trans DirectoriesOnly.grows_mkdirs, Tree.mkdirs_of_above (List.prefix_append _ _),
    Tree.mkdirs_of_above (List.prefix_refl _)⟩

/-! ### The rest of the staging step -/

/-- A command that leaves the files alone whatever its answer is. -/
def LooksAway (invocation : Invocation) : Prop :=
  invocation.command.leavesFiles ∧ ∀ flag word, invocation.command ≠ .test flag word

theorem LooksAway.step {invocation : Invocation} (h : LooksAway invocation)
    (answer : CommandExecutionResult) : fileWorld old.tree t invocation answer t := by
  obtain ⟨command, raises, inputData⟩ := invocation
  obtain ⟨hleaves, htest⟩ := h
  cases command <;> simp only [Command.leavesFiles, Bool.false_eq_true] at hleaves
  case test flag word => exact absurd rfl (htest flag word)
  all_goals rfl

theorem reaches_away {p : Script α} {value : α} (hissues : Issues LooksAway p)
    (h : CanAlwaysReturn p value) :
    Reaches (fileWorld old.tree) t p fun value' t' => value' = value ∧ t' = t :=
  h.reaches hissues fun _ answer hgood _ => hgood.step answer

theorem issues_findLuksPartition_away {disk : String} :
    Issues LooksAway (findLuksPartition disk) := by
  have hfirst : ∀ partitions, Issues LooksAway (firstLuksPartition disk partitions) := by
    intro partitions
    induction partitions with
    | nil => simp [firstLuksPartition]
    | cons partition partitions ih =>
      simp [firstLuksPartition, ih, LooksAway, Command.leavesFiles]
  simp [findLuksPartition, hfirst, LooksAway, Command.leavesFiles]

theorem issues_ensureStagingSpace_away {existing : ExistingInstallInfo} :
    Issues LooksAway (ensureStagingSpace config existing) := by
  have hsizes : ∀ paths, Issues LooksAway (additionalSizeMb paths) := by
    intro paths
    induction paths with
    | nil => simp [additionalSizeMb]
    | cons path paths ih => simp [additionalSizeMb, sizeMb, ih, LooksAway, Command.leavesFiles]
  simp [ensureStagingSpace, hsizes, LooksAway, Command.leavesFiles]

theorem reaches_openAndMount {partition : String} (hold : DirectoriesOnly old.tree)
    (ht : DirectoriesOnly t) :
    Reaches (fileWorld old.tree) t (openAndMount config partition)
      fun _ t' => DirectoriesOnly t' ∧ Mounted old t' := by
  have hdirectory : wordPlace oldMountDirectory = some oldMountPlace := by decide
  have hopen : Reaches (fileWorld old.tree) t (tryRunWithInput
      (.cryptsetupOpen none partition oldMapperName) config.credentials.sourceLuksPassword)
      fun unlocked t' => unlocked = succeeds ∧ t' = t :=
    reaches_invoke succeeds rfl nofun ⟨rfl, rfl⟩
  refine hopen.bind fun unlocked t' hunlocked => ?_
  obtain ⟨rfl, rfl⟩ := hunlocked
  rw [if_pos (by rfl)]
  refine (reaches_mkdir ht).bind fun _ made hmade => ?_
  have hstep : fileWorld old.tree made (unchecked (.mountTopLevel
      s!"/dev/mapper/{oldMapperName}" oldMountDirectory)) succeeds
        (made.mount old.tree oldMountPlace) := by
    intro _ place hplace
    obtain rfl : oldMountPlace = place := by simpa [hdirectory] using hplace
    rfl
  have hmount : Reaches (fileWorld old.tree) made (tryRun (.mountTopLevel
      s!"/dev/mapper/{oldMapperName}" oldMountDirectory)) fun mounted t' =>
        mounted = succeeds ∧ t' = made.mount old.tree oldMountPlace :=
    reaches_invoke succeeds hstep nofun ⟨rfl, rfl⟩
  refine hmount.bind fun mounted t'' hmounted => ?_
  obtain ⟨rfl, rfl⟩ := hmounted
  refine .onlyIf nofun fun _ => ⟨hmade.1.mount hold, fun path => Tree.mount_append path⟩

/-- The directory that the keys were found in, if any. -/
def KeysFound (t : Tree String κ) (directory : String) : Prop :=
  directory = "" ∨ ∃ place, wordPlace directory = some (oldMountPlace ++ "@" :: place) ∧
    t (oldMountPlace ++ "@" :: (place ++ ["keys"])) = some .directory

theorem reaches_findSecureBootDirectory :
    Reaches (fileWorld old.tree) t findSecureBootDirectory
      fun directory t' => t' = t ∧ KeysFound t directory := by
  have hkeys : wordPlace s!"{pathInOldRoot sbctlDirectory}/keys" =
      some (oldMountPlace ++ "@" :: (sbctlPlace ++ ["keys"])) := by decide
  have hlegacyKeys : wordPlace s!"{pathInOldRoot sbctlLegacyDirectory}/keys" =
      some (oldMountPlace ++ "@" :: (sbctlLegacyPlace ++ ["keys"])) := by decide
  refine reaches_test.bind fun found t' hfound => ?_
  obtain ⟨rfl, -, hfound⟩ := hfound
  cases found with
  | true => exact reaches_ret ⟨rfl, .inr ⟨sbctlPlace, by decide, (hfound _ hkeys).mp rfl⟩⟩
  | false =>
    refine reaches_test.bind fun found' t'' hfound' => ?_
    obtain ⟨rfl, -, hfound'⟩ := hfound'
    cases found' with
    | true =>
      exact reaches_ret ⟨rfl, .inr ⟨sbctlLegacyPlace, by decide, (hfound' _ hlegacyKeys).mp rfl⟩⟩
    | false => exact reaches_ret ⟨rfl, .inl rfl⟩

theorem reaches_inspectMountedSystem {disk partition : String} :
    Reaches (fileWorld old.tree) t (inspectMountedSystem disk partition)
      fun existing t' => t' = t ∧ existing.homeSubvolume = "" ∧ existing.homeSizeMb = 0 ∧
        KeysFound t existing.secureBootDirectory := by
  have hlisting : Reaches (fileWorld old.tree) t (query (.subvolumeList oldMountDirectory))
      fun listing t' => listing = "" ∧ t' = t := reaches_query succeeds rfl ⟨rfl, rfl⟩
  refine hlisting.bind fun listing t' hlisting => ?_
  obtain ⟨rfl, rfl⟩ := hlisting
  have hnone : homeSubvolumeOf "" = "" := by decide
  rw [hnone]
  refine reaches_findSecureBootDirectory.bind fun directory t'' hdirectory => ?_
  obtain ⟨rfl, hkeys⟩ := hdirectory
  exact reaches_ret ⟨rfl, rfl, rfl, hkeys⟩

/-- The keys that were found can be staged. -/
theorem reaches_stageKeys {opened : Tree String κ} {directory : String} (hdirectory : directory ≠ "")
    (hopened : Mounted old opened) (hkeys : KeysFound opened directory) (ht : DirectoriesOnly t)
    (hmounted : Mounted old t) :
    Reaches (fileWorld old.tree) t (copyIntoStaging directory "sbctl")
      fun _ t' => DirectoriesOnly t' ∧ Grows t t' ∧ Mounted old t' := by
  obtain ⟨place, hplace, hfound⟩ := hkeys.resolve_left hdirectory
  have harea : wordPlace (stagingDirectory ++ "/" ++ "sbctl") = some (stagingPlace ++ ["sbctl"]) := by
    decide
  rw [copyIntoStaging, info, Program.log_bind, reaches_log, Program.ret_bind]
  refine (reaches_mkdir ht).bind fun _ made hmade => ?_
  obtain ⟨hdirectories, hgrows, hmkdirs⟩ := hmade
  obtain rfl := hmkdirs _ harea
  have hmounted' : Mounted old (t.mkdirs (stagingPlace ++ ["sbctl"])) :=
    hmounted.of_onlyAt ["sbctl"] onlyAt_mkdirs
  have hsource : t.mkdirs (stagingPlace ++ ["sbctl"]) (oldMountPlace ++ "@" :: place) ≠ none := by
    have hroot : old.tree ("@" :: place) = some .directory := by
      refine old.closed ("@" :: place) "keys" ?_
      have hroot := (hopened ("@" :: (place ++ ["keys"]))).symm.trans hfound
      rw [List.cons_append, hroot]
      exact Option.some_ne_none _
    rw [hmounted', hroot]
    exact Option.some_ne_none _
  refine (reaches_copyContents hplace (by decide) hdirectories hsource
    fun path hpath => Tree.mkdirs_of_above hpath).mono fun _ copied hcopied => ?_
  obtain ⟨hcopies, hgrows', rfl⟩ := hcopied
  exact ⟨hcopies, hgrows.trans hgrows', hmounted'.of_onlyAt ["sbctl"] onlyAt_graft⟩

/-- The staging step succeeds where the loop over the additional paths does. -/
theorem reaches_staging {post : Tree String κ → Prop} (hold : DirectoriesOnly old.tree)
    (hloop : ∀ t, DirectoriesOnly t → Mounted old t → t stagingPlace = some .directory →
      Reaches (fileWorld old.tree) t
        (Program.forEach config.migration.additionalPaths stageAdditionalPath) fun _ t' => post t') :
    Reaches (fileWorld old.tree) (fun _ => none) (MigrationStagingStepExecutor.execute config)
      fun _ t' => post t' := by
  obtain ⟨partition, hpartition⟩ := canReturn_findLuksPartition config.storage.targetDisk
  refine (reaches_away issues_findLuksPartition_away hpartition).bind fun found t hfound => ?_
  obtain ⟨-, rfl⟩ := hfound
  have hempty : DirectoriesOnly (fun _ => none : Tree String κ) := fun _ _ h => by cases h
  refine (reaches_openAndMount hold hempty).bind fun _ opened hopened => ?_
  have hstage : Reaches (fileWorld old.tree) opened (stageMountedSystem config
      config.storage.targetDisk found) fun _ t' => post t' := by
    refine reaches_inspectMountedSystem.bind fun existing t hexisting => ?_
    obtain ⟨rfl, hhome, hsize, hkeys⟩ := hexisting
    simp only [info, Program.log_bind, Program.ret_bind, reaches_log]
    refine (reaches_away issues_ensureStagingSpace_away
      (canReturn_ensureStagingSpace hsize)).bind fun _ t' hsame => ?_
    obtain ⟨-, rfl⟩ := hsame
    have hstaging : wordPlace stagingDirectory = some stagingPlace := by decide
    have hstep : fileWorld old.tree t' (checked (.rmRecursive stagingDirectory)) succeeds
        (t'.remove stagingPlace) := by
      intro _ place hplace
      obtain rfl : stagingPlace = place := by simpa [hstaging] using hplace
      rfl
    have hremove : Reaches (fileWorld old.tree) t' (run_ (.rmRecursive stagingDirectory))
        fun _ removed => removed = t'.remove stagingPlace :=
      reaches_run_unit succeeds hstep rfl rfl
    refine hremove.bind fun _ removed hremoved => ?_
    subst hremoved
    refine (reaches_mkdir hopened.1.remove).bind fun _ made hmade => ?_
    obtain ⟨hdirectories, -, hmkdirs⟩ := hmade
    obtain rfl := hmkdirs _ hstaging
    have hmounted : Mounted old ((t'.remove stagingPlace).mkdirs stagingPlace) := by
      refine hopened.2.of_onlyAt [] fun path hbelow habove => ?_
      rw [List.append_nil] at hbelow habove
      rw [Tree.mkdirs_of_not_above habove, Tree.remove_of_not_below hbelow]
    have hskipHome : (config.migration.preserveHome && existing.homeSubvolume != "") = false := by
      simp [hhome]
    rw [hskipHome]
    have hstageKeys : Reaches (fileWorld old.tree) ((t'.remove stagingPlace).mkdirs stagingPlace)
        (Program.onlyIf (config.migration.preserveSecureBootKeys &&
          existing.secureBootDirectory != "") (copyIntoStaging existing.secureBootDirectory "sbctl"))
        fun _ t'' => DirectoriesOnly t'' ∧ t'' stagingPlace = some .directory ∧ Mounted old t'' := by
      have hmade : (t'.remove stagingPlace).mkdirs stagingPlace stagingPlace = some .directory :=
        Tree.mkdirs_of_above (List.prefix_refl _)
      refine .onlyIf (fun hwanted => ?_) fun _ => ⟨hdirectories, hmade, hmounted⟩
      rw [Bool.and_eq_true, bne_iff_ne] at hwanted
      refine (reaches_stageKeys hwanted.2 hopened.2 hkeys hdirectories hmounted).mono
        fun _ t'' hcopied => ?_
      exact ⟨hcopied.1, hcopied.2.1 _ hmade, hcopied.2.2⟩
    refine hstageKeys.bind fun _ t'' hstaged => ?_
    exact hloop t'' hstaged.1 hstaged.2.2 hstaged.2.1
  have hclean : ∀ t : Tree String κ, Reaches (fileWorld old.tree) t unmountAndClose
      fun _ t' => t' = t := by
    intro t
    have hcommand : ∀ command, fileWorld old.tree t (unchecked command) succeeds t →
        Reaches (fileWorld old.tree) t (tryRun_ command) fun _ t' => t' = t :=
      fun command hstep => by
        have hinvoke : Reaches (fileWorld old.tree) t (tryRun command) fun _ t' => t' = t :=
          reaches_invoke succeeds hstep nofun rfl
        exact hinvoke.bind fun _ _ h => reaches_ret h
    refine (hcommand (.umount oldMountDirectory) fun _ _ _ _ => rfl).bind fun _ t' h => ?_
    subst h
    refine (hcommand (.cryptsetupClose oldMapperName) rfl).bind fun _ t'' h => ?_
    subst h
    exact hcommand (.rmdir oldMountDirectory) fun _ _ _ _ => rfl
  refine (hstage.tryFinally fun _ t' hpost => (hclean t').mono ?_).bind fun _ t' hpost => ?_
  · rintro _ _ rfl
    exact hpost
  · exact reaches_log.mpr (reaches_ret hpost)

/-! ## The restore step -/

theorem reaches_restoreArea {area destinationWord : String} {destination : List String}
    (hstaged : wordPlace s!"{stagingDirectory}/{area}" = some (stagingPlace ++ [area]))
    (hdestination : wordPlace destinationWord = some (targetPlace ++ destination))
    (hinto : wordPlace s!"{destinationWord}/" = some (targetPlace ++ destination))
    (ht : DirectoriesOnly t) :
    Reaches (fileWorld old.tree) t (restoreDirectory s!"{stagingDirectory}/{area}" destinationWord)
      fun _ t' => DirectoriesOnly t' := by
  refine reaches_test.bind fun found t' hfound => ?_
  obtain ⟨rfl, -, hfound⟩ := hfound
  refine .onlyIf (fun hyes => ?_) fun _ => ht
  have hdirectory := (hfound _ hstaged).mp hyes
  rw [info, Program.log_bind, reaches_log, Program.ret_bind]
  refine (reaches_mkdir ht).bind fun _ made hmade => ?_
  obtain ⟨hdirectories, hgrows, hmkdirs⟩ := hmade
  obtain rfl := hmkdirs _ hdestination
  have hsource : t'.mkdirs (targetPlace ++ destination) (stagingPlace ++ [area]) ≠ none := by
    rw [hgrows _ hdirectory]
    exact Option.some_ne_none _
  exact (reaches_copyContents hstaged hinto hdirectories hsource
    fun path hpath => Tree.mkdirs_of_above hpath).mono fun _ _ h => h.1

/-- The restore step succeeds. -/
theorem reaches_restoring (ht : DirectoriesOnly t) :
    Reaches (fileWorld old.tree) t (MigrationRestoreStepExecutor.execute config)
      fun _ _ => True := by
  have hloop : ∀ t : Tree String κ, DirectoriesOnly t → Reaches (fileWorld old.tree) t
      (Program.forEach stagedDestinations fun x => restoreDirectory x.1 x.2)
      fun _ t' => DirectoriesOnly t' := by
    intro t ht
    refine (reaches_restoreArea (show _ = some (stagingPlace ++ ["home"]) by decide)
      (show _ = some (targetPlace ++ ["home"]) by decide) (by decide) ht).bind fun _ home hhome => ?_
    refine (reaches_restoreArea (show _ = some (stagingPlace ++ ["sbctl"]) by decide)
      (show _ = some (targetPlace ++ sbctlPlace) by decide) (by decide) hhome).bind
      fun _ sbctl hsbctl => ?_
    refine (reaches_restoreArea (show _ = some (stagingPlace ++ ["additional"]) by decide)
      (show _ = some (targetPlace ++ []) by decide) (by decide) hsbctl).bind
      fun _ additional hadditional => ?_
    exact reaches_ret hadditional
  have hreport : ∀ t : Tree String κ, Reaches (fileWorld old.tree) t (reportRestoredData config)
      fun _ _ => True := by
    have hwarning : ∀ (t : Tree String κ) condition message, Reaches (fileWorld old.tree) t
        (Program.onlyIf condition (warning message)) fun _ _ => True :=
      fun t condition message =>
        .onlyIf (fun _ => reaches_log.mpr (reaches_ret trivial)) fun _ => trivial
    intro t
    have hhome : Reaches (fileWorld old.tree) t
        (Program.onlyIf config.migration.preserveHome reportRestoredHome) fun _ _ => True := by
      have hlisting : Reaches (fileWorld old.tree) t (query (.ls s!"{targetRoot}/home"))
          fun _ _ => True := reaches_query succeeds rfl trivial
      exact .onlyIf (fun _ => hlisting.bind fun _ t' _ => hwarning t' _ _) fun _ => trivial
    refine hhome.bind fun _ t' _ => ?_
    refine .onlyIf (fun _ => ?_) fun _ => trivial
    exact reaches_test.bind fun _ t'' _ => hwarning t'' _ _
  refine reaches_test.bind fun found t' hfound => ?_
  obtain ⟨rfl, -, -⟩ := hfound
  cases found with
  | false => exact reaches_log.mpr (reaches_ret trivial)
  | true =>
    refine (hloop t' ht).bind fun _ restored _ => ?_
    refine (hreport restored).bind fun _ reported _ => ?_
    have hstaging : wordPlace stagingDirectory = some stagingPlace := by decide
    have hstep : fileWorld old.tree reported (checked (.rmRecursive stagingDirectory)) succeeds
        (reported.remove stagingPlace) := by
      intro _ place hplace
      obtain rfl : stagingPlace = place := by simpa [hstaging] using hplace
      rfl
    exact reaches_run_unit succeeds hstep rfl trivial

/-! ## What is wrong after these runs -/

/-- Something that was not in the old system is staged. -/
def StrayStaged (deepest : List String) (paths : List String) (t : Tree String κ) : Prop :=
  t stagingPlace = some .directory ∧ t additionalPlace = some .directory ∧
    ∃ stray, ¬ FromHome (oneWay κ deepest) stray ∧ ¬ FromSbctl (oneWay κ deepest) stray ∧
      ¬ FromAdditional (oneWay κ deepest) paths stray ∧
      t (additionalPlace ++ stray) = some .directory

/-- What is staged and did not come from the old system ends up in the target. -/
theorem not_putsBack_of_strayStaged (deepest : List String)
    (h : Reaches (fileWorld (oneWay κ deepest).tree) (fun _ => none)
      (MigrationStagingStepExecutor.execute config) fun _ t' =>
        DirectoriesOnly t' ∧ StrayStaged deepest config.migration.additionalPaths t') :
    ¬ PutsBack κ config := by
  intro hputsBack
  obtain ⟨staging, _, staged, hstaging, hreplay, hdirectories, hdirectory, harea, stray, hhome,
    hsbctl, hadditional, hstray⟩ := h
  -- the new target is empty
  let before : Tree String κ := fun path => if stagingPlace <+: path then staged path else none
  have hbefore : ∀ rest, before (stagingPlace ++ rest) = staged (stagingPlace ++ rest) :=
    fun rest => if_pos (List.prefix_append _ _)
  have hdirectoriesBefore : DirectoriesOnly before := by
    intro path node hnode
    by_cases hpath : stagingPlace <+: path
    · exact hdirectories path node (by simpa only [before, if_pos hpath] using hnode)
    · simp [before, hpath] at hnode
  have hthere : before stagingPlace = some .directory := by
    simpa using (hbefore []).trans (by simpa using hdirectory)
  have hrestore : Reaches (fileWorld (oneWay κ deepest).tree) before
      (MigrationRestoreStepExecutor.execute config) fun _ _ => True :=
    reaches_restoring hdirectoriesBefore
  obtain ⟨restoring, _, after, hrestoring, hreplay', -, hareas⟩ :=
    hrestore.and_keeps (keeps_restoring hthere)
  obtain ⟨home, sbctl, restored, hhomeArea, hsbctlArea, hadditionalArea, hsame⟩ := hareas
  have hkept : ∀ rest, sbctl (stagingPlace ++ rest) = staged (stagingPlace ++ rest) := by
    intro rest
    rw [hsbctlArea.staging, hhomeArea.staging, hbefore]
  have hafter : after (targetPlace ++ stray) = some .directory := by
    rw [hsame]
    have hcopied := hadditionalArea.copied ((hkept ["additional"]).trans harea) stray .directory
      ((hkept ("additional" :: stray)).trans hstray)
    rwa [List.append_nil] at hcopied
  have hputBack := hputsBack (oneWay κ deepest) _ staged before after staging restoring hstaging
    hreplay hbefore hrestoring hreplay'
  have hnew : before (targetPlace ++ stray) = none := if_neg (by simp [stagingPlace, targetPlace])
  rcases hputBack.noOthers stray hnew (by simp [hafter]) with h | h | h
  · exact hhome h
  · exact hsbctl h
  · exact hadditional h

/-- Nothing that has gone astray came from the old system. -/
theorem not_from_of_not_prefix (deepest paths : List String) {stray : List String}
    (hway : ¬ stray <+: deepest) (hhome : ¬ stray <+: ["home"]) (hsbctl : ¬ stray <+: sbctlPlace)
    (hlegacy : ∀ rest, stray = sbctlPlace ++ rest → ¬ sbctlLegacyPlace ++ rest <+: deepest) :
    ¬ FromHome (oneWay κ deepest) stray ∧ ¬ FromSbctl (oneWay κ deepest) stray ∧
      ¬ FromAdditional (oneWay κ deepest) paths stray := by
  refine ⟨?_, ?_, ?_⟩
  · rintro (h | ⟨rest, -, h⟩)
    · exact hhome h
    · refine h ?_
      simp [oneWay, Volume.along]
  · rintro (h | ⟨rest, rfl, h | h⟩)
    · exact hsbctl h
    · rw [List.cons_append, oneWay_root, if_neg hway] at h
      exact h rfl
    · rw [List.cons_append, oneWay_root, if_neg (hlegacy rest rfl)] at h
      exact h rfl
  · rintro ⟨additional, -, hexisting, h | ⟨-, h⟩⟩
    · exact hway (h.trans (existing_oneWay_iff.mp hexisting))
    · rw [oneWay_root, if_neg hway] at h
      exact h rfl

theorem not_from_of_stray (paths : List String) {stray : List String} (h : Stray deepest stray) :
    ¬ FromHome (oneWay κ deepest) stray ∧ ¬ FromSbctl (oneWay κ deepest) stray ∧
      ¬ FromAdditional (oneWay κ deepest) paths stray := by
  have hlonger : stray.length = deepest.length + 1 := by
    rcases h with rfl | ⟨before, name, rest, rfl, rfl⟩
    · exact List.length_cons
    · simp only [List.length_append, List.length_cons]
      omega
  have hway : ¬ stray <+: deepest := by
    intro hpre
    have hlength := hpre.length_le
    omega
  rcases h with rfl | ⟨before, name, rest, rfl, rfl⟩
  · refine not_from_of_not_prefix _ paths hway ?_ ?_ ?_ <;> simp [sbctlPlace, List.cons_prefix_cons]
  · refine not_from_of_not_prefix _ paths hway (fun hpre => ?_) (fun hpre => ?_) fun left heq => ?_
    · have hlength := hpre.length_le
      simp at hlength
      omega
    · match before with
      | [] =>
        simp only [List.nil_append, sbctlPlace, List.cons_prefix_cons] at hpre
        exact absurd (hpre.1.symm.trans hpre.2.1) (by decide)
      | [first] =>
        simp only [List.cons_append, List.nil_append, sbctlPlace, List.cons_prefix_cons] at hpre
        exact absurd (hpre.2.1.symm.trans hpre.2.2.1) (by decide)
      | first :: second :: before =>
        have hlength := hpre.length_le
        simp [sbctlPlace] at hlength
        omega
    · cases before with
      | nil =>
        simp only [List.nil_append, sbctlPlace, List.cons_append, List.cons.injEq] at heq
        simp [sbctlLegacyPlace, List.cons_prefix_cons, heq.1]
      | cons first before =>
        simp only [sbctlPlace, List.cons_append, List.cons.injEq] at heq
        simp [sbctlLegacyPlace, List.cons_prefix_cons, heq.1]

/-- Two additional paths of which one is in the other. -/
theorem not_putsBack_of_meet (earlier later : String)
    (hplain : ∀ path ∈ config.migration.additionalPaths, IsPlace path)
    (hpair : [earlier, later].Sublist config.migration.additionalPaths)
    (hmeet : pathComponents later <+: pathComponents earlier ∨
      pathComponents earlier <+: pathComponents later) : ¬ PutsBack κ config := by
  obtain ⟨deepest, hearlier, hlater⟩ : ∃ deepest, pathComponents earlier <+: deepest ∧
      pathComponents later <+: deepest := by
    rcases hmeet with h | h
    · exact ⟨_, List.prefix_refl _, h⟩
    · exact ⟨_, h, List.prefix_refl _⟩
  refine not_putsBack_of_strayStaged deepest ?_
  refine reaches_staging DirectoriesOnly.along fun t ht hmounted hstaging => ?_
  have hstart : WayStaged deepest [] t :=
    ⟨ht, hmounted, hstaging, by simp, .inr ⟨by simp, by simp⟩⟩
  refine (Reaches.forEach_done (I := WayStaged deepest) hstart fun done path t hpath h =>
    reaches_stageAdditionalPath (hplain path hpath) h).mono fun _ t' h => ?_
  obtain ⟨stray, hstray, harea, hplace⟩ := h.staged.resolve_right fun hfew => by
    have htwo := (hpair.filter fun path => decide (pathComponents path <+: deepest)).length_le
    simp only [List.filter_cons, hearlier, hlater, decide_true, if_true, List.filter_nil,
      List.length_cons, List.length_nil] at htwo
    omega
  obtain ⟨hhome, hsbctl, hadditional⟩ := not_from_of_stray (κ := κ)
    config.migration.additionalPaths hstray
  exact ⟨h.directoriesOnly, h.staging, harea, stray, hhome, hsbctl, hadditional, hplace⟩

/-- An additional path that is no word. -/
theorem not_putsBack_of_unplaced {path : String}
    (hpath : path ∈ config.migration.additionalPaths) (hunplaced : ¬ IsPlace path) :
    ¬ PutsBack κ config := by
  refine not_putsBack_of_strayStaged [] ?_
  refine reaches_staging DirectoriesOnly.along fun t ht hmounted hstaging => ?_
  let I : List String → Tree String κ → Prop := fun done t => DirectoriesOnly t ∧
    t stagingPlace = some .directory ∧ ((∃ path ∈ done, ¬ IsPlace path) →
      t additionalPlace = some .directory ∧ t (additionalPlace ++ [strayName]) = some .directory)
  have hstart : I [] t := ⟨ht, hstaging, by simp⟩
  refine (Reaches.forEach_done (I := I) hstart fun done entry t _ h => ?_).mono fun _ t' h => ?_
  · obtain ⟨ht, hstaging, hstray⟩ := h
    by_cases hplain : IsPlace entry
    · refine (reaches_stageAnyPath hplain ht).mono fun _ t' hnext => ?_
      refine ⟨hnext.1, hnext.2 _ hstaging, ?_⟩
      rintro ⟨path, hmem, hpath⟩
      rw [List.mem_append, List.mem_singleton] at hmem
      rcases hmem with hmem | rfl
      · obtain ⟨harea, hplace⟩ := hstray ⟨path, hmem, hpath⟩
        exact ⟨hnext.2 _ harea, hnext.2 _ hplace⟩
      · exact absurd hplain hpath
    · refine (reaches_stageUnplaced hplain ht).mono fun _ t' hnext => ?_
      exact ⟨hnext.1, hnext.2.1 _ hstaging, fun _ => hnext.2.2⟩
  · obtain ⟨hdirectories, hstaging, hstray⟩ := h
    obtain ⟨harea, hplace⟩ := hstray ⟨path, hpath, hunplaced⟩
    have hway : ¬ [strayName] <+: [] := by simp
    obtain ⟨hhome, hsbctl, hadditional⟩ := not_from_of_not_prefix (κ := κ) []
      config.migration.additionalPaths hway (by simp [strayName, List.cons_prefix_cons])
        (by simp [strayName, sbctlPlace, List.cons_prefix_cons]) (by simp [strayName, sbctlPlace])
    exact ⟨hdirectories, hstaging, harea, [strayName], hhome, hsbctl, hadditional, hplace⟩

end PutsBack

end ArchInstaller
