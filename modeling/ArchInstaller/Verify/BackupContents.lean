import ArchInstaller.Config.Sample
import ArchInstaller.World.Backup
import Mathlib.Data.List.Infix

/-! # What the backup reports and what it holds

The entries of the manifest are the items that were found, and each was copied. What is at an
entry's path afterwards is what its source is, as long as the copies keep apart, no file meets a
directory at its path, which `cp -a` copies it into, and `rsync` is not deceived by a file of the
same size and time. -/

namespace ArchInstaller

namespace UsbBackupStepExecutor

open Files Interaction PyText Script

variable {safeDump : PlainValue → String} {config : InstallerConfig} {s s' : BackupState}
  {t t' : Tree String StoredFile}

/-! ## The claim -/

/-- An item, with the directory of its group. -/
abbrev Entry := String × BackupItemConfig

def groups (config : InstallerConfig) : List (String × List BackupItemConfig) :=
  let groups := config.sync.backupCategories.map fun category =>
    (category.value, backupItems category)
  if config.sync.backupItems.isEmpty then groups
  else groups ++ [(customItemsDirectory, config.sync.backupItems)]

def entriesOf (groups : List (String × List BackupItemConfig)) : List Entry :=
  groups.flatMap fun group => group.2.map (group.1, ·)

def entries (config : InstallerConfig) : List Entry := entriesOf (groups config)

/-- Where an entry is on the partition. -/
def place (x : Entry) : List String := x.1 :: pathComponents x.2.name

/-- The path of the source, as it stands in the commands. -/
def sourceWord (config : InstallerConfig) (x : Entry) : String := expandHome config x.2.sourcePath

def sourcePlace (config : InstallerConfig) (x : Entry) : List String :=
  pathComponents (sourceWord config x)

/-- What `test -e` finds at a path that the shell takes as it stands. -/
def isFound (t : Tree String StoredFile) (word : String) : Bool :=
  match t (pathComponents word) with
  | some .directory => true
  | some (.file _) => !endsInSlash word
  | none => false

theorem isFound_iff {word : String} :
    isFound t word ↔ Finds t word (pathComponents word) .exists := by
  unfold isFound Finds
  cases t (pathComponents word) with
  | none => simp
  | some node => cases node <;> simp

/-- The items whose source is there. -/
def found (config : InstallerConfig) (s : BackupState) : List Entry :=
  (entries config).filter fun x => isFound s.outside (sourceWord config x)

/-- The manifest was written, with the entries of the items that were found. -/
def Reports (safeDump : PlainValue → String) (config : InstallerConfig) (s : BackupState)
    (exchanges : Exchanges) : Prop :=
  ∃ (manifest : BackupManifest) (answer : CommandExecutionResult),
    (⟨.writeFile s!"{backupMount}/manifest.yaml", true, some (safeDump manifest.plain)⟩, answer) ∈
      exchanges ∧
    manifest.itemsBackedUp = (found config s).map fun x => s!"{x.1}/{x.2.name}"

/-- The partition has at each entry's path what its source is. -/
def HoldsWhatItReports (safeDump : PlainValue → String) (config : InstallerConfig)
    (s : BackupState) (exchanges : Exchanges) (s' : BackupState) : Prop :=
  Reports safeDump config s exchanges ∧
    ∀ x ∈ found config s,
      s'.partition.subtree (place x) = s.outside.subtree (sourcePlace config x)

/-- Every run that returns leaves a backup that holds what it reports. -/
def BacksUp (safeDump : PlainValue → String) (config : InstallerConfig) (s : BackupState) : Prop :=
  Returns backupWorld s (execute safeDump config) fun exchanges _ s' =>
    HoldsWhatItReports safeDump config s exchanges s'

/-! ## When it does -/

/-- Neither is in the other. -/
def Apart (place place' : List String) : Prop := ¬ place <+: place' ∧ ¬ place' <+: place

/-- The shell takes the word as it stands, and it goes up nowhere. -/
def IsPlain (word : String) : Prop := wordPlace word = some (pathComponents word)

structure Orderly (config : InstallerConfig) (s : BackupState) : Prop where
  plain : ∀ x ∈ entries config, IsPlain (sourceWord config x) ∧ IsPlain x.2.name
  /-- No source is in the mountpoint of the backup, or holds it. -/
  outside : ∀ x ∈ entries config, Apart (sourcePlace config x) backupPlace
  /-- Entries are apart, unless they are the same copy. -/
  separate : ∀ x ∈ found config s, ∀ y ∈ found config s,
    place x = place y ∧ sourcePlace config x = sourcePlace config y ∨ Apart (place x) (place y)
  /-- A file has a name, and no directory is at its path. -/
  files : ∀ x ∈ found config s, s.outside (sourcePlace config x) ≠ some .directory →
    pathComponents x.2.name ≠ [] ∧ s.partition (place x) ≠ some .directory
  /-- A stored file that `rsync` takes for the current one is the current one. -/
  deceived : ∀ x ∈ found config s, ∀ rest stored current,
    s.outside (sourcePlace config x) = some .directory →
    s.partition (place x ++ rest) = some (.file stored) →
    s.outside (sourcePlace config x ++ rest) = some (.file current) →
      stored.looksLike current → stored = current

/-! ## Copying an entry -/

/-- What has been copied so far, of the entries of a configuration whose copies are orderly. -/
structure Copying (config : InstallerConfig) (s : BackupState) (done : List Entry)
    (t : Tree String StoredFile) : Prop where
  sources : ∀ path, Apart path backupPlace → t path = s.outside path
  copied : ∀ x ∈ done, x ∈ found config s →
    t.subtree (backupPlace ++ place x) = s.outside.subtree (sourcePlace config x)
  /-- The other entries are as they were, but for the directories of the groups. -/
  untouched : ∀ x ∈ found config s,
    (∃ y ∈ done, y ∈ found config s ∧ place x = place y ∧
      sourcePlace config x = sourcePlace config y) ∨
    ∀ rest, t (backupPlace ++ place x ++ rest) = s.partition (place x ++ rest) ∨
      t (backupPlace ++ place x ++ rest) = some .directory ∧ rest = [] ∧
        pathComponents x.2.name = []

/-- A machine with these files, and a partition with those. -/
def start (outside partition : Volume String StoredFile) (mounted : Bool) : BackupState :=
  ⟨outside.tree, partition.tree, mounted⟩

theorem Apart.append {place place' : List String} (h : Apart place place') (rest : List String) :
    Apart (place ++ rest) place' :=
  ⟨fun hpre => h.1 ((List.prefix_append _ _).trans hpre), not_prefix_append h.2 h.1 rest⟩

/-- What is apart in the partition is apart. -/
theorem Apart.below {way place place' : List String} (h : Apart place place') (rest : List String) :
    Apart (way ++ place ++ rest) (way ++ place') := by
  refine Apart.append ⟨?_, ?_⟩ rest
  · rw [List.prefix_append_right_inj]
    exact h.1
  · rw [List.prefix_append_right_inj]
    exact h.2

section Steps

variable {done : List Entry} {x : Entry} (h : Orderly config s)
include h

theorem Orderly.source_eq (hcopying : Copying config s done t) (hx : x ∈ entries config)
    (rest : List String) :
    t (sourcePlace config x ++ rest) = s.outside (sourcePlace config x ++ rest) :=
  hcopying.sources _ ((h.outside x hx).append rest)

/-- An entry that is copied, where nothing else is changed but directories that lead to it. -/
theorem Copying.copy (hcopying : Copying config s done t) (hx : x ∈ found config s)
    (hcopied : t'.subtree (backupPlace ++ place x) = s.outside.subtree (sourcePlace config x))
    (hothers : ∀ path, Apart path (backupPlace ++ place x) → t' path = t path) :
    Copying config s (done ++ [x]) t' where
  sources path hpath := by
    rw [hothers path ?_, hcopying.sources path hpath]
    refine ⟨fun hpre => ?_, fun hpre => hpath.2 ((List.prefix_append _ _).trans hpre)⟩
    rcases List.prefix_or_prefix_of_prefix hpre (List.prefix_append backupPlace (place x)) with
      habove | hbelow
    · exact hpath.1 habove
    · exact hpath.2 hbelow
  copied y hy hfound := by
    rcases h.separate y hfound x hx with ⟨hplace, hsource⟩ | hapart
    · rw [hplace, hsource, hcopied]
    · have hy' : y ∈ done := by
        rw [List.mem_append, List.mem_singleton] at hy
        rcases hy with hy | rfl
        · exact hy
        · exact absurd (List.prefix_refl _) hapart.1
      rw [← hcopying.copied y hy' hfound]
      funext rest
      exact hothers _ (hapart.below rest)
  untouched y hy := by
    rcases h.separate y hy x hx with hsame | hapart
    · exact .inl ⟨x, by simp, hx, hsame⟩
    · refine (hcopying.untouched y hy).imp (fun ⟨z, hz, hsame⟩ => ⟨z, by simp [hz], hsame⟩) ?_
      intro hrest rest
      rw [hothers _ (hapart.below rest)]
      exact hrest rest

end Steps

theorem mirrored_eq {stored current : Option (Node StoredFile)}
    (h : ∀ old new, stored = some (.file old) → current = some (.file new) →
      old.looksLike new → old = new) : mirrored stored current = current := by
  unfold mirrored
  split
  next old new =>
    split
    next hlike => rw [h old new rfl rfl hlike]
    next => rfl
  next => rfl

/-- An item whose source is missing is passed over. -/
theorem Copying.skip {done : List Entry} {x : Entry} (hcopying : Copying config s done t)
    (hx : x ∉ found config s) : Copying config s (done ++ [x]) t where
  sources := hcopying.sources
  copied y hy hfound := by
    rw [List.mem_append, List.mem_singleton] at hy
    rcases hy with hy | rfl
    · exact hcopying.copied y hy hfound
    · exact absurd hfound hx
  untouched y hy := (hcopying.untouched y hy).imp_left fun ⟨z, hz, hsame⟩ => ⟨z, by simp [hz], hsame⟩

section Copies

variable {outside partition : Volume String StoredFile} {mounted : Bool} {done : List Entry}
  {x : Entry} (h : Orderly config (start outside partition mounted))
  (hcopying : Copying config (start outside partition mounted) done t)
  (hx : x ∈ found config (start outside partition mounted))
include h hx

/-- The source of an entry is in no way on its way to the partition. -/
theorem apart_target : Apart (sourcePlace config x) (backupPlace ++ place x) := by
  have hapart := h.outside x (List.mem_of_mem_filter hx)
  refine ⟨not_prefix_append hapart.1 hapart.2 _, fun hpre => ?_⟩
  exact hapart.2 ((List.prefix_append _ _).trans hpre)

include hcopying

theorem Copying.copyFile
    (hfile : outside.tree (sourcePlace config x) ≠ some .directory)
    (hcopied : CopiedTo t t' (sourcePlace config x)
      (copyTarget t (sourcePlace config x) (backupPlace ++ place x))) :
    Copying config (start outside partition mounted) (done ++ [x]) t' := by
  have hsource := h.source_eq hcopying (List.mem_of_mem_filter hx)
  obtain ⟨hnamed, hfree⟩ := h.files x hx hfile
  have hregion : (∀ rest, t (backupPlace ++ place x ++ rest) =
        outside.tree (sourcePlace config x ++ rest)) ∨
      ∀ rest, t (backupPlace ++ place x ++ rest) = partition.tree (place x ++ rest) := by
    refine (hcopying.untouched x hx).imp ?_ fun huntouched rest => ?_
    · rintro ⟨y, hy, hfound, hplace, hsame⟩ rest
      rw [hplace, hsame]
      exact congrFun (hcopying.copied y hy hfound) rest
    · exact (huntouched rest).resolve_right fun hempty => hnamed hempty.2.2
  have hnone : ∀ rest ≠ [], t (backupPlace ++ place x ++ rest) = none := by
    intro rest hrest
    rcases hregion with hregion | hregion
    · rw [hregion, outside.none_below hfile hrest]
    · rw [hregion, partition.none_below hfree hrest]
  have htarget : copyTarget t (sourcePlace config x) (backupPlace ++ place x) =
      backupPlace ++ place x := by
    have hnotdirectory : t (backupPlace ++ place x) ≠ some .directory := by
      rcases hregion with hregion | hregion <;> have hroot := hregion [] <;>
        simp only [List.append_nil] at hroot <;> rw [hroot]
      · exact hfile
      · exact hfree
    unfold copyTarget
    split
    next hdirectory => exact absurd hdirectory hnotdirectory
    next => rfl
  rw [htarget] at hcopied
  obtain ⟨hexists, -, rfl⟩ := hcopied
  refine hcopying.copy h hx ?_ fun path hpath => Tree.graft_of_not_below hpath.2
  funext rest
  rw [Tree.subtree_apply, Tree.graft_append, Tree.subtree_apply, Tree.subtree_apply, hsource]
  by_cases hrest : rest = []
  · subst hrest
    have hroot := hsource []
    rw [List.append_nil] at hroot ⊢
    rw [← hroot]
    obtain ⟨node, hnode⟩ := Option.ne_none_iff_exists'.mp hexists
    rw [hnode, Option.some_or]
  · rw [hnone rest hrest, Option.or_none]

theorem Copying.copyDirectory {made : Tree String StoredFile}
    (hdirectory : outside.tree (sourcePlace config x) = some .directory)
    (hmade : made = t.mkdirs (backupPlace ++ place x))
    (hmirrored : Mirrored made t' (sourcePlace config x) (backupPlace ++ place x)) :
    Copying config (start outside partition mounted) (done ++ [x]) t' := by
  have hapart := apart_target h hx
  have hsource : ∀ rest, made (sourcePlace config x ++ rest) =
      outside.tree (sourcePlace config x ++ rest) := by
    intro rest
    rw [hmade, Tree.mkdirs_of_not_above (hapart.append rest).1]
    exact h.source_eq hcopying (List.mem_of_mem_filter hx) rest
  have hstored : ∀ rest stored, made (backupPlace ++ place x ++ rest) = some (.file stored) →
      t (backupPlace ++ place x ++ rest) = some (.file stored) := by
    intro rest stored hfile
    by_cases habove : backupPlace ++ place x ++ rest <+: backupPlace ++ place x
    · rw [hmade, Tree.mkdirs_of_above habove] at hfile
      cases hfile
    · rwa [hmade, Tree.mkdirs_of_not_above habove] at hfile
  refine hcopying.copy h hx ?_ fun path hpath => ?_
  · funext rest
    rw [Tree.subtree_apply, hmirrored.into, hsource]
    refine mirrored_eq fun stored current hold hnew hlike => ?_
    have hold' := hstored rest stored hold
    rcases hcopying.untouched x hx with ⟨y, hy, hfound, hplace, hsame⟩ | huntouched
    · have hcopied := congrFun (hcopying.copied y hy hfound) rest
      rw [Tree.subtree_apply, ← hplace, hold', ← hsame] at hcopied
      simpa using hcopied.trans hnew
    · rcases huntouched rest with hsame | ⟨hempty, -⟩
      · exact h.deceived x hx rest stored current hdirectory (hsame ▸ hold') hnew hlike
      · rw [hempty] at hold'
        cases hold'
  · rw [hmirrored.others path hpath.2, hmade, Tree.mkdirs_of_not_above hpath.1]

end Copies

theorem nameless_of_above {x : Entry} {group : String} {rest : List String}
    (h : backupPlace ++ place x ++ rest <+: backupPlace ++ [group]) :
    rest = [] ∧ pathComponents x.2.name = [] := by
  rw [List.append_assoc, List.prefix_append_right_inj, place, List.cons_append,
    List.cons_prefix_cons, List.prefix_nil, List.append_eq_nil_iff] at h
  exact h.2.symm

/-- The directory of a group is made. -/
theorem Copying.mkdirGroup {outside partition : Volume String StoredFile} {mounted : Bool}
    {done : List Entry} (h : Orderly config (start outside partition mounted))
    (hcopying : Copying config (start outside partition mounted) done t) (group : String) :
    Copying config (start outside partition mounted) done (t.mkdirs (backupPlace ++ [group])) where
  sources path hpath := by
    rw [Tree.mkdirs_of_not_above fun hpre => ?_, hcopying.sources path hpath]
    rcases List.prefix_or_prefix_of_prefix hpre (List.prefix_append backupPlace [group]) with
      habove | hbelow
    · exact hpath.1 habove
    · exact hpath.2 hbelow
  copied x hx hfound := by
    rw [← hcopying.copied x hx hfound]
    funext rest
    rw [Tree.subtree_apply, Tree.subtree_apply]
    by_cases habove : backupPlace ++ place x ++ rest <+: backupPlace ++ [group]
    · obtain ⟨rfl, hnameless⟩ := nameless_of_above habove
      have hdirectory : outside.tree (sourcePlace config x) = some .directory := by
        by_contra hfile
        exact (h.files x hfound hfile).1 hnameless
      have hroot := congrFun (hcopying.copied x hx hfound) []
      simp only [Tree.subtree_apply, List.append_nil] at hroot habove ⊢
      rw [Tree.mkdirs_of_above habove, hroot]
      exact hdirectory.symm
    · rw [Tree.mkdirs_of_not_above habove]
  untouched x hx := by
    refine (hcopying.untouched x hx).imp_right fun huntouched rest => ?_
    by_cases habove : backupPlace ++ place x ++ rest <+: backupPlace ++ [group]
    · exact .inr ⟨Tree.mkdirs_of_above habove, nameless_of_above habove⟩
    · rw [Tree.mkdirs_of_not_above habove]
      exact huntouched rest

/-! ## Running the copies -/

section Runs

variable {outside partition : Volume String StoredFile} {mounted : Bool} {done : List Entry}

/-- The partition is mounted, and so much is copied. -/
structure Backing (config : InstallerConfig) (outside partition : Volume String StoredFile)
    (mounted : Bool) (done : List Entry) (s : BackupState) : Prop where
  isMounted : s.mounted = true
  copying : Copying config (start outside partition mounted) done s.view

def targetWord (x : Entry) : String := s!"{backupMount}/{x.1}/{x.2.name}"

theorem group_cases : ∀ group ∈ groups config,
    (∃ category : BackupCategory, group.1 = category.value) ∨ group.1 = customItemsDirectory := by
  have hcategories : ∀ group ∈ config.sync.backupCategories.map fun category =>
      (category.value, backupItems category),
      ∃ category : BackupCategory, group.1 = category.value := by
    intro group hgroup
    obtain ⟨category, -, rfl⟩ := List.mem_map.mp hgroup
    exact ⟨category, rfl⟩
  intro group hgroup
  simp only [groups] at hgroup
  split at hgroup
  · exact .inl (hcategories group hgroup)
  · rcases List.mem_append.mp hgroup with hgroup | hgroup
    · exact .inl (hcategories group hgroup)
    · obtain rfl := List.mem_singleton.mp hgroup
      exact .inr rfl

theorem plain_groups : ∀ group ∈ groups config, wordPlace group.1 = some [group.1] := by
  intro group hgroup
  rcases group_cases group hgroup with ⟨category, hcategory⟩ | hcustom
  · rw [hcategory]
    cases category <;> decide
  · rw [hcustom]
    decide

theorem plain_group {x : Entry} (hx : x ∈ entries config) : wordPlace x.1 = some [x.1] := by
  obtain ⟨group, hgroup, hx⟩ := List.mem_flatMap.mp hx
  obtain ⟨item, -, rfl⟩ := List.mem_map.mp hx
  exact plain_groups group hgroup

theorem wordPlace_backupMount : wordPlace backupMount = some backupPlace := by decide

theorem Orderly.targetWord (h : Orderly config s) {x : Entry} (hx : x ∈ entries config) :
    wordPlace (targetWord x) = some (backupPlace ++ place x) := by
  have hgroup := wordPlace_slash wordPlace_backupMount (plain_group hx)
  have htarget := wordPlace_slash hgroup (h.plain x hx).2
  rw [List.append_assoc] at htarget
  exact htarget

theorem returns_copyItem (h : Orderly config (start outside partition mounted)) {x : Entry}
    (hx : x ∈ entries config) (hs : Backing config outside partition mounted done s) :
    Returns backupWorld s (copyItem (sourceWord config x) (targetWord x)) fun _ copied s' =>
      Backing config outside partition mounted (done ++ [x]) s' ∧
        copied = isFound outside.tree (sourceWord config x) := by
  have hsource := (h.plain x hx).1
  have htarget := h.targetWord hx
  have hview : ∀ {s}, Backing config outside partition mounted done s →
      s.view (sourcePlace config x) = outside.tree (sourcePlace config x) := by
    intro s hs
    have hroot := h.source_eq hs.copying hx []
    rw [List.append_nil] at hroot
    exact hroot
  refine (returns_probe (Q := fun _ exists' mid => mid.mounted = true ∧ mid.view = s.view ∧
    exists' = isFound outside.tree (sourceWord config x)) fun result mid hstep => ?_).bind
    fun _ exists' mid hmid => ?_
  · obtain ⟨hmounted, -, -, hsame, hfinds⟩ := hstep
    refine ⟨hmounted.trans hs.isMounted, hsame, ?_⟩
    have hroot : s.view (pathComponents (sourceWord config x)) =
      outside.tree (pathComponents (sourceWord config x)) := hview hs
    rw [Bool.eq_iff_iff, isFound_iff, hfinds _ hsource]
    simp only [Finds, hroot]
  obtain ⟨hmounted, hsame, rfl⟩ := hmid
  have hmid : Backing config outside partition mounted done mid := ⟨hmounted, hsame ▸ hs.copying⟩
  cases hexists : isFound outside.tree (sourceWord config x) with
  | false => exact returns_ret ⟨⟨hmid.isMounted, hmid.copying.skip (by simp [found, start, hexists])⟩, rfl⟩
  | true =>
    have hfound : x ∈ found config (start outside partition mounted) :=
      List.mem_filter.mpr ⟨hx, hexists⟩
    simp only [if_true]
    refine (returns_probe (Q := fun _ isDirectory mid' => mid'.mounted = true ∧
      mid'.view = mid.view ∧ (isDirectory ↔ outside.tree (sourcePlace config x) = some .directory))
      fun result mid' hstep => ?_).bind fun _ isDirectory mid' hmid' => ?_
    · obtain ⟨hmounted', -, -, hsame', hfinds⟩ := hstep
      refine ⟨hmounted'.trans hmounted, hsame', ?_⟩
      rw [hfinds _ hsource, ← hview hmid]
      rfl
    obtain ⟨hmounted', hsame', hkind⟩ := hmid'
    have hmid' : Backing config outside partition mounted done mid' :=
      ⟨hmounted', hsame' ▸ hmid.copying⟩
    cases isDirectory with
    | false =>
      have hfile : outside.tree (sourcePlace config x) ≠ some .directory := by simpa using hkind
      refine (returns_run_unit (Q := fun _ _ s' =>
        Backing config outside partition mounted (done ++ [x]) s') fun result s' hstep hok => ?_).bind
        fun _ _ s' hs' => returns_ret ⟨hs', rfl⟩
      obtain ⟨hkept, -, -, hcopied⟩ := hstep
      exact ⟨hkept.trans hmid'.isMounted, hmid'.copying.copyFile h hfound hfile
        ((hcopied hok).whole _ _ hsource htarget)⟩
    | true =>
      have hdirectory : outside.tree (sourcePlace config x) = some .directory := hkind.mp rfl
      refine (returns_run_unit (Q := fun _ _ made => made.mounted = true ∧
        made.view = mid'.view.mkdirs (backupPlace ++ place x)) fun result made hstep hok => ?_).bind
        fun _ _ made hmade => ?_
      · obtain ⟨hkept, -, -, heffect⟩ := hstep
        exact ⟨hkept.trans hmid'.isMounted, (heffect hok _ htarget).2⟩
      refine (returns_run_unit (Q := fun _ _ s' =>
        Backing config outside partition mounted (done ++ [x]) s') fun result s' hstep hok => ?_).bind
        fun _ _ s' hs' => returns_ret ⟨hs', rfl⟩
      obtain ⟨hkept, -, -, hmirrored⟩ := hstep
      have hapart := apart_target h hfound
      exact ⟨hkept.trans hmade.1, hmid'.copying.copyDirectory h hfound hdirectory hmade.2
        (hmirrored hok _ _ hsource htarget hapart.1 hapart.2)⟩

theorem returns_copyGroup (h : Orderly config (start outside partition mounted)) {group : String}
    {items : List BackupItemConfig} (hitems : ∀ item ∈ items, (group, item) ∈ entries config)
    (hs : Backing config outside partition mounted done s) :
    Returns backupWorld s (copyGroup config group items) fun _ names s' =>
      Backing config outside partition mounted (done ++ items.map (group, ·)) s' ∧
        names = ((items.map (group, ·)).filter fun x =>
          isFound outside.tree (sourceWord config x)).map fun x => s!"{x.1}/{x.2.name}" := by
  induction items generalizing done s with
  | nil => exact returns_ret ⟨by simpa using hs, rfl⟩
  | cons item items ih =>
    rw [List.forall_mem_cons] at hitems
    refine (returns_copyItem h hitems.1 hs).bind fun _ copied mid hmid => ?_
    refine (Returns.onlyIf (Q := fun _ _ s' => s' = mid) (fun _ => returns_log.mpr (returns_ret rfl))
      fun _ => rfl).bind fun _ _ s' hs' => ?_
    subst hs'
    refine (ih hitems.2 hmid.1).bind fun _ names s'' hs'' => ?_
    refine returns_ret ⟨by simpa using hs''.1, ?_⟩
    rw [hmid.2, hs''.2, List.map_cons, List.filter_cons]
    split <;> rfl

theorem returns_copyGroups (h : Orderly config (start outside partition mounted))
    {groups : List (String × List BackupItemConfig)}
    (hgroups : ∀ x ∈ entriesOf groups, x ∈ entries config)
    (hplain : ∀ group ∈ groups, wordPlace group.1 = some [group.1])
    (hs : Backing config outside partition mounted done s) :
    Returns backupWorld s (copyGroups config groups) fun _ names s' =>
      Backing config outside partition mounted (done ++ entriesOf groups) s' ∧
        names = ((entriesOf groups).filter fun x =>
          isFound outside.tree (sourceWord config x)).map fun x => s!"{x.1}/{x.2.name}" := by
  induction groups generalizing done s with
  | nil => exact returns_ret ⟨by simpa [entriesOf] using hs, rfl⟩
  | cons group groups ih =>
    obtain ⟨group, items⟩ := group
    simp only [entriesOf, List.flatMap_cons, List.mem_append] at hgroups ⊢
    rw [List.forall_mem_cons] at hplain
    refine (returns_run_unit (Q := fun _ _ made => Backing config outside partition mounted done made)
      fun result made hstep hok => ?_).bind fun _ _ made hmade => ?_
    · obtain ⟨hkept, -, -, heffect⟩ := hstep
      have hdirectory := (heffect hok _ (wordPlace_slash wordPlace_backupMount hplain.1)).2
      exact ⟨hkept.trans hs.isMounted, hdirectory ▸ hs.copying.mkdirGroup h group⟩
    refine (returns_copyGroup h (fun item hitem => hgroups _ (.inl (List.mem_map_of_mem hitem)))
      hmade).bind fun _ copied mid hmid => ?_
    refine (ih (fun x hx => hgroups x (.inr hx)) hplain.2 hmid.1).bind fun _ others s' hs' => ?_
    refine returns_ret ⟨by simpa [entriesOf] using hs'.1, ?_⟩
    rw [hmid.2, hs'.2, List.filter_append, List.map_append, entriesOf]

/-- What is written beside the groups. -/
theorem Copying.write {name : String} {rest : List String} (hname : ∀ x ∈ entries config, x.1 ≠ name)
    (hcopying : Copying config s done t) (hwritten : Written t t' (backupPlace ++ name :: rest)) :
    Copying config s done t' := by
  have hothers : ∀ x ∈ entries config, ∀ rest',
      t' (backupPlace ++ place x ++ rest') = t (backupPlace ++ place x ++ rest') := by
    intro x hx rest'
    refine hwritten.others _ fun heq => hname x hx ?_
    rw [List.append_assoc, List.append_cancel_left_eq, place, List.cons_append,
      List.cons.injEq] at heq
    exact heq.1
  refine ⟨fun path hpath => ?_, fun x hx hfound => ?_, fun x hx => ?_⟩
  · rw [hwritten.others path fun heq => hpath.2 (heq ▸ List.prefix_append _ _),
      hcopying.sources path hpath]
  · rw [← hcopying.copied x hx hfound]
    funext rest'
    exact hothers x (List.mem_of_mem_filter hfound) rest'
  · refine (hcopying.untouched x hx).imp_right fun huntouched rest' => ?_
    rw [hothers x (List.mem_of_mem_filter hx) rest']
    exact huntouched rest'

/-- The groups leave the other names at the top of the partition alone. -/
theorem group_ne {x : Entry} (hx : x ∈ entries config) :
    x.1 ≠ "config" ∧ x.1 ≠ "manifest.yaml" := by
  obtain ⟨group, hgroup, hx⟩ := List.mem_flatMap.mp hx
  obtain ⟨item, -, rfl⟩ := List.mem_map.mp hx
  rcases group_cases group hgroup with ⟨category, hcategory⟩ | hcustom
  · simp only [hcategory]
    cases category <;> decide
  · simp only [hcustom]
    decide

theorem eq_of_view_eq {s s' : BackupState} (h : s'.mounted = s.mounted ∧
    (s.mounted = false → s'.partition = s.partition) ∧
    (s.mounted = true → ∀ path, backupPlace <+: path → s'.outside path = s.outside path) ∧
    s'.view = s.view) : s' = s := by
  obtain ⟨outside, partition, mounted⟩ := s
  obtain ⟨outside', partition', mounted'⟩ := s'
  obtain ⟨rfl, hpartition, houtside, hview⟩ := h
  cases mounted' with
  | false => rw [show outside' = outside from hview, show partition' = partition from hpartition rfl]
  | true =>
    have hpartition' : partition' = partition := by
      funext path
      simpa [BackupState.view] using congrFun hview (backupPlace ++ path)
    have houtside' : outside' = outside := by
      funext path
      by_cases hpath : backupPlace <+: path
      · exact houtside rfl path hpath
      · simpa [BackupState.view, Tree.mount_of_not_below hpath] using congrFun hview path
    rw [hpartition', houtside']

/-- A call that changes nothing. -/
def LeavesFiles (invocation : Invocation) : Prop :=
  ∀ s ok s', BackupEffect s ok s' invocation.command → s' = s

theorem returns_leaving {α : Type} {p : Script α} (h : Issues LeavesFiles p) :
    Returns backupWorld s p fun _ _ s' => s' = s :=
  fun _ _ _ hrun hreplay => h.preserves (P := (· = s))
    (fun _ _ _ _ hgood hmid hstep => (hgood _ _ _ hstep).trans hmid) allAllowed_true hrun hreplay rfl

theorem leavesFiles_test {flag : TestFlag} {word : String} :
    LeavesFiles (unchecked (.test flag word)) :=
  fun _ _ _ hstep => eq_of_view_eq ⟨hstep.1, hstep.2.1, hstep.2.2.1, hstep.2.2.2.1⟩

theorem leavesFiles_date : LeavesFiles (unchecked .date) := fun _ _ _ hstep => eq_of_view_eq hstep

theorem leavesFiles_hostname : LeavesFiles (unchecked .hostname) :=
  fun _ _ _ hstep => eq_of_view_eq hstep

theorem leavesFiles_pacman : LeavesFiles (unchecked .pacmanExplicit) :=
  fun _ _ _ hstep => eq_of_view_eq hstep

theorem returns_writeBeside {name content : String} (rest : List String)
    (hname : ∀ x ∈ entries config, x.1 ≠ name) {word : String}
    (hword : wordPlace word = some (backupPlace ++ name :: rest))
    (hs : Backing config outside partition mounted done s) :
    Returns backupWorld s (writeFile word content) fun exchanges _ s' =>
      (∃ answer, (⟨.writeFile word, true, some content⟩, answer) ∈ exchanges) ∧
        Backing config outside partition mounted done s' := by
  refine returns_writeFile fun result s' hstep hok => ⟨⟨result, by simp⟩, ?_⟩
  obtain ⟨hkept, -, -, hwritten⟩ := hstep
  exact ⟨hkept.trans hs.isMounted, hs.copying.write hname (hwritten hok _ hword)⟩

theorem returns_writeConfigExports (h : Orderly config (start outside partition mounted))
    {packageNames : List String} (hs : Backing config outside partition mounted done s) :
    Returns backupWorld s (writeConfigExports safeDump config packageNames) fun _ _ s' =>
      Backing config outside partition mounted done s' := by
  have hname : ∀ x ∈ entries config, x.1 ≠ "config" := fun x hx => (group_ne hx).1
  refine (returns_run_unit (Q := fun _ _ made => Backing config outside partition mounted done made)
    fun result made hstep hok => ?_).bind fun _ _ made hmade => ?_
  · obtain ⟨hkept, -, -, heffect⟩ := hstep
    have hdirectory := (heffect hok (backupPlace ++ ["config"]) (by decide)).2
    exact ⟨hkept.trans hs.isMounted, hdirectory ▸ hs.copying.mkdirGroup h "config"⟩
  refine (returns_writeBeside ["package_catalog.yaml"] hname (by decide)
    hmade).bind fun _ _ mid hmid => ?_
  exact (returns_writeBeside ["config.yaml"] hname (by decide) hmid.2).mono
    fun _ _ _ hs' => hs'.2

theorem Reports.mono {exchanges exchanges' : Exchanges} (h : Reports safeDump config s exchanges)
    (hsubset : exchanges ⊆ exchanges') : Reports safeDump config s exchanges' := by
  obtain ⟨manifest, answer, hmem, hitems⟩ := h
  exact ⟨manifest, answer, hsubset hmem, hitems⟩

theorem Reports.after {first second : Exchanges} (h : Reports safeDump config s second) :
    Reports safeDump config s (first ++ second) :=
  h.mono (List.subset_append_right _ _)

theorem returns_backUp (h : Orderly config (start outside partition mounted))
    (hs : Backing config outside partition mounted [] s) :
    Returns backupWorld s (backUp safeDump config) fun exchanges _ s' =>
      Reports safeDump config (start outside partition mounted) exchanges ∧
        Backing config outside partition mounted (entries config) s' := by
  refine (returns_copyGroups h (fun _ hx => hx) plain_groups hs).bind fun first names s₁ h₁ => ?_
  rw [List.nil_append] at h₁
  have hpackages : Issues LeavesFiles explicitlyInstalledPackages := by
    simp [explicitlyInstalledPackages, leavesFiles_pacman]
  refine (returns_leaving hpackages).bind fun second packageNames s₂ h₂ => ?_
  subst h₂
  refine (returns_writeConfigExports h h₁.1).bind fun third _ s₃ h₃ => ?_
  refine (returns_leaving (p := commandOutput .date)
    (by simp [commandOutput, leavesFiles_date])).bind fun fourth timestamp s₄ h₄ => ?_
  refine (returns_leaving (p := commandOutput .hostname)
    (by simp [commandOutput, leavesFiles_hostname])).bind fun fifth hostname s₅ h₅ => ?_
  subst h₄ h₅
  refine (returns_writeBeside [] (fun x hx => (group_ne hx).2) (by decide) h₃).bind
    fun sixth _ s₆ h₆ => returns_ret ⟨?_, h₆.2⟩
  obtain ⟨answer, hwritten⟩ := h₆.1
  exact .after (.after (.after (.after (.after ⟨_, answer, by simpa using hwritten, h₁.2⟩))))

/-- Before anything is copied. -/
theorem Backing.mounted_at_start (hmounted : s.mounted = true)
    (hoff : ∀ path, Apart path backupPlace → s.view path = outside.tree path)
    (hon : ∀ name rest, s.view (backupPlace ++ name :: rest) = partition.tree (name :: rest)) :
    Backing config outside partition mounted [] s where
  isMounted := hmounted
  copying := by
    refine ⟨hoff, by simp, fun x _ => .inr fun rest => .inl ?_⟩
    rw [List.append_assoc, place, List.cons_append]
    exact hon x.1 _

/-- The first part of `backUpTo`. -/
def mountPartition (device : String) : Script Unit := do
  run_ (.mkdir backupMount)
  let isMounted ← isMountpoint backupMount
  Program.onlyIf (!isMounted) (run_ (.mount device backupMount))

theorem returns_mountPartition (config : InstallerConfig) {device : String} :
    Returns backupWorld (start outside partition mounted) (mountPartition device)
      fun _ _ s' => Backing config outside partition mounted [] s' := by
  have hbelow : ∀ (name : String) (rest : List String),
      ¬ backupPlace ++ name :: rest <+: backupPlace := by
    intro name rest hpre
    have hlength := hpre.length_le
    simp only [List.length_append, List.length_cons] at hlength
    omega
  refine (returns_run_unit (Q := fun _ _ made => made.mounted = mounted ∧
    (mounted = false → made.partition = partition.tree) ∧
    made.view = (start outside partition mounted).view.mkdirs backupPlace)
    fun result made hstep hok => ?_).bind fun _ _ made hmade => ?_
  · obtain ⟨hkept, hpartition, -, heffect⟩ := hstep
    exact ⟨hkept, hpartition, (heffect hok _ wordPlace_backupMount).2⟩
  obtain ⟨hmounted, hpartition, hview⟩ := hmade
  refine (returns_probe (Q := fun _ isMounted mid => mid = made ∧ isMounted = mounted)
    fun result mid hstep => ⟨hstep.1, ?_⟩).bind fun _ isMounted mid hmid => ?_
  · rw [hstep.2 wordPlace_backupMount, hmounted]
  obtain ⟨rfl, rfl⟩ := hmid
  cases isMounted with
  | true =>
    refine returns_ret (.mounted_at_start hmounted (fun path hpath => ?_) fun name rest => ?_)
    · rw [hview, Tree.mkdirs_of_not_above hpath.1, BackupState.view_outside hpath.2]
      rfl
    · rw [hview, Tree.mkdirs_of_not_above (hbelow name rest), BackupState.view_partition rfl]
      rfl
  | false =>
    have houtside : mid.outside = outside.tree.mkdirs backupPlace := by
      rw [BackupState.view, hmounted] at hview
      exact hview
    refine returns_run_unit fun result s' hstep hok => ?_
    have hs' : s' = { mid with mounted := true } := by
      simpa [hok] using hstep wordPlace_backupMount
    subst hs'
    refine .mounted_at_start rfl (fun path hpath => ?_) fun name rest => ?_
    · rw [BackupState.view_outside hpath.2]
      simp only [houtside, Tree.mkdirs_of_not_above hpath.1]
    · rw [BackupState.view_partition rfl]
      simp only [hpartition rfl]

/-- What is mounted and complete is on the partition. -/
theorem Backing.contents (hs : Backing config outside partition mounted (entries config) s) :
    ∀ x ∈ found config (start outside partition mounted),
      s.partition.subtree (place x) = outside.tree.subtree (sourcePlace config x) := by
  intro x hx
  refine Eq.trans ?_ (hs.copying.copied x (List.mem_of_mem_filter hx) hx)
  funext rest
  rw [Tree.subtree_apply, Tree.subtree_apply, List.append_assoc,
    BackupState.view_partition hs.isMounted]

theorem returns_backUpTo (h : Orderly config (start outside partition mounted)) {device : String} :
    Returns backupWorld (start outside partition mounted) (backUpTo safeDump config device)
      fun exchanges _ s' => HoldsWhatItReports safeDump config (start outside partition mounted)
        exchanges s' := by
  have hparts : backUpTo safeDump config device = (do
      let names := join ", " (config.sync.backupCategories.map (·.value))
      info s!"Backing up {names} to {device}..."
      mountPartition device
      let backedUp ← Program.tryFinally (backUp safeDump config) (tryRun_ (.umount backupMount))
      info s!"Backup complete: {backedUp.1.length} items, {backedUp.2.length} packages") := by
    simp only [backUpTo, mountPartition, bind_assoc]
  rw [hparts]
  refine Returns.bind (Q := fun _ _ mid => mid = start outside partition mounted)
    (returns_log.mpr (returns_ret rfl)) fun _ _ mid hmid => ?_
  subst hmid
  refine (returns_mountPartition config).bind fun first _ s₁ h₁ => ?_
  refine Returns.bind (Q := fun exchanges _ s' => Reports safeDump config
    (start outside partition mounted) exchanges ∧ ∀ x ∈ found config (start outside partition mounted),
      s'.partition.subtree (place x) = outside.tree.subtree (sourcePlace config x))
    ((returns_backUp h h₁).tryFinally fun second _ mid hmid => returns_tryRun_unit
      fun result s' hstep => ⟨?_, ?_⟩) fun second _ s₂ h₂ => returns_log.mpr (returns_ret ?_)
  · exact hmid.1.mono (List.subset_append_left _ _)
  · rw [hstep.2]
    exact hmid.2.contents
  · exact ⟨.after (.after (h₂.1.mono (List.subset_append_left _ _))), h₂.2⟩

end Runs

def notesConfig : InstallerConfig :=
  { sampleConfig with
    sync := {
      backupPartition := "/dev/sdc1"
      backupItems := [⟨"notes", "/root/notes", "Notes"⟩]
      backupCategories := [] } }

/-- The notes are a file. -/
def nowAFile : Volume String StoredFile :=
  .ofEntries
    [([], .directory), (["dev"], .directory), (["dev", "sdc1"], .file ⟨[], 0⟩), (["mnt"], .directory),
      (["mnt", "usb-backup"], .directory), (["root"], .directory),
      (["root", "notes"], .file ⟨[1], 2⟩)]
    (by decide)

def notes : Entry := (customItemsDirectory, ⟨"notes", "/root/notes", "Notes"⟩)

/-- They were a file before. -/
def alwaysAFile : Volume String StoredFile :=
  .ofEntries
    [([], .directory), (["custom"], .directory), (["custom", "notes"], .file ⟨[2], 1⟩)]
    (by decide)

theorem entries_notes : entries notesConfig = [notes] := rfl

theorem orderly_notes : Orderly notesConfig (start nowAFile alwaysAFile false) where
  plain x hx := by
    obtain rfl : x = notes := by simpa [entries_notes] using hx
    unfold IsPlain
    exact ⟨by decide, by decide⟩
  outside x hx := by
    obtain rfl : x = notes := by simpa [entries_notes] using hx
    exact ⟨by decide, by decide⟩
  separate x hx y hy := by
    obtain rfl : x = notes := by simpa [entries_notes] using List.mem_of_mem_filter hx
    obtain rfl : y = notes := by simpa [entries_notes] using List.mem_of_mem_filter hy
    exact .inl ⟨rfl, rfl⟩
  files x hx _ := by
    obtain rfl : x = notes := by simpa [entries_notes] using List.mem_of_mem_filter hx
    exact ⟨by decide, by decide⟩
  deceived x hx _ _ _ hdirectory := by
    obtain rfl : x = notes := by simpa [entries_notes] using List.mem_of_mem_filter hx
    exact absurd hdirectory (by decide)

/-- The state whose files are these. -/
def withView (s : BackupState) (t : Tree String StoredFile) : BackupState where
  outside path := if backupPlace <+: path then s.outside path else t path
  partition := t.subtree backupPlace
  mounted := true

@[simp] theorem view_withView : (withView s t).view = t := by
  have hmounted : (withView s t).view =
      (withView s t).outside.mount (withView s t).partition backupPlace := if_pos rfl
  rw [hmounted]
  funext path
  by_cases hpath : backupPlace <+: path
  · obtain ⟨rest, rfl⟩ := hpath
    rw [Tree.mount_append]
    rfl
  · rw [Tree.mount_of_not_below hpath]
    exact if_neg hpath

theorem reaches_withView {command : Command} (hmounted : s.mounted = true)
    (heffect : ViewEffect s.view true t' command)
    (hcommand : ∀ ok s', (s'.mounted = s.mounted ∧
      (s.mounted = false → s'.partition = s.partition) ∧
      (s.mounted = true → ∀ path, backupPlace <+: path → s'.outside path = s.outside path) ∧
      ViewEffect s.view ok s'.view command) → BackupEffect s ok s' command) :
    Reaches backupWorld s (run_ command) fun _ s' => s'.mounted = true ∧ s'.view = t' := by
  refine reaches_run_unit ⟨0, "", ""⟩ (hcommand true (withView s t') ⟨hmounted.symm, ?_, ?_, ?_⟩) rfl
    ⟨rfl, view_withView⟩
  · simp [hmounted]
  · exact fun _ path hpath => if_pos hpath
  · rw [view_withView]
    exact heffect

/-- The directory that was there is still there, and so are those on the way to what is still to
be written. -/
structure StillNested (s : BackupState) : Prop where
  mounted : s.mounted = true
  directories : ∀ path ∈ [[], ["mnt"], backupPlace, backupPlace ++ ["custom", "notes"]],
    s.view path = some .directory
  free : s.view (backupPlace ++ ["config"]) = none ∨
    s.view (backupPlace ++ ["config"]) = some .directory

theorem StillNested.reaches_mkdir (hs : StillNested s) :
    Reaches backupWorld s (run_ (.mkdir s!"{backupMount}/config")) fun _ s' => StillNested s' := by
  have hword : wordPlace s!"{backupMount}/config" = some (backupPlace ++ ["config"]) := by
    decide
  have hmake : s.view.CanMake (backupPlace ++ ["config"]) := by
    intro path hpath
    have hmem : path ∈ [[], ["mnt"], backupPlace, backupPlace ++ ["config"]] :=
      (List.mem_inits path (backupPlace ++ ["config"])).mpr hpath
    simp only [List.mem_cons, List.not_mem_nil, or_false] at hmem
    rcases hmem with rfl | rfl | rfl | rfl
    · exact .inr (hs.directories _ (by simp))
    · exact .inr (hs.directories _ (by simp))
    · exact .inr (hs.directories _ (by simp))
    · exact hs.free
  have heffect : ViewEffect s.view true (s.view.mkdirs (backupPlace ++ ["config"]))
      (.mkdir s!"{backupMount}/config") := by
    intro _ place hplace
    rw [hword, Option.some.injEq] at hplace
    exact hplace ▸ ⟨hmake, rfl⟩
  refine (reaches_withView hs.mounted heffect fun _ _ h => h).mono fun _ s' hs' => ⟨hs'.1, ?_, ?_⟩
  · rw [hs'.2]
    exact fun path hpath => Tree.mkdirs_directory (hs.directories path hpath)
  · rw [hs'.2]
    exact .inr (Tree.mkdirs_of_above (List.prefix_refl _))

/-- A file is written at the top of the partition, or below the directory of the configuration. -/
theorem StillNested.reaches_writeFile {word content : String} (hs : StillNested s)
    (place : List String) (hword : wordPlace word = some place)
    (hplace : place ∉ [[], ["mnt"], backupPlace, backupPlace ++ ["custom", "notes"],
      backupPlace ++ ["config"]]) :
    Reaches backupWorld s (writeFile word content) fun _ s' => StillNested s' := by
  let written : Tree String StoredFile := fun path =>
    if path = place then some (.file ⟨[], 0⟩) else s.view path
  have hother : ∀ path, path ≠ place → written path = s.view path := fun path hpath => if_neg hpath
  have heffect : ViewEffect s.view true written (.writeFile word) := by
    intro _ place' hplace'
    obtain rfl : place = place' := by simpa [hword] using hplace'
    exact ⟨⟨_, if_pos rfl⟩, hother⟩
  have hstep : backupWorld s ⟨.writeFile word, true, some content⟩ ⟨0, "", ""⟩
      (withView s written) := by
    refine ⟨hs.mounted.symm, by simp [hs.mounted], fun _ path hpath => if_pos hpath, ?_⟩
    rw [view_withView]
    exact heffect
  have hnested : StillNested (withView s written) := by
    refine ⟨rfl, fun path hpath => ?_, ?_⟩
    · rw [view_withView, hother path (fun heq => hplace ?_), hs.directories path hpath]
      simp only [List.mem_cons, List.not_mem_nil, or_false] at hpath ⊢
      grind
    · rw [view_withView, hother _ fun heq => hplace (by simp [← heq])]
      exact hs.free
  have hinvoke : Reaches backupWorld s (runWithInput (.writeFile word) content)
      fun _ s' => StillNested s' := reaches_invoke _ hstep (fun _ => rfl) hnested
  exact hinvoke.bind fun _ _ h => reaches_ret h

theorem reaches_test {flag : TestFlag} {word : String} {place : List String}
    (hword : wordPlace word = some place) :
    Reaches backupWorld s (probe (.test flag word)) fun answer s' => s' = s ∧
      (answer ↔ Finds s.view word place flag) := by
  have hstep : ∀ result : CommandExecutionResult,
      (result.success ↔ Finds s.view word place flag) →
        backupWorld s (unchecked (.test flag word)) result s := by
    refine fun result h => ⟨rfl, fun _ => rfl, fun _ _ _ => rfl, rfl, fun place' hplace' => ?_⟩
    obtain rfl : place = place' := by simpa [hword] using hplace'
    exact h
  by_cases hfinds : Finds s.view word place flag
  · have hyes := hstep ⟨0, "", ""⟩ (iff_of_true rfl hfinds)
    exact reaches_probe _ hyes ⟨rfl, iff_of_true rfl hfinds⟩
  · have hno := hstep ⟨1, "", ""⟩ (iff_of_false (by decide) hfinds)
    exact reaches_probe _ hno ⟨rfl, iff_of_false (by decide) hfinds⟩

/-- Directories that are there need not be made. -/
theorem reaches_mkdir_made {word : String} {place : List String}
    (hword : wordPlace word = some place)
    (hmade : ∀ path, path <+: place → s.view path = some .directory) :
    Reaches backupWorld s (run_ (.mkdir word)) fun _ s' => s' = s := by
  have hstep : backupWorld s (checked (.mkdir word)) ⟨0, "", ""⟩ s := by
    refine ⟨rfl, fun _ => rfl, fun _ _ _ => rfl, fun _ place' hplace' => ?_⟩
    obtain rfl : place = place' := by simpa [hword] using hplace'
    exact ⟨fun path hpath => .inr (hmade path hpath), (Tree.mkdirs_eq_self hmade).symm⟩
  exact reaches_run_unit _ hstep rfl rfl

/-- They were a directory when they were backed up before. -/
def onceADirectory : Volume String StoredFile :=
  .ofEntries
    [([], .directory), (["custom"], .directory), (["custom", "notes"], .directory)]
    (by decide)

def notesBackup : BackupState := start nowAFile onceADirectory true

theorem view_notes (path : List String) :
    notesBackup.view (backupPlace ++ path) = onceADirectory.tree path :=
  BackupState.view_partition rfl path

theorem view_notesSource (rest : List String) :
    notesBackup.view (["root", "notes"] ++ rest) = nowAFile.tree (["root", "notes"] ++ rest) :=
  BackupState.view_outside (not_prefix_append (by decide) (by decide) rest)

/-- The file is copied into the directory. -/
def nestedNotes : Tree String StoredFile :=
  notesBackup.view.graft (notesBackup.view.subtree ["root", "notes"])
    (backupPlace ++ ["custom", "notes", "notes"])

theorem copied_notes :
    Copied notesBackup.view nestedNotes "/root/notes" (targetWord notes) where
  whole source target hsource htarget := by
    have hsource' : wordPlace "/root/notes" = some ["root", "notes"] := by decide
    have htarget' : wordPlace (targetWord notes) = some (backupPlace ++ ["custom", "notes"]) := by
      decide
    obtain rfl : ["root", "notes"] = source := by simpa [hsource'] using hsource
    obtain rfl : backupPlace ++ ["custom", "notes"] = target := by simpa [htarget'] using htarget
    have hdirectory : notesBackup.view (backupPlace ++ ["custom", "notes"]) = some .directory := by
      rw [view_notes]
      decide
    have hinto : copyTarget notesBackup.view ["root", "notes"] (backupPlace ++ ["custom", "notes"]) =
        backupPlace ++ ["custom", "notes", "notes"] := by
      rw [copyTarget, hdirectory]
      rfl
    have hfree : ∀ rest, notesBackup.view (backupPlace ++ ["custom", "notes", "notes"] ++ rest) =
        none := by
      intro rest
      have hnone : onceADirectory.tree ["custom", "notes", "notes"] = none := by decide
      rw [List.append_assoc, view_notes]
      cases rest with
      | nil => exact hnone
      | cons name rest => exact onceADirectory.none_below (by simp [hnone]) (List.cons_ne_nil _ _)
    rw [hinto]
    refine ⟨?_, ⟨fun parent name hplace => ?_, fun rest node node' _ hnode' => ?_⟩, rfl⟩
    · have hfile : notesBackup.view ["root", "notes"] = some (.file ⟨[1], 2⟩) :=
        (view_notesSource []).trans (by decide)
      simp [hfile]
    · have hparent : backupPlace ++ ["custom", "notes"] ++ ["notes"] = parent ++ [name] := hplace
      obtain ⟨rfl, -⟩ := List.append_inj' hparent rfl
      exact hdirectory
    · rw [hfree rest] at hnode'
      cases hnode'
  contents directory _ _ hword := by
    have hlast := congrArg (·.toList.getLast?) hword
    simp [String.toList_append] at hlast

theorem stillNested_of_view (hmounted : s.mounted = true) (hview : s.view = nestedNotes) :
    StillNested s where
  mounted := hmounted
  directories := by
    rw [hview]
    decide
  free := by
    rw [hview]
    decide

theorem reaches_copyNotes :
    Reaches backupWorld notesBackup (copyItems notesConfig) fun _ s' => StillNested s' := by
  have hgroup : ∀ path, path <+: backupPlace ++ ["custom"] →
      notesBackup.view path = some .directory := by
    have hall : ∀ path ∈ (backupPlace ++ ["custom"]).inits,
        notesBackup.view path = some .directory := by decide
    exact fun path hpath => hall path ((List.mem_inits path _).mpr hpath)
  have hfile : notesBackup.view ["root", "notes"] = some (.file ⟨[1], 2⟩) :=
    (view_notesSource []).trans (by decide)
  have hsource : wordPlace "/root/notes" = some ["root", "notes"] := by decide
  have hcopy : Reaches backupWorld notesBackup (copyItem "/root/notes" (targetWord notes))
      fun _ s' => StillNested s' := by
    refine (reaches_test hsource).bind fun exists' mid hmid => ?_
    obtain ⟨rfl, hexists⟩ := hmid
    obtain rfl : exists' = true := hexists.mpr ⟨by simp [hfile], fun hslash => absurd hslash (by decide)⟩
    refine (reaches_test hsource).bind fun isDirectory mid hmid => ?_
    obtain ⟨rfl, hdirectory⟩ := hmid
    have hkind : ¬ Finds notesBackup.view "/root/notes" ["root", "notes"] .directory := by
      simp [Finds, hfile]
    obtain rfl : isDirectory = false := by simpa [hkind] using hdirectory
    have heffect : ViewEffect notesBackup.view true nestedNotes
      (.cpArchive "/root/notes" (targetWord notes)) := fun _ => copied_notes
    refine (reaches_withView rfl heffect fun _ _ h => h).bind fun _ s' hs' => reaches_ret ?_
    exact stillNested_of_view hs'.1 hs'.2
  have hmkdir : wordPlace s!"{backupMount}/{customItemsDirectory}" =
    some (backupPlace ++ ["custom"]) := by decide
  refine (reaches_mkdir_made hmkdir hgroup).bind fun _ mid hmid => ?_
  subst hmid
  have hgroup : Reaches backupWorld notesBackup
      (copyGroup notesConfig customItemsDirectory notesConfig.sync.backupItems)
        fun _ s' => StillNested s' := by
    refine hcopy.bind fun copied s' hs' => ?_
    have hlogged : Reaches backupWorld s' (Program.onlyIf copied (debug "Backed up notes (Notes)"))
        fun _ s'' => StillNested s'' := .onlyIf (fun _ => reaches_log.mpr (reaches_ret hs')) fun _ => hs'
    exact hlogged.bind fun _ s'' hs'' => reaches_ret hs''
  exact hgroup.bind fun _ s' hs' => reaches_ret hs'

theorem StillNested.reaches_unchecked {command : Command} (hs : StillNested s)
    (hsame : ∀ ok, BackupEffect s ok s command) :
    Reaches backupWorld s (tryRun command) fun result s' => result.success = false ∧
      StillNested s' :=
  reaches_invoke ⟨1, "", ""⟩ (hsame false) (by simp) ⟨rfl, hs⟩

theorem StillNested.reaches_output {command : Command} (hs : StillNested s)
    (hsame : ∀ ok, BackupEffect s ok s command) :
    Reaches backupWorld s (commandOutput command) fun _ s' => StillNested s' :=
  (hs.reaches_unchecked hsame).bind fun _ _ hs' => reaches_ret hs'.2

theorem reaches_packages (hs : StillNested s) :
    Reaches backupWorld s explicitlyInstalledPackages fun _ s' => StillNested s' := by
  have hsame : ∀ ok, BackupEffect s ok s .pacmanExplicit := fun _ =>
    ⟨rfl, fun _ => rfl, fun _ _ _ => rfl, rfl⟩
  refine (hs.reaches_unchecked hsame).bind fun result mid hmid => ?_
  rw [hmid.1]
  exact reaches_log.mpr (reaches_ret hmid.2)

theorem reaches_configExports (hs : StillNested s) {packageNames : List String} :
    Reaches backupWorld s (writeConfigExports (fun _ => "") notesConfig packageNames)
      fun _ s' => StillNested s' := by
  refine hs.reaches_mkdir.bind fun _ mid hmid => ?_
  refine (hmid.reaches_writeFile (backupPlace ++ ["config", "package_catalog.yaml"])
    (by decide) (by decide)).bind fun _ mid' hmid' => ?_
  exact hmid'.reaches_writeFile (backupPlace ++ ["config", "config.yaml"]) (by decide)
    (by decide)

theorem reaches_backUpNotes :
    Reaches backupWorld notesBackup (backUp (fun _ => "") notesConfig) fun _ s' =>
      StillNested s' := by
  have hdate : ∀ s ok, BackupEffect s ok s .date := fun _ _ =>
    ⟨rfl, fun _ => rfl, fun _ _ _ => rfl, rfl⟩
  have hhostname : ∀ s ok, BackupEffect s ok s .hostname := fun _ _ =>
    ⟨rfl, fun _ => rfl, fun _ _ _ => rfl, rfl⟩
  refine reaches_copyNotes.bind fun items s₁ h₁ => ?_
  refine (reaches_packages h₁).bind fun packageNames s₂ h₂ => ?_
  refine (reaches_configExports h₂).bind fun _ s₃ h₃ => ?_
  refine (h₃.reaches_output (hdate _)).bind fun timestamp s₄ h₄ => ?_
  refine (h₄.reaches_output (hhostname _)).bind fun hostname s₅ h₅ => ?_
  exact (h₅.reaches_writeFile (backupPlace ++ ["manifest.yaml"]) (by decide)
    (by decide)).bind fun _ s₆ h₆ => reaches_ret h₆

theorem reaches_notesBackup :
    Reaches backupWorld notesBackup (execute (fun _ => "") notesConfig) fun _ s' =>
      s'.partition ["custom", "notes"] = some .directory := by
  have hmade : ∀ path, path <+: backupPlace → notesBackup.view path = some .directory := by
    have hall : ∀ path ∈ backupPlace.inits, notesBackup.view path = some .directory := by
      decide
    exact fun path hpath => hall path ((List.mem_inits path _).mpr hpath)
  have hmountpoint : Reaches backupWorld notesBackup (isMountpoint backupMount)
      fun answer s' => s' = notesBackup ∧ answer = true := by
    have hstep : backupWorld notesBackup (unchecked (.mountpoint backupMount)) ⟨0, "", ""⟩
      notesBackup := ⟨rfl, fun _ => rfl⟩
    exact reaches_probe _ hstep ⟨rfl, rfl⟩
  have hdevice : wordPlace "/dev/sdc1" = some ["dev", "sdc1"] := by decide
  have hexists : Finds notesBackup.view "/dev/sdc1" ["dev", "sdc1"] .exists := by
    have hfile : notesBackup.view ["dev", "sdc1"] = some (.file ⟨[], 0⟩) := by decide
    exact ⟨by simp [hfile], fun hslash => absurd hslash (by decide)⟩
  unfold execute
  refine (reaches_test hdevice).bind fun exists' mid hmid => ?_
  obtain ⟨rfl, hfound⟩ := hmid
  obtain rfl : exists' = true := hfound.mpr hexists
  refine reaches_log.mpr ?_
  refine (reaches_mkdir_made wordPlace_backupMount hmade).bind fun _ mid hmid => ?_
  subst hmid
  refine hmountpoint.bind fun isMounted mid hmid => ?_
  obtain ⟨rfl, rfl⟩ := hmid
  have hmounted : Reaches backupWorld notesBackup
      (Program.onlyIf (!true) (run_ (.mount notesConfig.sync.backupPartition backupMount)))
        fun _ s' => s' = notesBackup := .onlyIf (by simp) fun _ => rfl
  refine hmounted.bind fun _ mid hmid => ?_
  subst hmid
  refine (reaches_backUpNotes.tryFinally fun _ mid hmid => ?_).bind fun (_, _) s' hs' =>
    reaches_log.mpr (reaches_ret ?_)
  · have hstep : backupWorld mid (unchecked (.umount backupMount)) ⟨0, "", ""⟩ mid := ⟨rfl, rfl⟩
    have hinvoke : Reaches backupWorld mid (tryRun (.umount backupMount))
      fun _ s' => StillNested s' := reaches_invoke _ hstep (by simp) hmid
    exact hinvoke.bind fun _ _ h => reaches_ret h
  · rw [← BackupState.view_partition hs'.mounted]
    exact hs'.directories _ (by simp)

end UsbBackupStepExecutor

end ArchInstaller
