import ArchInstaller.Python.Digits
import ArchInstaller.Verify.DotfilesCommands

/-! # Pulling dotfiles

What `pull_changes` does with the mapped files, one after another. What is at a local path is first
copied to a name next to it. -/

namespace ArchInstaller.DotfilesSync

open Files Interaction PyText Shell

variable {ignored : List String → Bool} {clone : List String} {env : Environment}
  {mapping : String} {s s' : State} {source target : List String}

/-! ## The condition -/

/-- A mapped file that the clone has. -/
structure Stored (env : Environment) (clone : List String) (s : State) (mapping : String)
    (source target : List String) : Prop where
  sourcePlace : absolutePlace (expandedSourcePath env mapping) = some source
  targetPlace : absolutePlace (repositoryFile env mapping) = some (clone ++ target)
  found : Finds s.files.tree (repositoryFile env mapping) (clone ++ target) .exists

/-- Where a path is backed up, at some second. -/
def BackupPlace (path : String) (backup : List String) : Prop :=
  ∃ seconds : Nat, absolutePlace (path ++ ".backup." ++ toString seconds) = some backup

/-- The local paths do not get in each other's way: where one is below another, the clone has the
same at both. A file is not pulled over a directory. -/
structure Restorable (env : Environment) (clone : List String) (s : State) : Prop where
  named : ∀ mapping ∈ fileMappings env, ∃ source target,
    absolutePlace (expandedSourcePath env mapping) = some source ∧
      absolutePlace (repositoryFile env mapping) = some (clone ++ target)
  outside : ∀ mapping ∈ fileMappings env, ∀ source,
    absolutePlace (expandedSourcePath env mapping) = some source →
      ¬ clone <+: source ∧ ¬ source <+: clone
  consistent : ∀ mapping ∈ fileMappings env, ∀ mapping' ∈ fileMappings env,
    ∀ source target way target', Stored env clone s mapping source target →
      Stored env clone s mapping' (source ++ way) target' →
        s.files.tree.subtree (clone ++ target ++ way) = s.files.tree.subtree (clone ++ target')
  readable : ∀ mapping ∈ fileMappings env, ∀ mapping' ∈ fileMappings env,
    ∀ source target way target', Stored env clone s mapping source target →
      Stored env clone s mapping' (source ++ way) target' → way ≠ [] →
        ∀ rest, s.mayRead (source ++ way ++ rest) ∧ s.mayRead (clone ++ target' ++ rest)
  sameKind : ∀ mapping ∈ fileMappings env, ∀ source target,
    Stored env clone s mapping source target → s.files.tree (clone ++ target) ≠ some .directory →
      s.files.tree source ≠ some .directory
  backups : ∀ mapping ∈ fileMappings env, ∀ source target backup,
    Stored env clone s mapping source target →
      BackupPlace (expandedSourcePath env mapping) backup → ¬ backup <+: clone ∧
        ∀ mapping' ∈ fileMappings env, ∀ source' target',
          Stored env clone s mapping' source' target' → ¬ backup <+: source'

/-! ## One mapping -/

theorem returns_checkPermissions_write {word : String} {place : List String}
    (hword : absolutePlace word = some place) (hplace : place ≠ []) :
    Returns (world ignored clone) s (checkPermissions word .write) fun _ writable s' =>
      s' = s ∧ (s.mayWrite place.dropLast → writable) := by
  refine (returns_test hword).bind fun _ existing mid hmid => ?_
  obtain ⟨-, rfl, hexisting⟩ := hmid
  split
  · next hyes =>
    refine returns_succeeds fun answer s' hstep => ?_
    obtain ⟨rfl, hanswer⟩ := hstep
    refine ⟨rfl, fun hwrite => (hanswer _ (absolutePlace_dirname hword)).mpr ⟨?_, hwrite⟩⟩
    have hfound := (hexisting.mp hyes).1
    rw [← List.dropLast_append_getLast hplace] at hfound
    rw [s'.files.closed _ _ hfound]
    exact Option.some_ne_none _
  · exact returns_ret ⟨rfl, fun _ => rfl⟩

theorem absolutePlace_backup {path : String} {place : List String}
    (hpath : absolutePlace path = some place) (seconds : Nat) :
    ∃ parent name, absolutePlace (path ++ ".backup." ++ toString seconds) =
      some (parent ++ [name ++ (".backup." ++ toString seconds)]) ∧
        (parent = place.dropLast ∨ parent = place) := by
  have hslash : '/' ∉ (".backup." ++ toString seconds).toList := by
    rw [String.toList_append, List.mem_append, not_or]
    exact ⟨by decide, not_mem_toString (by decide) seconds⟩
  rw [String.append_assoc]
  exact absolutePlace_append hpath hslash ⟨'b', by simp, by decide⟩

/-- A backup is next to what it is of. -/
theorem returns_backUp {path : String} {place : List String}
    (hpath : absolutePlace path = some place) :
    Returns (world ignored clone) s (backUp path) fun _ _ s' => OnlyFiles s s' ∧
      ∃ name, BackupPlace path (place.dropLast ++ [name]) ∧
        OnlyBelow (place.dropLast ++ [name]) s.files.tree s'.files.tree := by
  refine (returns_ask (Q := fun _ seconds s' => s' = s ∧ ∃ n : Nat, seconds.output = toString n)
    fun answer s' hstep => ⟨hstep.1, hstep.2 rfl⟩).bind fun _ answer mid hmid => ?_
  obtain ⟨rfl, seconds, hseconds⟩ := hmid
  refine returns_must fun _ s' hstep hok => ?_
  obtain ⟨files, rfl, heffect⟩ := hstep
  rw [hseconds] at heffect
  obtain ⟨parent, name, hplace, hparent⟩ := absolutePlace_backup hpath seconds
  obtain ⟨hcopied, hwhole⟩ := heffect place _ hpath hplace
  have hbelow := prefix_copyTarget mid.files.tree place
    (parent ++ [name ++ (".backup." ++ toString seconds)])
  rcases hparent with rfl | rfl
  · exact ⟨rfl, _, ⟨seconds, hplace⟩, fun path hnot =>
      hcopied path fun hpre => hnot (hbelow.trans hpre)⟩
  · exact absurd ((List.prefix_append _ _).trans hbelow) (hwhole hok).1

theorem not_prefix_beside {place own : List String} {name : String} (h : ¬ place <+: own)
    (h' : ¬ own.dropLast ++ [name] <+: place) : ¬ place <+: own.dropLast ++ [name] := by
  intro hpre
  rcases List.prefix_concat_iff.mp hpre with heq | hpre
  · exact h' (heq ▸ List.prefix_refl _)
  · exact h (hpre.trans (List.dropLast_prefix _))

/-- What is at a local path and below it is what the clone has, and next to it there may be a backup
of what was there. -/
structure Restored (path : String) (own copy : List String) (s s' : State) : Prop where
  onlyFiles : OnlyFiles s s'
  elsewhere : ∀ place, ¬ own <+: place →
    (∀ name, BackupPlace path (own.dropLast ++ [name]) → ¬ own.dropLast ++ [name] <+: place) →
      s'.files.tree place = s.files.tree place ∨
        place <+: own ∧ s.files.tree place = none ∧ s'.files.tree place = some .directory
  same : s'.files.tree.subtree own = s.files.tree.subtree copy

theorem returns_restore {path file : String} {own copy : List String}
    (hpath : absolutePlace path = some own) (hfile : absolutePlace file = some copy)
    (hfound : s.files.tree copy ≠ none) (hbelow : ¬ copy <+: own) (habove : ¬ own <+: copy)
    (hbackups : ∀ name, BackupPlace path (own.dropLast ++ [name]) →
      ¬ own.dropLast ++ [name] <+: own ∧ ¬ own.dropLast ++ [name] <+: copy)
    (hkind : s.files.tree copy ≠ some .directory → s.files.tree own ≠ some .directory) :
    Returns (world ignored clone) s (restore file path)
      fun _ _ s' => Restored path own copy s s' := by
  have hown : own ≠ [] := fun hnil => habove (hnil ▸ List.nil_prefix)
  refine (returns_must (Q := fun _ _ s' => OnlyFiles s s' ∧
    MadeAlong own.dropLast s.files.tree s'.files.tree) fun answer s' hstep _ => ?_).bind
      fun _ _ made hmade => ?_
  · obtain ⟨files, rfl, heffect⟩ := hstep
    exact ⟨rfl, (heffect _ (absolutePlace_dirname hpath)).1⟩
  obtain ⟨honly, hmade⟩ := hmade
  refine (returns_test hpath).bind fun _ existing mid hmid => ?_
  obtain ⟨-, rfl, -⟩ := hmid
  refine (Returns.onlyIf (Q := fun _ _ s' => OnlyFiles mid s' ∧ ∀ place,
    (∀ name, BackupPlace path (own.dropLast ++ [name]) → ¬ own.dropLast ++ [name] <+: place) →
      s'.files.tree place = mid.files.tree place) (fun _ => ?_)
      fun _ => ⟨(rfl : OnlyFiles mid mid), fun _ _ => rfl⟩).bind
        fun _ _ saved hsaved => ?_
  · refine (returns_backUp hpath).mono fun _ _ s' hs' => ?_
    obtain ⟨honly', name, hbackup, hbeside⟩ := hs'
    exact ⟨honly', fun place hplace => hbeside place (hplace name hbackup)⟩
  obtain ⟨honly', hsaved⟩ := hsaved
  -- neither the directories nor the backup are in the way of what is copied
  have hcopy : ∀ rest, saved.files.tree (copy ++ rest) = s.files.tree (copy ++ rest) := by
    intro rest
    rw [hsaved]
    · refine (hmade _).resolve_right fun hdirectory => hbelow ?_
      exact ((List.prefix_append _ _).trans hdirectory.1).trans (List.dropLast_prefix _)
    · intro name hbackup
      have hcopy := (hbackups _ hbackup).2
      exact not_prefix_append hcopy (not_prefix_beside hbelow hcopy) rest
  have hroot : saved.files.tree copy = s.files.tree copy := by simpa using hcopy []
  have hkind' : saved.files.tree copy ≠ some .directory →
      saved.files.tree own ≠ some .directory := by
    have hmade' := hmade.below hown []
    rw [List.append_nil] at hmade'
    rw [hroot, hsaved own fun name hbackup => (hbackups _ hbackup).1, hmade']
    exact hkind
  refine (returns_copyOver hfile hpath (hroot ▸ hfound) hbelow habove).mono fun _ _ s' hs' => ?_
  obtain ⟨honly'', hchanged, hsame⟩ := hs'
  refine ⟨(honly.trans honly').trans honly'', fun place hplace hbackup => ?_, ?_⟩
  · rw [hchanged place hplace, hsaved place hbackup]
    exact (hmade place).imp_right fun hdirectory =>
      ⟨hdirectory.1.trans (List.dropLast_prefix _), hdirectory.2⟩
  · rw [← hsame hkind']
    funext rest
    rw [Tree.subtree_apply, hchanged _ (not_prefix_append habove hbelow rest)]
    exact hcopy rest

/-- A mapping whose file the clone does not have is passed over. -/
theorem returns_pullMapping_absent
    (hsource : absolutePlace (expandedSourcePath env mapping) = some source)
    (htarget : absolutePlace (repositoryFile env mapping) = some (clone ++ target))
    (h : ¬ Stored env clone s mapping source target) :
    Returns (world ignored clone) s (pullMapping env false true mapping) fun _ _ s' => s' = s := by
  refine (returns_test htarget).bind fun _ existing mid hmid => ?_
  obtain ⟨-, rfl, hexisting⟩ := hmid
  rw [if_neg fun hyes => h ⟨hsource, htarget, hexisting.mp hyes⟩]
  exact returns_ret rfl

/-- A mapping whose file the clone has is passed over where the local path must not be written. -/
theorem returns_pullMapping_of {Q : State → Prop} (h : Stored env clone s mapping source target)
    (hsource : source ≠ []) (hskip : ¬ s.mayWrite source.dropLast → Q s)
    (hcompare : ∀ directory : Bool,
      (directory ↔ s.files.tree (clone ++ target) = some .directory) →
        Returns (world ignored clone) s (do
          let changed ← needsUpdate directory (repositoryFile env mapping)
            (expandedSourcePath env mapping)
          Program.onlyIf (changed && !false) (restore (repositoryFile env mapping)
            (expandedSourcePath env mapping))
          pure (if changed then Pulled.updated else .unchanged)) fun _ _ => Q) :
    Returns (world ignored clone) s (pullMapping env false true mapping) fun _ _ => Q := by
  refine (returns_test h.targetPlace).bind fun _ existing mid hmid => ?_
  obtain ⟨-, rfl, hexisting⟩ := hmid
  rw [if_pos (hexisting.mpr h.found), if_neg (by simp)]
  refine (returns_checkPermissions_write h.sourcePlace hsource).bind
    fun _ writable mid' hmid' => ?_
  obtain ⟨rfl, hwritable⟩ := hmid'
  split
  · refine (returns_test h.targetPlace).bind fun _ directory mid'' hmid'' => ?_
    obtain ⟨-, rfl, hdirectory⟩ := hmid''
    exact hcompare directory hdirectory
  · next hno => exact returns_ret (hskip fun hwrite => hno (hwritable hwrite))

/-- What pulling a mapped file leads to. -/
def PulledTo (env : Environment) (clone : List String) (mapping : String)
    (source target : List String) (s s' : State) : Prop :=
  s' = s ∧ (s.mayWrite source.dropLast →
      s.files.tree.subtree source = s.files.tree.subtree (clone ++ target)) ∨
    Restored (expandedSourcePath env mapping) source (clone ++ target) s s'

theorem returns_pullMapping (h : Stored env clone s mapping source target)
    (hbelow : ¬ clone ++ target <+: source) (habove : ¬ source <+: clone ++ target)
    (hbackups : ∀ name, BackupPlace (expandedSourcePath env mapping) (source.dropLast ++ [name]) →
      ¬ source.dropLast ++ [name] <+: source ∧ ¬ source.dropLast ++ [name] <+: clone ++ target)
    (hkind : s.files.tree (clone ++ target) ≠ some .directory →
      s.files.tree source ≠ some .directory) :
    Returns (world ignored clone) s (pullMapping env false true mapping)
      fun _ _ => PulledTo env clone mapping source target s := by
  have hsource : source ≠ [] := fun hnil => habove (hnil ▸ List.nil_prefix)
  refine returns_pullMapping_of h hsource (fun hno => .inl ⟨rfl, fun hwrite => absurd hwrite hno⟩)
    fun directory _ => ?_
  refine (returns_needsUpdate h.targetPlace h.sourcePlace).bind fun _ changed mid hmid => ?_
  obtain ⟨-, rfl, hsame⟩ := hmid
  refine (Returns.onlyIf (Q := fun _ _ => PulledTo env clone mapping source target mid)
    (fun _ => ?_) fun hno => ?_).bind fun _ _ _ hs' => returns_ret hs'
  · exact (returns_restore h.sourcePlace h.targetPlace h.found.1 hbelow habove hbackups hkind).mono
      fun _ _ _ => .inr
  · exact .inl ⟨rfl, fun _ => (hsame (by simpa using hno)).2.symm⟩

/-- A file that is there already is left alone. -/
theorem returns_pullMapping_same (h : Stored env clone s mapping source target)
    (hsource : source ≠ [])
    (hsame : s.files.tree.subtree source = s.files.tree.subtree (clone ++ target))
    (hread : ∀ rest, s.mayRead (source ++ rest) ∧ s.mayRead (clone ++ target ++ rest)) :
    Returns (world ignored clone) s (pullMapping env false true mapping) fun _ _ s' => s' = s := by
  refine returns_pullMapping_of (Q := fun s' => s' = s) h hsource (fun _ => rfl)
    fun directory hdirectory => ?_
  have hroot := congrFun hsame []
  rw [Tree.subtree_apply, Tree.subtree_apply, List.append_nil, List.append_nil] at hroot
  refine (returns_needsUpdate_same h.targetPlace h.sourcePlace h.found.1 hdirectory hsame.symm
    (fun rest => (hread rest).2) fun rest => (hread rest).1).bind fun _ changed mid hmid => ?_
  obtain ⟨rfl, hchanged⟩ := hmid
  refine (Returns.onlyIf (Q := fun _ _ s' => s' = mid) (fun hyes => ?_) fun _ => rfl).bind
    fun _ _ _ hs' => returns_ret hs'
  obtain ⟨hfile, hslash⟩ := hchanged (by simpa using hyes)
  refine (returns_must (Q := fun _ _ s' => MadeAlong source.dropLast mid.files.tree s'.files.tree)
    fun answer s' hstep _ => ?_).bind fun _ _ made hmade => ?_
  · obtain ⟨files, rfl, heffect⟩ := hstep
    exact (heffect _ (absolutePlace_dirname h.sourcePlace)).1
  have hown : made.files.tree source ≠ some .directory := by
    have hmade' := hmade.below hsource []
    rw [List.append_nil] at hmade'
    rwa [hmade', hroot]
  have hcopy : made.files.tree (clone ++ target) ≠ some .directory := by
    rwa [(hmade _).resolve_right fun hdirectory => h.found.1 hdirectory.2.1]
  refine (returns_test h.sourcePlace).bind fun _ existing mid' hmid' => ?_
  obtain ⟨-, rfl, hexisting⟩ := hmid'
  rw [Bool.eq_false_iff.mpr fun hyes => hown ((hexisting.mp hyes).2 hslash)]
  exact (returns_copyOver_slash h.targetPlace h.sourcePlace hcopy hown hslash).mono
    fun _ _ _ => False.elim

/-! ## The loop -/

/-- The state after the mappings `done`. -/
structure Pulling (env : Environment) (clone : List String) (s : State) (done : List String)
    (s' : State) : Prop where
  onlyFiles : OnlyFiles s s'
  kept : ∀ path, clone <+: path → s'.files.tree path = s.files.tree path
  agrees : ∀ mapping ∈ done, ∀ source target, Stored env clone s mapping source target →
    s.mayWrite source.dropLast →
      s'.files.tree.subtree source = s.files.tree.subtree (clone ++ target)
  sameKind : ∀ mapping ∈ fileMappings env, ∀ source target,
    Stored env clone s mapping source target → s.files.tree (clone ++ target) ≠ some .directory →
      s'.files.tree source ≠ some .directory

variable {done left : List String}

theorem Stored.of_pulling (hstored : Stored env clone s mapping source target)
    (h : Pulling env clone s done s') : Stored env clone s' mapping source target where
  sourcePlace := hstored.sourcePlace
  targetPlace := hstored.targetPlace
  found := by
    rw [Finds, h.kept _ (List.prefix_append _ _)]
    exact hstored.found

theorem Stored.of_pulled (hstored : Stored env clone s' mapping source target)
    (h : Pulling env clone s done s') : Stored env clone s mapping source target where
  sourcePlace := hstored.sourcePlace
  targetPlace := hstored.targetPlace
  found := by
    rw [Finds, ← h.kept _ (List.prefix_append _ _)]
    exact hstored.found

theorem Stored.unique {source' target' : List String}
    (h : Stored env clone s mapping source target)
    (h' : Stored env clone s mapping source' target') : source = source' ∧ target = target' :=
  ⟨by simpa [h.sourcePlace] using h'.sourcePlace, by simpa [h.targetPlace] using h'.targetPlace⟩

theorem Pulling.copy (h : Pulling env clone s done s') (target : List String) :
    s'.files.tree.subtree (clone ++ target) = s.files.tree.subtree (clone ++ target) := by
  funext rest
  exact h.kept _ ((List.prefix_append _ _).trans (List.prefix_append _ _))

/-- A mapping that needs no update, or is passed over. -/
theorem Pulling.skip (h : Pulling env clone s done s')
    (hsame : ∀ source target, Stored env clone s mapping source target →
      s.mayWrite source.dropLast →
        s'.files.tree.subtree source = s.files.tree.subtree (clone ++ target)) :
    Pulling env clone s (done ++ [mapping]) s' where
  onlyFiles := h.onlyFiles
  kept := h.kept
  agrees mapping' hdone source target hstored hwrite := by
    rw [List.mem_append, List.mem_singleton] at hdone
    rcases hdone with hdone | rfl
    · exact h.agrees mapping' hdone source target hstored hwrite
    · exact hsame source target hstored hwrite
  sameKind := h.sameKind

/-- What is neither above nor below a local path, nor below a backup of it, stays. -/
theorem Restored.frame {path : String} {own copy place : List String}
    (h : Restored path own copy s s') (hbelow : ¬ own <+: place) (habove : ¬ place <+: own)
    (hbackups : ∀ backup, BackupPlace path backup → ¬ backup <+: place) (rest : List String) :
    s'.files.tree (place ++ rest) = s.files.tree (place ++ rest) := by
  refine (h.elsewhere _ (not_prefix_append hbelow habove rest) fun name hbackup => ?_).resolve_right
    fun hdirectory => habove ((List.prefix_append _ _).trans hdirectory.1)
  have hplace := hbackups _ hbackup
  exact not_prefix_append hplace (not_prefix_beside habove hplace) rest

/-- Where no local path above is in place yet, what has been pulled stays. -/
theorem Pulling.restored (h : Pulling env clone s done s') (hrestorable : Restorable env clone s)
    (hdone : ∀ mapping ∈ done, mapping ∈ fileMappings env) (hmem : mapping ∈ fileMappings env)
    (hstored : Stored env clone s mapping source target)
    (hfirst : ∀ mapping' ∈ done, ∀ source' target', Stored env clone s mapping' source' target' →
      s.mayWrite source'.dropLast → source' <+: source → source' = source) {s'' : State}
    (hpulled : Restored (expandedSourcePath env mapping) source (clone ++ target) s' s'') :
    Pulling env clone s (done ++ [mapping]) s'' := by
  obtain ⟨hbelow, habove⟩ := hrestorable.outside mapping hmem source hstored.sourcePlace
  have hbackups := fun backup => hrestorable.backups mapping hmem source target backup hstored
  have hinside : ∀ mapping' ∈ fileMappings env, ∀ way target',
      Stored env clone s mapping' (source ++ way) target' →
        s''.files.tree.subtree (source ++ way) = s.files.tree.subtree (clone ++ target') := by
    intro mapping' hmem' way target' hstored'
    rw [← hrestorable.consistent mapping hmem mapping' hmem' source target way target' hstored
      hstored']
    funext rest
    have hsame := congrFun (hpulled.same.trans (h.copy target)) (way ++ rest)
    simpa using hsame
  refine ⟨h.onlyFiles.trans hpulled.onlyFiles, ?_, ?_, ?_⟩
  · rintro _ ⟨rest, rfl⟩
    rw [hpulled.frame habove hbelow (fun backup hbackup => (hbackups backup hbackup).1) rest]
    exact h.kept _ (List.prefix_append _ _)
  · intro mapping' hdone' source' target' hstored' hwrite
    rw [List.mem_append, List.mem_singleton] at hdone'
    rcases hdone' with hdone' | rfl
    · have hmem' := hdone mapping' hdone'
      by_cases hpre : source <+: source'
      · obtain ⟨way, rfl⟩ := hpre
        exact hinside mapping' hmem' way target' hstored'
      · have hapart : ¬ source' <+: source := fun hpre' => hpre
          (hfirst mapping' hdone' source' target' hstored' hwrite hpre' ▸ List.prefix_refl _)
        rw [← h.agrees mapping' hdone' source' target' hstored' hwrite]
        funext rest
        exact hpulled.frame hpre hapart (fun backup hbackup =>
          (hbackups backup hbackup).2 mapping' hmem' source' target' hstored') rest
    · obtain ⟨rfl, rfl⟩ := hstored.unique hstored'
      simpa using hinside mapping' hmem [] target (by simpa using hstored)
  · intro mapping' hmem' source' target' hstored' hfile
    by_cases hpre : source <+: source'
    · obtain ⟨way, rfl⟩ := hpre
      have hroot := congrFun (hinside mapping' hmem' way target' hstored') []
      simp only [Tree.subtree_apply, List.append_nil] at hroot
      rwa [hroot]
    · rcases hpulled.elsewhere source' hpre fun name hbackup =>
        (hbackups _ hbackup).2 mapping' hmem' source' target' hstored' with heq | hdirectory
      · rw [heq]
        exact h.sameKind mapping' hmem' source' target' hstored' hfile
      · -- what is above a mapped file would have to be a directory in the clone too
        obtain ⟨⟨way, rfl⟩, -⟩ := hdirectory
        have hroot := congrFun (hrestorable.consistent mapping' hmem' mapping hmem source' target'
          way target hstored' hstored) []
        simp only [Tree.subtree_apply, List.append_nil] at hroot
        refine absurd (s.files.directory_of_below (hroot ▸ hstored.found.1) ?_) hfile
        rintro rfl
        exact hpre (by simp)

theorem returns_pullMappings (h : Restorable env clone s) :
    Returns (world ignored clone) s
      (Program.mapEach (fileMappings env) (pullMapping env false true))
      fun _ _ => Pulling env clone s (fileMappings env) := by
  refine (Returns.mapEach (I := fun done _ _ => Pulling env clone s done)
    ⟨rfl, fun _ _ => rfl, by simp, h.sameKind⟩ fun done mapping left _ _ mid hxs hpulling => ?_)
  have hmem : mapping ∈ fileMappings env := by simp [hxs]
  have hdone : ∀ mapping ∈ done, mapping ∈ fileMappings env := by simp +contextual [hxs]
  obtain ⟨source, target, hsource, htarget⟩ := h.named mapping hmem
  by_cases hstored : Stored env clone s mapping source target
  swap
  · refine (returns_pullMapping_absent hsource htarget fun hstored' =>
      hstored (hstored'.of_pulled hpulling)).mono ?_
    rintro _ _ _ rfl
    refine hpulling.skip fun source' target' hstored' => absurd ?_ hstored
    obtain rfl : source = source' := by simpa [hsource] using hstored'.sourcePlace
    obtain rfl : target = target' := by simpa [htarget] using hstored'.targetPlace
    exact hstored'
  obtain ⟨hbelow, habove⟩ := h.outside mapping hmem source hsource
  have hbackups := fun backup => h.backups mapping hmem source target backup hstored
  have hnot : ¬ clone ++ target <+: source :=
    fun hpre => hbelow ((List.prefix_append _ _).trans hpre)
  have hnot' := not_prefix_append habove hbelow target
  have hmayRead : mid.mayRead = s.mayRead := by rw [hpulling.onlyFiles]
  by_cases hover : ∃ mapping' ∈ done, ∃ source' target',
      Stored env clone s mapping' source' target' ∧ s.mayWrite source'.dropLast ∧ source' <+: source ∧ source' ≠ source
  · -- a local path above is in place, and so is this one
    obtain ⟨mapping', hdone', source', target', hstored', hwrite', ⟨way, rfl⟩, hne⟩ := hover
    have hway : way ≠ [] := by
      rintro rfl
      exact hne (List.append_nil _).symm
    have hsame : mid.files.tree.subtree (source' ++ way) =
        s.files.tree.subtree (clone ++ target) := by
      rw [← h.consistent mapping' (hdone mapping' hdone') mapping hmem source' target' way target
        hstored' hstored]
      funext rest
      have hagrees := congrFun (hpulling.agrees mapping' hdone' source' target' hstored' hwrite')
        (way ++ rest)
      simpa using hagrees
    have hread := h.readable mapping' (hdone mapping' hdone') mapping hmem source' target' way
      target hstored' hstored hway
    refine (returns_pullMapping_same (hstored.of_pulling hpulling) (by simp [hway])
      (hsame.trans (hpulling.copy target).symm) (by rwa [hmayRead])).mono ?_
    rintro _ _ _ rfl
    refine hpulling.skip fun source'' target'' hstored'' _ => ?_
    obtain ⟨rfl, rfl⟩ := hstored.unique hstored''
    exact hsame
  · have hfirst : ∀ mapping' ∈ done, ∀ source' target',
        Stored env clone s mapping' source' target' → s.mayWrite source'.dropLast → source' <+: source → source' = source :=
      fun mapping' hdone' source' target' hstored' hwrite' hpre =>
        by_contra fun hne => hover
          ⟨mapping', hdone', source', target', hstored', hwrite', hpre, hne⟩
    refine (returns_pullMapping (hstored.of_pulling hpulling) hnot hnot' (fun name hbackup => ?_)
      fun hfile => ?_).mono fun _ _ s' hs' => ?_
    · obtain ⟨houtside, hsources⟩ := hbackups _ hbackup
      exact ⟨hsources mapping hmem source target hstored,
        not_prefix_append houtside (not_prefix_beside hbelow houtside) target⟩
    · rw [hpulling.kept _ (List.prefix_append _ _)] at hfile
      exact hpulling.sameKind mapping hmem source target hstored hfile
    · rcases hs' with ⟨rfl, hsame⟩ | hrestored
      · refine hpulling.skip fun source' target' hstored' hwrite => ?_
        obtain ⟨rfl, rfl⟩ := hstored.unique hstored'
        rw [hsame (by rw [hpulling.onlyFiles]; exact hwrite), hpulling.copy]
      · exact hpulling.restored h hdone hmem hstored hfirst hrestored

end ArchInstaller.DotfilesSync
