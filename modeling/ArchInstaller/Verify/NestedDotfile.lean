import ArchInstaller.Verify.FailedCommit
import ArchInstaller.Verify.PushPull

/-! # A dotfile that was a directory

The clone has a directory where the user now has a file, and `cp` copies the file into it. -/

namespace ArchInstaller.DotfilesSync

open Files Interaction PyText Shell

variable {source target : List String}

/-- The directory that was pushed, and the file that is there now. -/
def nestedFiles : Volume String String :=
  (Volume.along String (oneClone ++ ["zsh", ".zshrc"])).withFile ["home", "user"] ".zshrc" "own"
    (by decide) (by decide)

/-- The file is in the directory. -/
def nestedCopy : Volume String String :=
  nestedFiles.withFile (oneClone ++ ["zsh", ".zshrc"]) ".zshrc" "own" (by decide) (by decide)

def nestedState : State where
  files := nestedFiles
  mayRead _ := true
  mayWrite _ := true
  commits := [workTree nestedFiles.tree oneClone]
  remote := [workTree nestedFiles.tree oneClone]

theorem Stray.nested_absent (h : Stray source target) : nestedFiles.tree source = none := by
  have halong : ¬ source <+: oneClone ++ ["zsh", ".zshrc"] := fun hpre =>
    (List.prefix_or_prefix_of_prefix hpre (List.prefix_append _ _)).elim h.notAbove h.notBelow
  exact (if_neg h.notFile).trans (if_neg halong)

theorem Stray.nestedCopy_absent (h : Stray source target) : nestedCopy.tree source = none := by
  have hcopy : source ≠ oneClone ++ ["zsh", ".zshrc"] ++ [".zshrc"] := by
    rintro rfl
    exact h.notBelow (by decide)
  exact (if_neg hcopy).trans h.nested_absent

theorem reaches_pushMapping_nested :
    Reaches (commitWorld (fun _ => false) oneClone true) nestedState
      (pushMapping oneDotfile false "/home/user/.zshrc:zsh/.zshrc")
        fun _ s' => s' = { nestedState with files := nestedCopy } := by
  have hsource : absolutePlace (expandedSourcePath oneDotfile "/home/user/.zshrc:zsh/.zshrc") =
      some ["home", "user", ".zshrc"] := by decide
  have htarget : absolutePlace (repositoryFile oneDotfile "/home/user/.zshrc:zsh/.zshrc") =
      some (oneClone ++ ["zsh", ".zshrc"]) := by decide
  have hfile : nestedState.files.tree ["home", "user", ".zshrc"] = some (.file "own") := by decide
  have hdirectory : nestedState.files.tree (oneClone ++ ["zsh", ".zshrc"]) = some .directory := by
    decide
  have hslash : endsInSlash (expandedSourcePath oneDotfile "/home/user/.zshrc:zsh/.zshrc") =
      false := by decide
  have hslash' : endsInSlash (repositoryFile oneDotfile "/home/user/.zshrc:zsh/.zshrc") =
      false := by decide
  refine (reaches_test hsource true (by simp [Finds, hfile, hslash])).bind ?_
  rintro _ _ ⟨rfl, rfl⟩
  have hreadable : Reaches (commitWorld (fun _ => false) oneClone true) nestedState
      (checkPermissions (expandedSourcePath oneDotfile "/home/user/.zshrc:zsh/.zshrc") .read)
        fun readable s' => readable = true ∧ s' = nestedState := by
    refine (reaches_test hsource true (by simp [Finds, hfile, hslash])).bind ?_
    rintro _ _ ⟨rfl, rfl⟩
    refine reaches_succeeds .ok nestedState ⟨⟨rfl, fun place hplace => ?_⟩, noCommit rfl⟩ ⟨rfl, rfl⟩
    obtain rfl : ["home", "user", ".zshrc"] = place := by simpa [hsource] using hplace
    exact iff_of_true rfl ⟨by rw [hfile]; exact Option.some_ne_none _, rfl⟩
  refine hreadable.bind ?_
  rintro _ _ ⟨rfl, rfl⟩
  have hmkdir : Reaches (commitWorld (fun _ => false) oneClone true) nestedState
      (must (.mkdir (dirname (repositoryFile oneDotfile "/home/user/.zshrc:zsh/.zshrc"))))
        fun _ s' => s' = nestedState := by
    refine reaches_must .ok nestedState
      ⟨⟨nestedFiles, rfl, fun place hplace => ⟨fun _ => .inl rfl, fun _ => ?_⟩⟩, noCommit rfl⟩ rfl rfl
    obtain rfl : (oneClone ++ ["zsh", ".zshrc"]).dropLast = place := by
      simpa [absolutePlace_dirname htarget] using hplace
    refine (Tree.mkdirs_eq_self fun path hpath => ?_).symm
    exact nestedState.files.directory_of_prefix hdirectory (hpath.trans (List.dropLast_prefix _))
  refine (Reaches.onlyIf (fun _ => hmkdir) (by simp)).bind ?_
  rintro _ _ rfl
  refine (reaches_test hsource false (by simp [Finds, hfile])).bind ?_
  rintro _ _ ⟨rfl, rfl⟩
  have hneeds : Reaches (commitWorld (fun _ => false) oneClone true) nestedState
      (needsUpdate false (expandedSourcePath oneDotfile "/home/user/.zshrc:zsh/.zshrc")
        (repositoryFile oneDotfile "/home/user/.zshrc:zsh/.zshrc"))
          fun changed s' => changed = true ∧ s' = nestedState := by
    refine (reaches_test htarget false (by simp [Finds, hdirectory])).bind ?_
    rintro _ _ ⟨rfl, rfl⟩
    exact reaches_ret ⟨rfl, rfl⟩
  refine hneeds.bind ?_
  rintro _ _ ⟨rfl, rfl⟩
  have hcopied : Reaches (commitWorld (fun _ => false) oneClone true) nestedState
      (copyOver (expandedSourcePath oneDotfile "/home/user/.zshrc:zsh/.zshrc")
        (repositoryFile oneDotfile "/home/user/.zshrc:zsh/.zshrc"))
          fun _ s' => s' = { nestedState with files := nestedCopy } := by
    refine (reaches_test hsource false (by simp [Finds, hfile])).bind ?_
    rintro _ _ ⟨rfl, rfl⟩
    refine reaches_must .ok _ ⟨⟨nestedCopy, rfl, fun place place' hplace hplace' => ?_⟩, noCommit rfl⟩
      rfl rfl
    obtain rfl : ["home", "user", ".zshrc"] = place := by simpa [hsource] using hplace
    obtain rfl : oneClone ++ ["zsh", ".zshrc"] = place' := by simpa [htarget] using hplace'
    have hinto : copyTarget nestedState.files.tree ["home", "user", ".zshrc"]
        (oneClone ++ ["zsh", ".zshrc"]) = oneClone ++ ["zsh", ".zshrc"] ++ [".zshrc"] := by
      rw [copyTarget, hdirectory]
      rfl
    have hfree : nestedFiles.tree (oneClone ++ ["zsh", ".zshrc"] ++ [".zshrc"]) ≠
        some .directory := by decide
    have htree : nestedCopy.tree = nestedFiles.tree.graft
        (nestedFiles.tree.subtree ["home", "user", ".zshrc"])
          (oneClone ++ ["zsh", ".zshrc"] ++ [".zshrc"]) :=
      nestedFiles.withFile_tree hfile hdirectory hfree
    rw [hinto, htree]
    exact ⟨fun _ hpath => Tree.graft_of_not_below hpath, fun _ => ⟨by decide,
      ⟨by simp [hfile], nestedFiles.accepts_file hfile hdirectory hfree, rfl⟩, by simp [hslash']⟩⟩
  refine (Reaches.onlyIf (fun _ => hcopied) (by simp)).bind ?_
  rintro _ _ rfl
  exact reaches_ret rfl

theorem reaches_copyMapped_nested :
    Reaches (commitWorld (fun _ => false) oneClone true) nestedState (copyMapped oneDotfile)
      fun _ s' => s' = { nestedState with files := nestedCopy } := by
  rw [copyMapped, fileMappings_oneDotfile]
  refine reaches_pushMapping_nested.bind ?_
  rintro _ _ rfl
  refine (reaches_pushMapping_absent fun mapping hmem => ?_).bind ?_
  · obtain ⟨source, target, hsource, -, hstray⟩ := exists_stray hmem
    exact ⟨source, hsource, hstray.nestedCopy_absent⟩
  rintro values _ ⟨rfl, -⟩
  exact reaches_ret rfl

theorem mapped_nestedState : Mapped oneDotfile oneClone nestedState "/home/user/.zshrc:zsh/.zshrc"
    ["home", "user", ".zshrc"] ["zsh", ".zshrc"] where
  sourcePlace := by decide
  targetPlace := by decide
  found := ⟨by decide, fun h => absurd h (by decide)⟩
  readable := rfl

theorem repositoryPathsApart_nestedState :
    RepositoryPathsApart oneDotfile oneClone nestedState := by
  have honly : ∀ mapping ∈ fileMappings oneDotfile, ∀ source target,
      Mapped oneDotfile oneClone nestedState mapping source target →
        mapping = "/home/user/.zshrc:zsh/.zshrc" := by
    intro mapping hmem source target hmapped
    rw [fileMappings_oneDotfile, List.mem_cons] at hmem
    refine hmem.resolve_right fun hmem => ?_
    obtain ⟨source', target', hsource', -, hstray⟩ := exists_stray hmem
    obtain rfl : source' = source := by simpa [hsource'] using hmapped.sourcePlace
    exact hmapped.found.1 hstray.nested_absent
  intro mapping hmem mapping' hmem' source target source' target' hmapped hmapped'
  exact .inl ((honly mapping hmem source target hmapped).trans
    (honly mapping' hmem' source' target' hmapped').symm)

/-- Another machine of the user, where the file has a third content. -/
def otherMachine : State := { oneState with files := userFiles "new" "other" }

/-- A backup has a digit in its name. -/
theorem backup_name_ne {name text : String} {seconds : Nat}
    (h : ∀ c ∈ text.toList, c.isDigit = false) :
    name ++ (".backup." ++ toString seconds) ≠ text := by
  rintro rfl
  have hne : (toString seconds).toList ≠ [] := fun hnil =>
    toString_nat_ne_empty seconds (String.toList_eq_nil_iff.mp hnil)
  obtain ⟨c, hc⟩ := List.exists_mem_of_ne_nil _ hne
  have hdigit := isDigit_of_mem_toString hc
  have hmem : c ∈ (name ++ (".backup." ++ toString seconds)).toList := by
    rw [String.toList_append, String.toList_append]
    exact List.mem_append_right _ (List.mem_append_right _ hc)
  rw [h c hmem] at hdigit
  cases hdigit

theorem pushable_oneState : Pushable oneDotfile oneClone oneState where
  placed := clear_oneState.placed
  isClone := by decide
  upToDate := List.suffix_refl _
  readable _ _ _ _ _ _ := ⟨rfl, rfl⟩
  version := clear_oneState.version

theorem restorable_otherMachine : Restorable oneDotfile oneClone otherMachine := by
  have honly : ∀ mapping ∈ fileMappings oneDotfile, ∀ source target,
      Stored oneDotfile oneClone otherMachine mapping source target →
        source = ["home", "user", ".zshrc"] ∧ target = ["zsh", ".zshrc"] := by
    intro mapping hmem source target hstored
    rw [fileMappings_oneDotfile, List.mem_cons] at hmem
    rcases hmem with rfl | hmem
    · have hsource := mapped_nestedState.sourcePlace.symm.trans hstored.sourcePlace
      have htarget := mapped_nestedState.targetPlace.symm.trans hstored.targetPlace
      exact ⟨(Option.some.inj hsource).symm,
        (List.append_cancel_left (Option.some.inj htarget)).symm⟩
    · obtain ⟨source', target', -, htarget, hstray⟩ := exists_stray hmem
      obtain rfl : target' = target := by simpa [htarget] using hstored.targetPlace
      exact absurd hstray.target_absent hstored.found.1
  refine ⟨clear_oneState.named, clear_oneState.outside, ?_, ?_, ?_, ?_⟩
  · intro mapping hmem mapping' hmem' source target way target' hstored hstored'
    obtain ⟨rfl, rfl⟩ := honly mapping hmem source target hstored
    obtain ⟨hway, rfl⟩ := honly mapping' hmem' _ target' hstored'
    obtain rfl : way = [] := by simpa using hway
    rw [List.append_nil]
  · exact fun _ _ _ _ _ _ _ _ _ _ _ _ => ⟨rfl, rfl⟩
  · intro mapping hmem source target hstored _
    obtain ⟨rfl, rfl⟩ := honly mapping hmem source target hstored
    decide
  · rintro mapping hmem source target backup hstored ⟨seconds, hbackup⟩
    obtain ⟨rfl, rfl⟩ := honly mapping hmem source target hstored
    obtain ⟨parent, name, hplace, hparent⟩ := absolutePlace_backup hstored.sourcePlace seconds
    rw [hbackup] at hplace
    obtain rfl := Option.some.inj hplace
    have hclone : name ++ (".backup." ++ toString seconds) ≠ ".dotfiles-repo" :=
      backup_name_ne (forall_mem_of_all (by decide))
    have hfile : name ++ (".backup." ++ toString seconds) ≠ ".zshrc" :=
      backup_name_ne (forall_mem_of_all (by decide))
    refine ⟨?_, fun mapping' hmem' source' target' hstored' => ?_⟩
    · rcases hparent with rfl | rfl
      · simpa [oneClone] using hclone
      · simp [oneClone]
    · obtain ⟨rfl, rfl⟩ := honly mapping' hmem' source' target' hstored'
      rcases hparent with rfl | rfl
      · simpa using hfile
      · simp

end ArchInstaller.DotfilesSync
