import ArchInstaller.Verify.SampleDotfiles

/-! # A push whose commit fails

The subshell that commits returns 0 when `git commit` fails, as if there had been nothing to commit,
and the script goes on to report the version as pushed. -/

namespace ArchInstaller.DotfilesSync

open Files Interaction PyText Shell

variable {ignored : List String → Bool} {clone : List String} {env : Environment}
  {mapping : String} {s s' : State} {source target : List String}

/-- The dotfile has another content than its copy. -/
def oneState : State where
  files := userFiles "old" "new"
  mayRead _ := true
  mayWrite _ := true
  commits := [workTree (userFiles "old" "new").tree oneClone]
  remote := [workTree (userFiles "old" "new").tree oneClone]

/-- The world where every commit goes well, or where every commit fails. -/
def commitWorld (ignored : List String → Bool) (clone : List String) (commits : Bool) :
    Machine Command Answer State :=
  fun s command answer s' => world ignored clone s command answer s' ∧
    (command.isCommit → answer.success = commits)

variable {commits : Bool}

/-- Nothing is asked of the answers to the other commands. -/
theorem noCommit {command : Command} {p : Prop} (h : command.isCommit = false) :
    command.isCommit → p :=
  fun hcommit => absurd (h.symm.trans hcommit) Bool.false_ne_true

theorem reaches_test {word : String} {flag : TestFlag} {place : List String}
    (hword : absolutePlace word = some place) (found : Bool)
    (hfound : found = true ↔ Finds s.files.tree word place flag) :
    Reaches (commitWorld ignored clone commits) s (succeeds (.test flag word))
      fun found' s' => found' = found ∧ s' = s := by
  refine reaches_succeeds ⟨if found then 0 else 1, ""⟩ s
    ⟨⟨rfl, fun place' hplace' => ?_⟩, noCommit rfl⟩ ?_
  · obtain rfl : place = place' := by simpa [hword] using hplace'
    rw [← hfound]
    cases found <;> simp [Answer.success]
  · cases found <;> simp [Answer.success]

/-- Mapped files that are not there. -/
theorem reaches_pushMapping_absent {mappings : List String}
    (h : ∀ mapping ∈ mappings, ∃ place,
      absolutePlace (expandedSourcePath env mapping) = some place ∧ s.files.tree place = none) :
    Reaches (commitWorld ignored clone commits) s (Program.mapEach mappings (pushMapping env false))
      fun values s' => s' = s ∧ values.any id = false := by
  induction mappings with
  | nil => exact reaches_ret ⟨rfl, rfl⟩
  | cons mapping mappings ih =>
    rw [List.forall_mem_cons] at h
    obtain ⟨place, hplace, hnone⟩ := h.1
    have hfirst : Reaches (commitWorld ignored clone commits) s (pushMapping env false mapping)
        fun value s' => value = false ∧ s' = s := by
      refine (reaches_test hplace false (by simp [Finds, hnone])).bind ?_
      rintro _ _ ⟨rfl, rfl⟩
      exact reaches_ret ⟨rfl, rfl⟩
    refine hfirst.bind ?_
    rintro _ _ ⟨rfl, rfl⟩
    refine (ih h.2).bind ?_
    rintro values _ ⟨rfl, hvalues⟩
    exact reaches_ret ⟨rfl, by simpa using hvalues⟩

/-- A mapped file that is another one than its copy is copied over it. -/
theorem reaches_pushMapping {parent : List String} {name content : String}
    (hsource : absolutePlace (expandedSourcePath env mapping) = some source)
    (htarget : absolutePlace (repositoryFile env mapping) = some (parent ++ [name]))
    (hslash : endsInSlash (expandedSourcePath env mapping) = false)
    (hslash' : endsInSlash (repositoryFile env mapping) = false)
    (hfile : s.files.tree source = some (.file content)) (hread : s.mayRead source)
    (hparent : s.files.tree parent = some .directory)
    (hcopy : ∃ old, old ≠ content ∧ s.files.tree (parent ++ [name]) = some (.file old))
    (hapart : ¬ source <+: parent ++ [name]) :
    Reaches (commitWorld ignored clone commits) s (pushMapping env false mapping) fun changed s' =>
      changed = true ∧ ∃ hfree, s' = { s with
        files := s.files.withFile parent name content hparent hfree } := by
  obtain ⟨old, hold, hcopy⟩ := hcopy
  have hfree : s.files.tree (parent ++ [name]) ≠ some .directory := by simp [hcopy]
  have hfound : Finds s.files.tree (expandedSourcePath env mapping) source .exists := by
    simp [Finds, hfile, hslash]
  refine (reaches_test hsource true (by simpa using hfound)).bind ?_
  rintro _ s ⟨rfl, rfl⟩
  have hreadable : Reaches (commitWorld ignored clone commits) s
      (checkPermissions (expandedSourcePath env mapping) .read)
        fun readable s' => readable = true ∧ s' = s := by
    refine (reaches_test hsource true (by simpa using hfound)).bind ?_
    rintro _ s ⟨rfl, rfl⟩
    refine reaches_succeeds .ok s ⟨⟨rfl, fun place hplace => ?_⟩, noCommit rfl⟩ ⟨rfl, rfl⟩
    obtain rfl : source = place := by simpa [hsource] using hplace
    simp [hfile, hread]
  refine hreadable.bind ?_
  rintro _ s ⟨rfl, rfl⟩
  have hmkdir : Reaches (commitWorld ignored clone commits) s
      (must (.mkdir (dirname (repositoryFile env mapping)))) fun _ s' => s' = s := by
    refine reaches_must .ok s
      ⟨⟨s.files, rfl, fun place hplace => ⟨fun _ => .inl rfl, fun _ => ?_⟩⟩, noCommit rfl⟩ rfl rfl
    obtain rfl : parent = place := by simpa [absolutePlace_dirname htarget] using hplace
    exact (Tree.mkdirs_eq_self fun path hpath => s.files.directory_of_prefix hparent hpath).symm
  refine (Reaches.onlyIf (fun _ => hmkdir) (by simp)).bind ?_
  rintro _ s rfl
  refine (reaches_test hsource false (by simp [Finds, hfile])).bind ?_
  rintro _ s ⟨rfl, rfl⟩
  have hneeds : Reaches (commitWorld ignored clone commits) s (needsUpdate false
      (expandedSourcePath env mapping) (repositoryFile env mapping))
        fun changed s' => changed = true ∧ s' = s := by
    refine (reaches_test htarget true (by simp [Finds, hcopy, hslash'])).bind ?_
    rintro _ s ⟨rfl, rfl⟩
    have hdiff : commitWorld ignored clone commits s (.diff false (expandedSourcePath env mapping)
        (repositoryFile env mapping)) .failed s := by
      refine ⟨⟨rfl, fun place place' hplace hplace' =>
        ⟨fun hok => absurd hok Bool.false_ne_true, fun _ => .inl fun heq => ?_⟩⟩, noCommit rfl⟩
      obtain rfl : source = place := by simpa [hsource] using hplace
      obtain rfl : parent ++ [name] = place' := by simpa [htarget] using hplace'
      have hroot := congrFun heq []
      rw [Tree.subtree_apply, Tree.subtree_apply, List.append_nil, List.append_nil, hfile,
        hcopy] at hroot
      exact hold (by simpa using hroot.symm)
    refine (reaches_succeeds (Q := fun same s' => same = false ∧ s' = s) .failed s hdiff
      ⟨rfl, rfl⟩).bind ?_
    rintro _ s ⟨rfl, rfl⟩
    exact reaches_ret ⟨rfl, rfl⟩
  refine hneeds.bind ?_
  rintro _ s ⟨rfl, rfl⟩
  have hcopied : Reaches (commitWorld ignored clone commits) s (copyOver (expandedSourcePath env mapping)
      (repositoryFile env mapping)) fun _ s' => s' = { s with
        files := s.files.withFile parent name content hparent hfree } := by
    refine (reaches_test hsource false (by simp [Finds, hfile])).bind ?_
    rintro _ s ⟨rfl, rfl⟩
    refine reaches_must .ok _ ⟨⟨s.files.withFile parent name content hparent hfree, rfl,
      fun place place' hplace hplace' => ?_⟩, noCommit rfl⟩ rfl rfl
    obtain rfl : source = place := by simpa [hsource] using hplace
    obtain rfl : parent ++ [name] = place' := by simpa [htarget] using hplace'
    have htarget : copyTarget s.files.tree source (parent ++ [name]) = parent ++ [name] := by
      simp [copyTarget, hcopy]
    rw [htarget, s.files.withFile_tree hfile hparent hfree]
    exact ⟨fun _ hpath => Tree.graft_of_not_below hpath, fun _ => ⟨hapart,
      ⟨by simp [hfile], s.files.accepts_file hfile hparent hfree, rfl⟩, by simp [hslash']⟩⟩
  refine (Reaches.onlyIf (fun _ => hcopied) (by simp)).bind ?_
  rintro _ s rfl
  exact reaches_ret ⟨rfl, hfree, rfl⟩

theorem gitEffect_refl {directory : String} {within : List String} {inClone : Prop}
    (h : inClone) : GitEffect clone directory within s s inClone where
  mayRead := rfl
  mayWrite := rfl
  below _ _ _ _ := rfl
  elsewhere _ _ _ := ⟨rfl, rfl⟩
  inClone _ := h

/-- A `git` command that fails leaves everything as it is. -/
theorem reaches_gitPull_failed {branch : String} :
    Reaches (commitWorld ignored clone commits) s (succeeds (.gitPull true (repository env) branch))
      fun pulled s' => pulled = false ∧ s' = s :=
  reaches_succeeds .failed s ⟨gitEffect_refl ⟨rfl, fun _ => ⟨rfl, fun _ _ => rfl⟩⟩, noCommit rfl⟩
    ⟨rfl, rfl⟩

/-- Whether the commit goes well or not, the push does. -/
theorem reaches_commitAndPush {message : String} (hclone : absolutePlace (repository env) = some clone)
    (hnew : added ignored (workTree s.files.tree clone) (tip s.commits) ≠ tip s.commits)
    (hremote : s.remote <:+ s.commits) :
    Reaches (commitWorld ignored clone commits) s (commitAndPush (repository env) message)
      fun _ s' => s'.mayRead = s.mayRead ∧ s'.files = s.files ∧
        (commits = false → s'.remote = s.remote) := by
  refine (reaches_must (Q := fun _ s' => s' = s) .ok s ⟨gitEffect_refl ⟨rfl, rfl⟩, noCommit rfl⟩
    rfl rfl).bind ?_
  rintro _ s rfl
  cases commits with
  | false =>
    refine (reaches_succeeds (Q := fun committed s' => committed = false ∧ s' = s) .failed s
      ⟨gitEffect_refl ⟨rfl, rfl⟩, fun _ => rfl⟩ ⟨rfl, rfl⟩).bind ?_
    rintro _ s ⟨rfl, rfl⟩
    exact reaches_log.mpr (reaches_ret ⟨rfl, rfl, fun _ => rfl⟩)
  | true =>
    let committed : State := { s with
      commits := added ignored (workTree s.files.tree clone) (tip s.commits) :: s.commits }
    have hcommit : commitWorld ignored clone true s (.gitCommit (repository env) message) .ok
        committed :=
      ⟨⟨rfl, rfl, fun _ _ _ _ => rfl, fun place hplace hne => absurd
        (Option.some.inj (hplace.symm.trans hclone)) hne, fun _ => ⟨rfl, hnew, rfl⟩⟩, fun _ => rfl⟩
    refine (reaches_succeeds (Q := fun ok s' => ok = true ∧ s' = committed) .ok committed hcommit
      ⟨rfl, rfl⟩).bind ?_
    rintro _ _ ⟨rfl, rfl⟩
    let pushed : State := { committed with remote := committed.commits }
    have hpush : commitWorld ignored clone true committed (.gitPush (repository env)) .ok pushed :=
      ⟨⟨rfl, rfl, fun _ _ _ _ => rfl, fun place hplace hne => absurd
        (Option.some.inj (hplace.symm.trans hclone)) hne,
          fun _ => ⟨rfl, .inr ⟨hremote.trans (List.suffix_cons _ _), rfl⟩, fun _ => rfl⟩⟩, noCommit rfl⟩
    refine (reaches_succeeds (Q := fun ok s' => ok = true ∧ s' = pushed) .ok pushed hpush
      ⟨rfl, rfl⟩).bind ?_
    rintro _ _ ⟨rfl, rfl⟩
    exact reaches_ret ⟨rfl, rfl, fun hfalse => absurd hfalse.symm Bool.false_ne_true⟩

theorem reaches_pushVersion (hclone : absolutePlace (repository env) = some clone)
    (hplace : absolutePlace (versionFile env) = some (clone ++ [".version"]))
    (hparent : s.files.tree clone = some .directory)
    (hnone : s.files.tree (clone ++ [".version"]) = none)
    (hignored : ignored [".version"] = false) (htip : tip s.commits [".version"] = none)
    (hremote : s.remote <:+ s.commits) :
    Reaches (commitWorld ignored clone commits) s (pushVersion env) fun _ s' =>
      s'.mayRead = s.mayRead ∧ (commits = false → s'.remote = s.remote) ∧
        ∀ path, path ≠ clone ++ [".version"] → s'.files.tree path = s.files.tree path := by
  have hversion : Reaches (commitWorld ignored clone commits) s (getVersion env)
      fun version s' => version = "0.0.0" ∧ s' = s := by
    refine (reaches_test hplace false (by simp [Finds, hnone])).bind ?_
    rintro _ s ⟨rfl, rfl⟩
    exact reaches_ret ⟨rfl, rfl⟩
  refine hversion.bind ?_
  rintro _ s ⟨rfl, rfl⟩
  have hnew : incrementVersion "0.0.0" = some "0.0.1" := by decide
  rw [hnew]
  have hfree : s.files.tree (clone ++ [".version"]) ≠ some .directory := by simp [hnone]
  let written : State :=
    { s with files := s.files.withFile clone ".version" ("0.0.1" ++ "\n") hparent hfree }
  have hother : ∀ path, path ≠ clone ++ [".version"] →
      written.files.tree path = s.files.tree path := fun _ hpath => if_neg hpath
  have hself : written.files.tree (clone ++ [".version"]) = some (.file ("0.0.1" ++ "\n")) :=
    if_pos rfl
  have hwrite : Reaches (commitWorld ignored clone commits) s
      (must (.write (versionFile env) "0.0.1")) fun _ s' => s' = written := by
    refine reaches_must .ok written ⟨⟨_, rfl, fun place' hplace' => ?_⟩, noCommit rfl⟩ rfl rfl
    obtain rfl : clone ++ [".version"] = place' := by simpa [hplace] using hplace'
    exact ⟨hother, fun _ => hself⟩
  refine hwrite.bind ?_
  rintro _ _ rfl
  refine (reaches_ask (Q := fun _ s' => s' = written) .ok written
    ⟨⟨rfl, fun h => absurd h (by decide)⟩, noCommit rfl⟩ rfl).bind ?_
  rintro now _ rfl
  have hadded : added ignored (workTree written.files.tree clone) (tip written.commits) ≠
      tip written.commits := by
    intro heq
    have hcontent := congrFun heq [".version"]
    rw [show tip written.commits [".version"] = none from htip, added, hignored, Bool.false_and,
      if_neg Bool.false_ne_true, workTree, if_neg (by decide), fileAt, hself] at hcontent
    cases hcontent
  refine (reaches_commitAndPush hclone hadded hremote).bind ?_
  rintro _ s' ⟨hmayRead, hfiles, hremote'⟩
  refine reaches_log.mpr (reaches_ret ⟨hmayRead, hremote', fun path hpath => ?_⟩)
  rw [hfiles]
  exact hother path hpath

/-! ## The run -/

/-- The checks at the start, and pulls that fail. -/
theorem reaches_start : Reaches (commitWorld ignored oneClone commits) oneState (do
    let initialized ← succeeds (.test .directory oneDotfile.dotfilesRepo)
    Program.onlyIf (!initialized) (die "Repository not initialized. Run: init <repo-url>" :
      Script Unit)) fun _ s' => s' = oneState := by
  have hclone : absolutePlace oneDotfile.dotfilesRepo = some oneClone := by decide
  have hdirectory : oneState.files.tree oneClone = some .directory := by decide
  refine (reaches_test hclone true (by simpa [Finds] using hdirectory)).bind ?_
  rintro _ _ ⟨rfl, rfl⟩
  exact reaches_ret rfl

theorem reaches_acquireLock : Reaches (commitWorld ignored clone commits) s acquireLock
    fun _ s' => s' = s := by
  refine (reaches_succeeds (Q := fun ready s' => ready = true ∧ s' = s) .ok s ⟨rfl, noCommit rfl⟩
    ⟨rfl, rfl⟩).bind ?_
  rintro _ s ⟨rfl, rfl⟩
  exact reaches_ret rfl

theorem reaches_pullLatest : Reaches (commitWorld ignored clone commits) s
    (pullLatest (repository env)) fun _ s' => s' = s := by
  refine reaches_gitPull_failed.bind ?_
  rintro _ s ⟨rfl, rfl⟩
  refine reaches_gitPull_failed.bind ?_
  rintro _ s ⟨rfl, rfl⟩
  exact reaches_log.mpr (reaches_ret rfl)

/-- The files once the copy in the clone is the new one. -/
def copiedFiles : Volume String String :=
  (userFiles "old" "new").withFile (oneClone ++ ["zsh"]) ".zshrc" "new" (by decide) (by decide)

def copiedState : State := { oneState with files := copiedFiles }

theorem copiedState_absent {mapping : String} (h : mapping ∈ (fileMappings oneDotfile).tail) :
    ∃ place, absolutePlace (expandedSourcePath oneDotfile mapping) = some place ∧
      copiedState.files.tree place = none := by
  obtain ⟨source, target, hsource, -, hstray⟩ := exists_stray h
  have hne : source ≠ oneClone ++ ["zsh"] ++ [".zshrc"] := by
    rintro rfl
    exact hstray.notBelow (by decide)
  exact ⟨source, hsource, (if_neg hne).trans hstray.source_absent⟩

theorem fileMappings_oneDotfile : fileMappings oneDotfile = "/home/user/.zshrc:zsh/.zshrc" ::
    (fileMappings oneDotfile).tail := rfl

theorem reaches_pushMappings : Reaches (commitWorld ignored oneClone commits) oneState
    (Program.mapEach (fileMappings oneDotfile) (pushMapping oneDotfile false))
      fun values s' => values.any id = true ∧ s' = copiedState := by
  have hfirst : Reaches (commitWorld ignored oneClone commits) oneState
      (pushMapping oneDotfile false "/home/user/.zshrc:zsh/.zshrc") fun changed s' =>
        changed = true ∧ s' = copiedState :=
    (reaches_pushMapping (by decide : _ = some ["home", "user", ".zshrc"]) (by decide) (by decide)
      (by decide) (by decide) rfl (by decide) ⟨"old", by decide, by decide⟩
        (by decide)).mono
        fun _ _ h => ⟨h.1, h.2.2⟩
  rw [fileMappings_oneDotfile]
  refine hfirst.bind ?_
  rintro _ _ ⟨rfl, rfl⟩
  refine (reaches_pushMapping_absent (s := copiedState) fun _ => copiedState_absent).bind ?_
  rintro values _ ⟨rfl, -⟩
  exact reaches_ret ⟨rfl, rfl⟩

theorem reaches_pushChanges : Reaches (commitWorld (fun _ => false) oneClone commits) oneState
    (pushChanges oneDotfile false) fun _ s' => s'.mayRead = oneState.mayRead ∧
      s'.files.tree ["home", "user", ".zshrc"] = some (.file "new") ∧
        (commits = false → s'.remote = oneState.remote) := by
  have hskip : ∀ p : Script Unit, Reaches (commitWorld (fun _ => false) oneClone commits) oneState
      (Program.onlyIf false p) fun _ s' => s' = oneState := fun _ => reaches_ret rfl
  have hload : Reaches (commitWorld (fun _ => false) oneClone commits) oneState
      (loadFileMappings oneDotfile) fun _ s' => s' = oneState := reaches_ret rfl
  rw [pushChanges, ← bind_assoc]
  refine reaches_start.bind ?_
  rintro _ _ rfl
  refine reaches_acquireLock.bind ?_
  rintro _ _ rfl
  refine (hskip _).bind ?_
  rintro _ _ rfl
  refine hload.bind ?_
  rintro _ _ rfl
  refine (reaches_ask (Q := fun answer s' => answer = .ok ∧ s' = oneState) .ok oneState ⟨rfl, noCommit rfl⟩
    ⟨rfl, rfl⟩).bind ?_
  rintro _ _ ⟨rfl, rfl⟩
  refine (hskip _).bind ?_
  rintro _ _ rfl
  refine reaches_pullLatest.bind ?_
  rintro _ _ rfl
  refine reaches_pushMappings.bind ?_
  rintro values s ⟨hvalues, rfl⟩
  rw [if_pos hvalues]
  have hclone : absolutePlace (repository oneDotfile) = some oneClone := by decide
  have hversion : absolutePlace (versionFile oneDotfile) = some (oneClone ++ [".version"]) := by
    decide
  refine (reaches_pushVersion hclone hversion (by decide) (by decide) rfl (by decide)
    (List.suffix_refl _)).mono ?_
  rintro _ s' ⟨hmayRead, hremote, hfiles⟩
  refine ⟨hmayRead, ?_, hremote⟩
  rw [hfiles _ (by decide)]
  decide

theorem history_start : History (fun _ => false) oneClone [] oneState :=
  .start (List.suffix_refl _) fun _ _ _ => rfl

/-- The only mapped file. -/
theorem mapped_zshrc {s : State} (hmayRead : s.mayRead = oneState.mayRead)
    (hfile : s.files.tree ["home", "user", ".zshrc"] = some (.file "new")) :
    Mapped oneDotfile oneClone s "/home/user/.zshrc:zsh/.zshrc" ["home", "user", ".zshrc"]
      ["zsh", ".zshrc"] where
  sourcePlace := by decide
  targetPlace := by decide
  found := ⟨by simp [hfile], fun h => absurd h (by decide)⟩
  readable := by
    rw [hmayRead]
    rfl

/-- The mapped file is the only one, so nothing is in its way. -/
theorem clear_oneState : Clear (fun _ => false) oneDotfile oneClone oneState := by
  have hfirst : ∀ mapping ∈ fileMappings oneDotfile, ∃ source target,
      absolutePlace (expandedSourcePath oneDotfile mapping) = some source ∧
        absolutePlace (repositoryFile oneDotfile mapping) = some (oneClone ++ target) ∧
          (source = ["home", "user", ".zshrc"] ∧ target = ["zsh", ".zshrc"] ∨
            Stray source target) := by
    rw [fileMappings_oneDotfile, List.forall_mem_cons]
    refine ⟨⟨_, _, (by decide : _ = some ["home", "user", ".zshrc"]),
      (by decide : _ = some (oneClone ++ ["zsh", ".zshrc"])), .inl ⟨rfl, rfl⟩⟩, fun mapping h => ?_⟩
    obtain ⟨source, target, hsource, htarget, hstray⟩ := exists_stray h
    exact ⟨source, target, hsource, htarget, .inr hstray⟩
  have hplaces : ∀ mapping ∈ fileMappings oneDotfile, ∀ source target,
      absolutePlace (expandedSourcePath oneDotfile mapping) = some source →
        absolutePlace (repositoryFile oneDotfile mapping) = some (oneClone ++ target) →
          source = ["home", "user", ".zshrc"] ∧ target = ["zsh", ".zshrc"] ∨
            Stray source target := by
    intro mapping hmem source target hsource htarget
    obtain ⟨source', target', hsource', htarget', h⟩ := hfirst mapping hmem
    obtain rfl : source' = source := by simpa [hsource'] using hsource
    obtain rfl : target' = target := by simpa [htarget'] using htarget
    exact h
  have honly : ∀ mapping ∈ fileMappings oneDotfile, ∀ source target,
      Mapped oneDotfile oneClone oneState mapping source target →
        source = ["home", "user", ".zshrc"] ∧ target = ["zsh", ".zshrc"] := by
    intro mapping hmem source target hmapped
    refine (hplaces mapping hmem source target hmapped.sourcePlace
      hmapped.targetPlace).resolve_right fun hstray => ?_
    exact hmapped.found.1 hstray.source_absent
  refine ⟨?_, ?_, ⟨oneClone ++ [".version"], by decide, ?_⟩, ?_, ?_, ?_, ?_⟩
  · intro mapping hmem
    obtain ⟨source, target, hsource, htarget, -⟩ := hfirst mapping hmem
    exact ⟨source, target, hsource, htarget⟩
  · intro mapping hmem source hsource
    obtain ⟨source', target, hsource', -, h⟩ := hfirst mapping hmem
    obtain rfl : source' = source := by simpa [hsource'] using hsource
    rcases h with ⟨rfl, -⟩ | hstray
    · decide
    · exact ⟨hstray.notBelow, hstray.notAbove⟩
  · intro mapping hmem source target hsource htarget
    rcases hplaces mapping hmem source target hsource htarget with ⟨rfl, rfl⟩ | hstray
    · decide
    · rw [List.prefix_append_right_inj]
      refine ⟨fun hpre => ?_, hstray.notVersion⟩
      exact (List.prefix_or_prefix_of_prefix hpre (List.prefix_append _ _)).elim
        hstray.notAbove hstray.notBelow
  · intro mapping hmem source target hmapped
    obtain ⟨rfl, rfl⟩ := honly mapping hmem source target hmapped
    decide
  · intro mapping hmem mapping' hmem' source target source' target' hmapped hmapped'
    obtain ⟨rfl, rfl⟩ := honly mapping hmem source target hmapped
    obtain ⟨rfl, rfl⟩ := honly mapping' hmem' source' target' hmapped'
    exact .inl ⟨rfl, rfl⟩
  · intro mapping hmem source target hmapped _
    obtain ⟨rfl, rfl⟩ := honly mapping hmem source target hmapped
    decide
  · exact fun _ _ _ _ _ _ _ => rfl

end ArchInstaller.DotfilesSync
