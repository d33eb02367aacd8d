import ArchInstaller.Verify.DotfilesPull
import ArchInstaller.Verify.DotfilesPush

/-! # Pushing and pulling

What a push copies into the clone is what a second push compares with, and what a pull brings back.
`cp` copies a file into a directory that has its name, on either side, and the two do not become the
same. -/

namespace ArchInstaller.DotfilesSync

open Files Interaction PyText Shell

variable {ignored : List String → Bool} {clone : List String} {env : Environment}
  {mapping : String} {s s' p : State} {source target : List String}

/-! ## The claim -/

/-- What a push does before it copies. -/
def startPush (env : Environment) : Script Unit := do
  let initialized ← succeeds (.test .directory env.dotfilesRepo)
  Program.onlyIf (!initialized) (die "Repository not initialized. Run: init <repo-url>")
  acquireLock
  Program.onlyIf (!env.skipSshCheck) (checkSsh "push")
  loadFileMappings env
  let remoteUrl ← ask (.gitRemoteUrl (repository env))
  Program.onlyIf (remoteUrl.output != "") do
    let _ ← ask (.testGitConnection remoteUrl.output)
  Program.onlyIf (!false) (pullLatest (repository env))

def copyMapped (env : Environment) : Script (List Bool) :=
  Program.mapEach (fileMappings env) (pushMapping env false)

def finishPush (env : Environment) (updates : List Bool) : Script Unit :=
  if updates.any id then
    Program.onlyIf (!false) (pushVersion env)
  else echo "No changes to push. Everything is in sync."

theorem pushChanges_eq : pushChanges env false = (do
    startPush env
    let updates ← copyMapped env
    finishPush env updates) := by
  simp only [pushChanges, startPush, copyMapped, finishPush, bind_assoc]

/-- What a pull does before it copies. -/
def startPull (env : Environment) : Script Unit := do
  let initialized ← succeeds (.test .directory env.dotfilesRepo)
  Program.onlyIf (!initialized) (die "Repository not initialized. Run: init <repo-url>")
  acquireLock
  Program.onlyIf (!env.skipSshCheck) (checkSsh "pull")
  Program.onlyIf (!false) (pullFromRemote env.dotfilesRepo)
  loadFileMappings env

def restoreMapped (env : Environment) : Script (List Pulled) :=
  Program.mapEach (fileMappings env) (pullMapping env false true)

def finishPull (env : Environment) (pulled : List Pulled) : Script Unit :=
  if pulled.all (· == .unchanged) then echo "No changes to pull. Everything is in sync."
  else Program.onlyIf (!false) do
    let version ← getVersion env
    echo s!"Pull complete. Version: {version}"

theorem pullChanges_eq : pullChanges env false true = (do
    startPull env
    let pulled ← restoreMapped env
    finishPull env pulled) := by
  simp only [pullChanges, startPull, restoreMapped, finishPull, bind_assoc]

/-- A run from one state to another. -/
def Leads {α : Type} (ignored : List String → Bool) (clone : List String) (program : Script α)
    (s : State) (outcome : Outcome Exit α) (s' : State) : Prop :=
  ∃ exchanges, Runs program exchanges outcome ∧ Replays (world ignored clone) s exchanges s'

/-- A push that copies from the state `s` and a pull that copies from the state `p`, once that has
what was pushed. -/
structure Mirrors (ignored : List String → Bool) (clone : List String) (env : Environment)
    (s p : State) : Prop where
  copied : ∀ updates s', Leads ignored clone (copyMapped env) s (.returned updates) s' →
    ∀ mapping ∈ fileMappings env, ∀ source target, Mapped env clone s mapping source target →
      s'.files.tree.subtree (clone ++ target) = s.files.tree.subtree source
  settled : ∀ updates s', Leads ignored clone (copyMapped env) s (.returned updates) s' →
    ∀ outcome finished, Leads ignored clone (finishPush env updates) s' outcome finished →
      ∀ started, Leads ignored clone (startPush env) finished (.returned ()) started →
        ∀ updates' s'', Leads ignored clone (copyMapped env) started (.returned updates') s'' →
          updates'.any id = false
  restored : ∀ updates s', Leads ignored clone (copyMapped env) s (.returned updates) s' →
    (∀ mapping ∈ fileMappings env, ∀ source target, Mapped env clone s mapping source target →
      p.files.tree.subtree (clone ++ target) = s'.files.tree.subtree (clone ++ target)) →
    ∀ pulled p', Leads ignored clone (restoreMapped env) p (.returned pulled) p' →
      ∀ mapping ∈ fileMappings env, ∀ source target, Mapped env clone s mapping source target →
        p.mayWrite source.dropLast →
          p'.files.tree.subtree source = s.files.tree.subtree source

/-- No mapped file has its path in the repository above that of another one. -/
def RepositoryPathsApart (env : Environment) (clone : List String) (s : State) : Prop :=
  ∀ mapping ∈ fileMappings env, ∀ mapping' ∈ fileMappings env,
    ∀ source target source' target', Mapped env clone s mapping source target →
      Mapped env clone s mapping' source' target' →
        mapping = mapping' ∨ ¬ target <+: target' ∧ ¬ target' <+: target

/-! ## The condition -/

/-- The mapped files can be copied into the clone, and nothing else changes there. -/
structure Pushable (env : Environment) (clone : List String) (s : State) : Prop where
  placed : Placed env clone s
  isClone : absolutePlace (repository env) = some clone
  upToDate : s.remote <:+ s.commits
  readable : ∀ mapping ∈ fileMappings env, ∀ source target,
    Mapped env clone s mapping source target →
      ∀ rest, s.mayRead (source ++ rest) ∧ s.mayRead (clone ++ target ++ rest)
  version : ∃ place, absolutePlace (versionFile env) = some place ∧
    ∀ mapping ∈ fileMappings env, ∀ source target,
      absolutePlace (expandedSourcePath env mapping) = some source →
        absolutePlace (repositoryFile env mapping) = some (clone ++ target) →
          ¬ source <+: place ∧ ¬ clone ++ target <+: place

/-! ## What is copied -/

theorem Leads.returns {α : Type} {program : Script α} {value : α}
    {Q : List (Command × Answer) → α → State → Prop}
    (h : Leads ignored clone program s (.returned value) s')
    (hreturns : Returns (world ignored clone) s program Q) : ∃ exchanges, Q exchanges value s' := by
  obtain ⟨exchanges, hrun, hreplay⟩ := h
  exact ⟨exchanges, hreturns exchanges value s' hrun hreplay⟩

/-- The copies are the local files, which are as they were. -/
theorem Looped.copied {exchanges : List (Command × Answer)} {values : List Bool}
    (h : Looped env clone s (fileMappings env) exchanges values s')
    (hmem : mapping ∈ fileMappings env) (hmapped : Mapped env clone s mapping source target) :
    s'.files.tree.subtree (clone ++ target) = s.files.tree.subtree source := by
  rw [← h.agrees mapping hmem hmem source target hmapped]
  funext rest
  exact h.sources.files mapping hmem source hmapped.sourcePlace rest

/-! ## Between two pushes -/

/-- The commands with which a push begins and ends. -/
def Command.Frames (env : Environment) : Command → Prop
  | .rm _ | .cp .. | .mkdir _ => False
  | .write word _ => word = versionFile env
  | .gitPull _ directory _ | .gitAdd directory | .gitCommit directory _ | .gitPush directory =>
    directory = repository env
  | _ => True

/-- What `git` keeps for itself and the version file may be others. -/
structure Framed (clone version : List String) (s s' : State) : Prop where
  mayRead : s'.mayRead = s.mayRead
  files : ∀ path, ¬ clone ++ [".git"] <+: path → path ≠ version →
    s'.files.tree path = s.files.tree path

variable {version : List String}

theorem Framed.refl : Framed clone version s s := ⟨rfl, fun _ _ _ => rfl⟩

theorem Framed.trans {s'' : State} (h : Framed clone version s s')
    (h' : Framed clone version s' s'') : Framed clone version s s'' where
  mayRead := h'.mayRead.trans h.mayRead
  files path hgit hversion := (h'.files path hgit hversion).trans (h.files path hgit hversion)

theorem GitOnly.framed (h : GitOnly clone s s') : Framed clone version s s' where
  mayRead := h.mayRead
  files path hgit _ := h.files path hgit

theorem Command.Frames.inClone {command : Command} (h : command.Frames env) :
    InClone env command := by
  cases command <;> simp_all [Command.Frames, InClone]

theorem Command.Frames.step {command : Command} {answer : Answer} (h : command.Frames env)
    (hclone : absolutePlace (repository env) = some clone)
    (hversion : absolutePlace (versionFile env) = some version)
    (hstep : world ignored clone s command answer s') (hremote : s.remote <:+ s.commits) :
    Framed clone version s s' := by
  cases command <;> simp only [Command.Frames] at h
  case write =>
    subst h
    obtain ⟨files, rfl, heffect⟩ := hstep
    exact ⟨rfl, fun path _ hpath => (heffect version hversion).1 path hpath⟩
  case gitPull =>
    subst h
    exact GitOnly.framed ⟨hstep.mayRead, ((hstep.inClone hclone).2 hremote).2⟩
  case gitAdd | gitCommit | gitPush =>
    subst h
    exact GitOnly.framed ⟨hstep.mayRead, hstep.below clone hclone⟩
  case test | testReadable | testWritable | diff | date | cat =>
    obtain ⟨rfl, -⟩ := hstep
    exact .refl
  all_goals
    obtain rfl := hstep
    exact .refl

theorem issues_startPush : Issues (Command.Frames env) (startPush env) := by
  have hload : Issues (Command.Frames env) (loadFileMappings env) := by
    rw [loadFileMappings]
    split <;> simp
  simp [startPush, die, acquireLock, checkSsh, hload, pullLatest, Command.Frames]

theorem issues_finishPush {updates : List Bool} :
    Issues (Command.Frames env) (finishPush env updates) := by
  rw [finishPush]
  split
  · refine issues_bind.mpr ⟨by simp [getVersion, Command.Frames], fun version _ => ?_⟩
    split
    · exact issues_exit
    · simp [commitAndPush, Command.Frames]
  · exact issues_echo

theorem Leads.framed {α : Type} {program : Script α} {outcome : Outcome Exit α}
    (h : Leads ignored clone program s outcome s') (hissues : Issues (Command.Frames env) program)
    (hclone : absolutePlace (repository env) = some clone)
    (hversion : absolutePlace (versionFile env) = some version) (hremote : s.remote <:+ s.commits) :
    Framed clone version s s' ∧ s'.remote <:+ s'.commits := by
  obtain ⟨exchanges, hrun, hreplay⟩ := h
  refine hissues.preserves (P := fun mid => Framed clone version s mid ∧ mid.remote <:+ mid.commits)
    (fun command answer mid mid' hframes hmid hstep => ?_) allAllowed_true hrun hreplay
      ⟨.refl, hremote⟩
  exact ⟨hmid.1.trans (hframes.step hclone hversion hstep hmid.2),
    step_suffix hframes.inClone hclone hstep hmid.2⟩

theorem Framed.sources (h : Framed clone version s s') (houtside : ∀ mapping ∈ fileMappings env,
      ∀ source, absolutePlace (expandedSourcePath env mapping) = some source →
        ¬ clone <+: source ∧ ¬ source <+: clone)
    (hfree : ∀ mapping ∈ fileMappings env, ∀ source,
      absolutePlace (expandedSourcePath env mapping) = some source → ¬ source <+: version) :
    SameSources env s s' where
  mayRead := h.mayRead
  files mapping hmem source hsource rest := by
    obtain ⟨hbelow, habove⟩ := houtside mapping hmem source hsource
    refine h.files _ (fun hpre => ?_) ?_
    · exact not_prefix_append hbelow habove rest ((List.prefix_append _ _).trans hpre)
    · rintro rfl
      exact hfree mapping hmem source hsource (List.prefix_append _ _)

theorem Framed.sameCopy (h : Framed clone version s s')
    (hinside : ¬ [".git"] <+: target ∧ ¬ target <+: [".git"])
    (hfree : ¬ clone ++ target <+: version) : SameCopy clone s s' target := by
  funext rest
  refine h.files _ (fun hpre => ?_) ?_
  · rw [List.append_assoc, List.prefix_append_right_inj] at hpre
    exact not_prefix_append hinside.1 hinside.2 rest hpre
  · rintro rfl
    exact hfree (List.prefix_append _ _)

/-! ## A push with nothing to copy -/

/-- A mapped file that is the same as its copy. -/
theorem returns_pushMapping_same (h : Mapped env clone s mapping source target)
    (hbelow : ¬ source <+: clone ++ target) (hplace : clone ++ target ≠ [])
    (hagrees : Agrees clone s source target)
    (hread : ∀ rest, s.mayRead (source ++ rest) ∧ s.mayRead (clone ++ target ++ rest)) :
    Returns (world ignored clone) s (pushMapping env false mapping)
      fun _ changed _ => changed = false := by
  refine returns_pushMapping_of h hbelow
    fun first made directory _ honly hmade hmadeSource hdirectory => ?_
  have hroot := hmadeSource []
  rw [List.append_nil] at hroot
  have hsame : Agrees clone made source target := by
    funext rest
    rw [Tree.subtree_apply, Tree.subtree_apply, hmadeSource, hmade.below hplace]
    exact congrFun hagrees rest
  have hmayRead : made.mayRead = s.mayRead := by rw [honly]
  refine (returns_needsUpdate_same h.sourcePlace h.targetPlace (hroot ▸ h.found.1)
    (by rwa [hroot]) hsame (fun rest => by rw [hmayRead]; exact (hread rest).1)
      fun rest => by rw [hmayRead]; exact (hread rest).2).bind fun second changed mid hmid => ?_
  obtain ⟨rfl, hchanged⟩ := hmid
  refine (Returns.onlyIf (Q := fun _ _ _ => changed = false) (fun hyes => ?_)
    (by simp)).bind fun _ _ _ hunchanged => returns_ret hunchanged
  obtain ⟨hfile, hslash⟩ := hchanged (by simpa using hyes)
  have hcopy := congrFun hsame []
  rw [Tree.subtree_apply, Tree.subtree_apply, List.append_nil, List.append_nil] at hcopy
  exact (returns_copyOver_slash h.sourcePlace h.targetPlace hfile (hcopy ▸ hfile) hslash).mono
    fun _ _ _ => False.elim

theorem Placed.of_agrees (h : Placed env clone s) (hsources : SameSources env s s')
    (hagrees : ∀ mapping ∈ fileMappings env, ∀ source target,
      Mapped env clone s mapping source target → Agrees clone s' source target) :
    Placed env clone s' := by
  have hmapped : ∀ mapping ∈ fileMappings env, ∀ source target,
      Mapped env clone s' mapping source target → Mapped env clone s mapping source target :=
    fun mapping hmem source target hmapped => hmapped.of_sameSources hsources.symm hmem
  refine ⟨h.named, h.outside, ?_, ?_, ?_⟩
  · exact fun mapping hmem source target hs' =>
      h.inside mapping hmem source target (hmapped mapping hmem source target hs')
  · exact fun mapping hmem mapping' hmem' source target source' target' hs' hs'' =>
      h.apart mapping hmem mapping' hmem' source target source' target'
        (hmapped mapping hmem source target hs') (hmapped mapping' hmem' source' target' hs'')
  · intro mapping hmem source target hs' hfile
    have hroot := congrFun
      (hagrees mapping hmem source target (hmapped mapping hmem source target hs')) []
    simp only [Tree.subtree_apply, List.append_nil] at hroot
    rwa [← hroot]

theorem returns_copyMapped_same (h : Placed env clone s)
    (hagrees : ∀ mapping ∈ fileMappings env, ∀ source target,
      Mapped env clone s mapping source target → Agrees clone s source target)
    (hread : ∀ mapping ∈ fileMappings env, ∀ source target,
      Mapped env clone s mapping source target →
        ∀ rest, s.mayRead (source ++ rest) ∧ s.mayRead (clone ++ target ++ rest)) :
    Returns (world ignored clone) s (copyMapped env) fun _ values _ => values.any id = false := by
  refine (Returns.mapEach (I := fun done exchanges values s' =>
    Looped env clone s done exchanges values s' ∧ values.any id = false) ⟨.start, rfl⟩
      fun done mapping left exchanges values mid hxs hmid => ?_).mono fun _ _ _ hs' => hs'.2
  obtain ⟨hlooped, hvalues⟩ := hmid
  have hmem : mapping ∈ fileMappings env := by simp [hxs]
  have hunchanged : Returns (world ignored clone) mid (pushMapping env false mapping)
      fun _ changed _ => changed = false := by
    obtain ⟨source, target, hsource, htarget⟩ := h.named mapping hmem
    by_cases hmapped : Mapped env clone s mapping source target
    · obtain ⟨hbelow, habove⟩ := h.outside mapping hmem source hsource
      have hmayRead : mid.mayRead = s.mayRead := by rw [hlooped.onlyFiles]
      refine returns_pushMapping_same (hmapped.of_sameSources hlooped.sources hmem)
        (not_prefix_append habove hbelow target) (h.target_ne_nil hmem hmapped) ?_ ?_
      · exact (hlooped.each mapping hmem source target hmapped).elim id
          ((hagrees mapping hmem source target hmapped).of_sameCopy hlooped.sources hmem hsource)
      · rw [hmayRead]
        exact hread mapping hmem source target hmapped
    · refine (returns_pushMapping_absent hsource htarget fun hmapped' =>
        hmapped (hmapped'.of_sameSources hlooped.sources.symm hmem)).mono ?_
      exact fun _ _ _ hs' => hs'.2.1
  intro exchanges' changed s' hrun hreplay
  refine ⟨hlooped.returns_pushMapping h hmem exchanges' changed s' hrun hreplay, ?_⟩
  rw [List.any_append, hvalues, hunchanged exchanges' changed s' hrun hreplay]
  rfl

/-! ## The theorem -/

theorem Pushable.sameAfter (h : Pushable env clone s) {exchanges : List (Command × Answer)}
    {values : List Bool} (hlooped : Looped env clone s (fileMappings env) exchanges values s')
    (hversion : absolutePlace (versionFile env) = some version) {s'' : State}
    (hframed : Framed clone version s' s'') : SameSources env s s'' ∧
      ∀ mapping ∈ fileMappings env, ∀ source target, Mapped env clone s mapping source target →
        Agrees clone s'' source target := by
  obtain ⟨place, hplace, hfree⟩ := h.version
  obtain rfl : version = place := by simpa [hversion] using hplace
  have hsources : SameSources env s' s'' := hframed.sources h.placed.outside
    fun mapping hmem source hsource => by
      obtain ⟨source', target, hsource', htarget⟩ := h.placed.named mapping hmem
      exact (hfree mapping hmem source target hsource htarget).1
  refine ⟨hlooped.sources.trans hsources, fun mapping hmem source target hmapped => ?_⟩
  refine (hlooped.agrees mapping hmem hmem source target hmapped).of_sameCopy hsources hmem
    hmapped.sourcePlace (hframed.sameCopy (h.placed.inside mapping hmem source target hmapped) ?_)
  exact (hfree mapping hmem source target hmapped.sourcePlace hmapped.targetPlace).2

end ArchInstaller.DotfilesSync
