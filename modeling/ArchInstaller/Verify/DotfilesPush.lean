import ArchInstaller.Verify.DotfilesCommands

/-! # Pushing dotfiles

A push whose commit or `git push` fails leaves what it copied in the clone. The next push compares
the local files with the clone, finds nothing to do and ends with status 0, and the remote branch
still has the old files. -/

namespace ArchInstaller.DotfilesSync

open Files Interaction PyText Shell

variable {ignored : List String → Bool} {clone : List String} {env : Environment}
  {mapping : String} {s s' : State} {source target : List String}

/-! ## The claim -/

/-- A mapped file that is there and readable, with its places outside of and in the clone. -/
structure Mapped (env : Environment) (clone : List String) (s : State) (mapping : String)
    (source target : List String) : Prop where
  sourcePlace : absolutePlace (expandedSourcePath env mapping) = some source
  targetPlace : absolutePlace (repositoryFile env mapping) = some (clone ++ target)
  found : Finds s.files.tree (expandedSourcePath env mapping) source .exists
  readable : s.mayRead source

/-- The remote branch holds every mapped file. -/
def Holds (env : Environment) (clone : List String) (s : State) : Prop :=
  ∀ mapping ∈ fileMappings env, ∀ source target, Mapped env clone s mapping source target →
    ∀ rest, tip s.remote (target ++ rest) = fileAt s.files.tree (source ++ rest)

/-- A push that is not a dry run, from the state it starts in to the one it leaves. -/
structure PushRun where
  env : Environment
  before : State
  exchanges : List (Command × Answer)
  outcome : Outcome Exit Unit
  after : State

/-- The remote branch has the files of the clone, but for the version file. -/
def Published (ignored : List String → Bool) (clone : List String) (s : State) : Prop :=
  ∀ path, path ≠ [".version"] →
    (ignored path → workTree s.files.tree clone path = none) →
      tip s.remote path = workTree s.files.tree clone path

/-- Local edits and pushes in any order, with the pushes listed from the newest to the oldest. At
first the clone is in step with the remote branch. -/
inductive History (ignored : List String → Bool) (clone : List String) :
    List (PushRun) → State → Prop
  | start {s : State} (hhistory : s.remote <:+ s.commits) (hpublished : Published ignored clone s) :
    History ignored clone [] s
  | edit {s s' : State} {runs : List (PushRun)} (h : History ignored clone runs s)
    (hcommits : s'.commits = s.commits) (hremote : s'.remote = s.remote)
    (hclone : ∀ path, clone <+: path → s'.files.tree path = s.files.tree path) :
    History ignored clone runs s'
  | push {s s' : State} {env : Environment} {runs : List (PushRun)} {exchanges : List (Command × Answer)}
    {outcome : Outcome Exit Unit} (h : History ignored clone runs s)
    (hclone : absolutePlace (repository env) = some clone)
    (hrun : Runs (pushChanges env false) exchanges outcome)
    (hreplay : Replays (world ignored clone) s exchanges s') :
    History ignored clone (⟨env, s, exchanges, outcome, s'⟩ :: runs) s'

/-- A push that exits with status 0 leaves the remote branch with the files. -/
def PushRun.Holds (clone : List String) (run : PushRun) : Prop :=
  run.outcome = .returned () → DotfilesSync.Holds run.env clone run.after

/-! ## The condition -/

/-- A local path and the path in the clone have the same files. -/
def Agrees (clone : List String) (s : State) (source target : List String) : Prop :=
  s.files.tree.subtree source = s.files.tree.subtree (clone ++ target)

/-- The places of the mapped files do not get in each other's way. -/
structure Clear (ignored : List String → Bool) (env : Environment) (clone : List String)
    (s : State) : Prop where
  named : ∀ mapping ∈ fileMappings env, ∃ source target,
    absolutePlace (expandedSourcePath env mapping) = some source ∧
      absolutePlace (repositoryFile env mapping) = some (clone ++ target)
  outside : ∀ mapping ∈ fileMappings env, ∀ source,
    absolutePlace (expandedSourcePath env mapping) = some source →
      ¬ clone <+: source ∧ ¬ source <+: clone
  version : ∃ place, absolutePlace (versionFile env) = some place ∧
    ∀ mapping ∈ fileMappings env, ∀ source target,
      absolutePlace (expandedSourcePath env mapping) = some source →
        absolutePlace (repositoryFile env mapping) = some (clone ++ target) →
          ¬ source <+: place ∧ ¬ clone ++ target <+: place
  inside : ∀ mapping ∈ fileMappings env, ∀ source target,
    Mapped env clone s mapping source target →
      ¬ [".git"] <+: target ∧ ¬ target <+: [".git"] ∧ ¬ target <+: [".version"]
  apart : ∀ mapping ∈ fileMappings env, ∀ mapping' ∈ fileMappings env,
    ∀ source target source' target', Mapped env clone s mapping source target →
      Mapped env clone s mapping' source' target' →
        source = source' ∧ target = target' ∨ ¬ target <+: target' ∧ ¬ target' <+: target
  sameKind : ∀ mapping ∈ fileMappings env, ∀ source target,
    Mapped env clone s mapping source target → s.files.tree source ≠ some .directory →
      s.files.tree (clone ++ target) ≠ some .directory
  kept : ∀ mapping ∈ fileMappings env, ∀ source target, Mapped env clone s mapping source target →
    ∀ rest, fileAt s.files.tree (source ++ rest) ≠ none → ignored (target ++ rest) = false

/-- What of this matters for the copying, where nothing is said of what `git` ignores. -/
structure Placed (env : Environment) (clone : List String) (s : State) : Prop where
  named : ∀ mapping ∈ fileMappings env, ∃ source target,
    absolutePlace (expandedSourcePath env mapping) = some source ∧
      absolutePlace (repositoryFile env mapping) = some (clone ++ target)
  outside : ∀ mapping ∈ fileMappings env, ∀ source,
    absolutePlace (expandedSourcePath env mapping) = some source →
      ¬ clone <+: source ∧ ¬ source <+: clone
  inside : ∀ mapping ∈ fileMappings env, ∀ source target,
    Mapped env clone s mapping source target → ¬ [".git"] <+: target ∧ ¬ target <+: [".git"]
  apart : ∀ mapping ∈ fileMappings env, ∀ mapping' ∈ fileMappings env,
    ∀ source target source' target', Mapped env clone s mapping source target →
      Mapped env clone s mapping' source' target' →
        source = source' ∧ target = target' ∨ ¬ target <+: target' ∧ ¬ target' <+: target
  sameKind : ∀ mapping ∈ fileMappings env, ∀ source target,
    Mapped env clone s mapping source target → s.files.tree source ≠ some .directory →
      s.files.tree (clone ++ target) ≠ some .directory

theorem Clear.placed (h : Clear ignored env clone s) : Placed env clone s where
  named := h.named
  outside := h.outside
  inside mapping hmem source target hmapped :=
    (h.inside mapping hmem source target hmapped).imp_right And.left
  apart := h.apart
  sameKind := h.sameKind

/-- Some mapped file is another one than its copy in the clone. -/
def Differs (env : Environment) (clone : List String) (s : State) : Prop :=
  ∃ mapping ∈ fileMappings env, ∃ source target, Mapped env clone s mapping source target ∧
    ¬ Agrees clone s source target

def Command.isCommit : Command → Bool
  | .gitCommit .. => true
  | _ => false

/-- No commit fails. -/
def Commits (exchanges : List (Command × Answer)) : Prop :=
  ∀ x ∈ exchanges, x.1.isCommit → x.2.success

/-- What the last push that changed something has not reached the remote branch, or not all of it. -/
def Waiting : List (PushRun) → Prop
  | [] => False
  | run :: earlier =>
    if Quiet run.exchanges then Waiting earlier
    else ¬ (run.outcome = .returned () ∧ Commits run.exchanges)

/-- Something is to be copied unless nothing waits to be pushed, and the commit goes well. -/
structure Smooth (ignored : List String → Bool) (clone : List String) (run : PushRun)
    (earlier : List (PushRun)) : Prop where
  clear : Clear ignored run.env clone run.before
  differs : Waiting earlier → Differs run.env clone run.before
  commits : Commits run.exchanges

theorem Placed.target_ne_nil (h : Placed env clone s) (hmem : mapping ∈ fileMappings env)
    (hmapped : Mapped env clone s mapping source target) : clone ++ target ≠ [] := by
  intro hnil
  refine (h.inside mapping hmem source target hmapped).2 ?_
  rw [(List.append_eq_nil_iff.mp hnil).2]
  exact List.nil_prefix

/-! ## One mapping -/

theorem returns_checkPermissions_read {word : String} {place : List String}
    (hword : absolutePlace word = some place) (hfound : Finds s.files.tree word place .exists) :
    Returns (world ignored clone) s (checkPermissions word .read) fun exchanges readable s' =>
      Quiet exchanges ∧ s' = s ∧ (readable ↔ s.mayRead place) := by
  refine (returns_test hword).bind fun first existing mid hmid => ?_
  obtain ⟨hquiet, rfl, hexisting⟩ := hmid
  rw [if_pos (hexisting.mpr hfound)]
  refine returns_succeeds fun answer s' hstep => ?_
  obtain ⟨rfl, hanswer⟩ := hstep
  refine ⟨hquiet.append (by simp [Quiet, Command.changes]), rfl, ?_⟩
  rw [hanswer place hword]
  exact and_iff_right hfound.1

/-- What pushing a mapped file does. -/
structure Pushed (clone : List String) (s s' : State) (source target : List String)
    (exchanges : List (Command × Answer)) (changed : Bool) : Prop where
  onlyFiles : OnlyFiles s s'
  elsewhere : ∀ path, ¬ clone ++ target <+: path → s'.files.tree path = s.files.tree path ∨
    path <+: clone ++ target ∧ s.files.tree path = none ∧ s'.files.tree path = some .directory
  agrees : Agrees clone s' source target
  quiet : changed = false → Quiet exchanges ∧
    MadeAlong (clone ++ target).dropLast s.files.tree s'.files.tree

/-- A mapping whose file is not there or cannot be read is passed over. -/
theorem returns_pushMapping_absent
    (hsource : absolutePlace (expandedSourcePath env mapping) = some source)
    (htarget : absolutePlace (repositoryFile env mapping) = some (clone ++ target))
    (h : ¬ Mapped env clone s mapping source target) :
    Returns (world ignored clone) s (pushMapping env false mapping) fun exchanges changed s' =>
      s' = s ∧ changed = false ∧ Quiet exchanges := by
  refine (returns_test hsource).bind fun first existing mid hmid => ?_
  obtain ⟨hquiet, rfl, hexisting⟩ := hmid
  split
  · next hyes =>
    refine (returns_checkPermissions_read hsource (hexisting.mp hyes)).bind
      fun second readable mid' hmid' => ?_
    obtain ⟨hquiet', rfl, hreadable⟩ := hmid'
    rw [if_neg fun hread => h ⟨hsource, htarget, hexisting.mp hyes, hreadable.mp hread⟩]
    exact returns_ret ⟨rfl, rfl, by simpa using hquiet.append hquiet'⟩
  · exact returns_ret ⟨rfl, rfl, by simpa using hquiet⟩

/-- A mapped file is compared with its copy once there is a directory to hold the copy. -/
theorem returns_pushMapping_of {Q : List (Command × Answer) → Bool → State → Prop}
    (h : Mapped env clone s mapping source target) (hbelow : ¬ source <+: clone ++ target)
    (hcompare : ∀ first made (directory : Bool), Quiet first → OnlyFiles s made →
      MadeAlong (clone ++ target).dropLast s.files.tree made.files.tree →
        (∀ rest, made.files.tree (source ++ rest) = s.files.tree (source ++ rest)) →
          (directory ↔ s.files.tree source = some .directory) →
            Returns (world ignored clone) made (do
              let changed ← needsUpdate directory (expandedSourcePath env mapping)
                (repositoryFile env mapping)
              Program.onlyIf (changed && !false) (copyOver (expandedSourcePath env mapping)
                (repositoryFile env mapping))
              pure changed) fun second => Q (first ++ second)) :
    Returns (world ignored clone) s (pushMapping env false mapping) Q := by
  refine (returns_test h.sourcePlace).bind fun first existing mid hmid => ?_
  obtain ⟨hquiet, rfl, hexisting⟩ := hmid
  rw [if_pos (hexisting.mpr h.found)]
  refine (returns_checkPermissions_read h.sourcePlace h.found).bind
    fun second readable mid' hmid' => ?_
  obtain ⟨hquiet', rfl, hreadable⟩ := hmid'
  rw [if_pos (hreadable.mpr h.readable)]
  refine (Returns.onlyIf (Q := fun exchanges _ s' => Quiet exchanges ∧ OnlyFiles mid' s' ∧
    MadeAlong (clone ++ target).dropLast mid'.files.tree s'.files.tree) (fun _ => ?_)
      (by simp)).bind fun third _ made hmade => ?_
  · refine returns_must fun answer s' hstep hok => ?_
    obtain ⟨files, rfl, heffect⟩ := hstep
    exact ⟨by simp [Quiet, Command.changes], rfl,
      (heffect _ (absolutePlace_dirname h.targetPlace)).1⟩
  obtain ⟨hquiet'', honly, hmade⟩ := hmade
  have hmadeSource : ∀ rest, made.files.tree (source ++ rest) = mid'.files.tree (source ++ rest) :=
    fun rest => (hmade _).resolve_right fun hdirectory =>
      hbelow (((List.prefix_append _ _).trans hdirectory.1).trans (List.dropLast_prefix _))
  refine (returns_test h.sourcePlace).bind fun fourth directory mid'' hmid'' => ?_
  obtain ⟨hquiet₄, rfl, hdirectory⟩ := hmid''
  have hroot := hmadeSource []
  rw [List.append_nil] at hroot
  rw [Finds, hroot] at hdirectory
  have hfirst := ((hquiet.append hquiet').append hquiet'').append hquiet₄
  simpa using hcompare _ mid'' directory hfirst honly hmade hmadeSource hdirectory

theorem returns_pushMapping (h : Mapped env clone s mapping source target)
    (hbelow : ¬ source <+: clone ++ target) (habove : ¬ clone ++ target <+: source)
    (hkind : s.files.tree source ≠ some .directory →
      s.files.tree (clone ++ target) ≠ some .directory) :
    Returns (world ignored clone) s (pushMapping env false mapping) fun exchanges changed s' =>
      Pushed clone s s' source target exchanges changed ∧
        (endsInSlash (repositoryFile env mapping) → s.files.tree source = some .directory) := by
  have hplace : clone ++ target ≠ [] := fun hnil => habove (hnil ▸ List.nil_prefix)
  refine returns_pushMapping_of h hbelow
    fun first made directory hquiet honly hmade hmadeSource hdirectory => ?_
  have hfound := hmadeSource []
  have hcopy := hmade.below hplace []
  rw [List.append_nil] at hfound hcopy
  refine (returns_needsUpdate h.sourcePlace h.targetPlace).bind fun second changed mid hmid => ?_
  obtain ⟨hquiet', rfl, hsame⟩ := hmid
  have hslash : changed = false → endsInSlash (repositoryFile env mapping) →
      s.files.tree source = some .directory := by
    intro hunchanged hslash
    obtain ⟨hthere, -⟩ := hsame hunchanged
    split at hthere
    · next hyes => exact hdirectory.mp hyes
    · exact absurd hslash hthere.2
  refine (Returns.onlyIf (Q := fun exchanges _ s' => OnlyFiles mid s' ∧
    OnlyBelow (clone ++ target) mid.files.tree s'.files.tree ∧ Agrees clone s' source target ∧
      (endsInSlash (repositoryFile env mapping) → s.files.tree source = some .directory) ∧
        (changed = false → exchanges = [] ∧ s' = mid)) (fun hchanged => ?_)
        fun hunchanged => ?_).bind fun third _ s' hs' => ?_
  · have hchanged' : changed = true := by simpa using hchanged
    by_cases hrefused : endsInSlash (repositoryFile env mapping) ∧
        s.files.tree source ≠ some .directory
    · refine (returns_copyOver_slash h.sourcePlace h.targetPlace ?_ ?_ hrefused.1).mono
        fun _ _ _ => False.elim
      · rw [hfound]
        exact hrefused.2
      · rw [hcopy]
        exact hkind hrefused.2
    · refine (returns_copyOver h.sourcePlace h.targetPlace ?_ hbelow habove).mono
        fun exchanges _ s' hs' => ⟨hs'.1, hs'.2.1, hs'.2.2 ?_, by tauto, by simp [hchanged']⟩
      · rw [hfound]
        exact h.found.1
      · rw [hfound, hcopy]
        exact hkind
  · have hunchanged' : changed = false := by simpa using hunchanged
    exact ⟨rfl, fun _ _ => rfl, (hsame hunchanged').2, hslash hunchanged', fun _ => ⟨rfl, rfl⟩⟩
  · obtain ⟨honly', hbelow', hagrees, hslash', hrest⟩ := hs'
    refine returns_ret ⟨⟨honly.trans honly', ?_, hagrees, ?_⟩, hslash'⟩
    · intro path hpath
      rw [hbelow' path hpath]
      exact (hmade path).imp_right fun hdirectory =>
        ⟨hdirectory.1.trans (List.dropLast_prefix _), hdirectory.2⟩
    · intro hunchanged
      obtain ⟨rfl, rfl⟩ := hrest hunchanged
      exact ⟨by simpa using hquiet.append hquiet', hmade⟩

/-! ## The loop -/

/-- What is known of a state that a part of a push leads to. -/
structure SameSources (env : Environment) (s s' : State) : Prop where
  mayRead : s'.mayRead = s.mayRead
  files : ∀ mapping ∈ fileMappings env, ∀ source,
    absolutePlace (expandedSourcePath env mapping) = some source →
      ∀ rest, s'.files.tree (source ++ rest) = s.files.tree (source ++ rest)

theorem SameSources.refl : SameSources env s s := ⟨rfl, fun _ _ _ _ _ => rfl⟩

theorem SameSources.trans {s'' : State} (h : SameSources env s s') (h' : SameSources env s' s'') :
    SameSources env s s'' where
  mayRead := h'.mayRead.trans h.mayRead
  files mapping hmem source hsource rest :=
    (h'.files mapping hmem source hsource rest).trans (h.files mapping hmem source hsource rest)

theorem SameSources.symm (h : SameSources env s s') : SameSources env s' s where
  mayRead := h.mayRead.symm
  files mapping hmem source hsource rest := (h.files mapping hmem source hsource rest).symm

theorem SameSources.finds (h : SameSources env s s') (hmem : mapping ∈ fileMappings env)
    (hsource : absolutePlace (expandedSourcePath env mapping) = some source) :
    s'.files.tree source = s.files.tree source := by
  have hfiles := h.files mapping hmem source hsource []
  rwa [List.append_nil] at hfiles

theorem Mapped.of_sameSources (hmapped : Mapped env clone s mapping source target)
    (h : SameSources env s s') (hmem : mapping ∈ fileMappings env) :
    Mapped env clone s' mapping source target where
  sourcePlace := hmapped.sourcePlace
  targetPlace := hmapped.targetPlace
  found := by
    have hfound := hmapped.found
    rwa [Finds, ← h.finds hmem hmapped.sourcePlace] at hfound
  readable := by
    rw [h.mayRead]
    exact hmapped.readable

/-- The copy in the clone is the one that was there. -/
def SameCopy (clone : List String) (s s' : State) (target : List String) : Prop :=
  s'.files.tree.subtree (clone ++ target) = s.files.tree.subtree (clone ++ target)

/-- The state after the mappings `done`, where `values` says which of them needed an update. -/
structure Looped (env : Environment) (clone : List String) (s : State) (done : List String)
    (exchanges : List (Command × Answer)) (values : List Bool) (s' : State) : Prop where
  onlyFiles : OnlyFiles s s'
  sources : SameSources env s s'
  each : ∀ mapping ∈ fileMappings env, ∀ source target, Mapped env clone s mapping source target →
    Agrees clone s' source target ∨ SameCopy clone s s' target
  agrees : ∀ mapping ∈ done, mapping ∈ fileMappings env → ∀ source target,
    Mapped env clone s mapping source target → Agrees clone s' source target
  slash : ∀ mapping ∈ done, ∀ source target, Mapped env clone s mapping source target →
    endsInSlash (repositoryFile env mapping) → s.files.tree source = some .directory
  quiet : values.any id = false → Quiet exchanges ∧
    (∀ path, s'.files.tree path = s.files.tree path ∨
      s.files.tree path = none ∧ s'.files.tree path = some .directory) ∧
    ∀ mapping ∈ fileMappings env, ∀ source target, Mapped env clone s mapping source target →
      SameCopy clone s s' target

variable {done left : List String} {exchanges : List (Command × Answer)} {values : List Bool}

/-- A step that leaves the local files alone keeps what agrees, as long as it keeps the copy. -/
theorem Agrees.of_sameCopy (hagrees : Agrees clone s source target)
    (hsources : SameSources env s s') (hmem : mapping ∈ fileMappings env)
    (hsource : absolutePlace (expandedSourcePath env mapping) = some source)
    (hcopy : SameCopy clone s s' target) : Agrees clone s' source target := by
  rw [Agrees, show s'.files.tree.subtree (clone ++ target) = _ from hcopy, ← hagrees]
  funext rest
  exact hsources.files mapping hmem source hsource rest

/-- A mapping that is passed over. -/
theorem Looped.skip (h : Looped env clone s done exchanges values s')
    {exchanges' : List (Command × Answer)} (hquiet : Quiet exchanges')
    (hmapping : ∀ source target, ¬ Mapped env clone s mapping source target) :
    Looped env clone s (done ++ [mapping]) (exchanges ++ exchanges') (values ++ [false]) s' where
  onlyFiles := h.onlyFiles
  sources := h.sources
  each := h.each
  agrees mapping' hdone hmem source target hmapped := by
    rw [List.mem_append, List.mem_singleton] at hdone
    rcases hdone with hdone | rfl
    · exact h.agrees mapping' hdone hmem source target hmapped
    · exact absurd hmapped (hmapping source target)
  slash mapping' hdone source target hmapped := by
    rw [List.mem_append, List.mem_singleton] at hdone
    rcases hdone with hdone | rfl
    · exact h.slash mapping' hdone source target hmapped
    · exact absurd hmapped (hmapping source target)
  quiet hvalues := by
    obtain ⟨hquiet', hmade, hcopies⟩ := h.quiet (by simpa using hvalues)
    exact ⟨hquiet'.append hquiet, hmade, hcopies⟩

theorem Pushed.sources {changed : Bool} (h : Pushed clone s s' source target exchanges changed)
    (houtside : ∀ mapping ∈ fileMappings env, ∀ source,
      absolutePlace (expandedSourcePath env mapping) = some source →
        ¬ clone <+: source ∧ ¬ source <+: clone) : SameSources env s s' where
  mayRead := by rw [h.onlyFiles]
  files mapping hmem source' hsource' rest := by
    obtain ⟨hbelow, habove⟩ := houtside mapping hmem source' hsource'
    have hnot := not_prefix_append hbelow habove rest
    refine (h.elsewhere _ fun hpre => hnot ((List.prefix_append _ _).trans hpre)).resolve_right
      fun hdirectory => ?_
    exact (not_prefix_append habove hbelow target) ((List.prefix_append _ _).trans hdirectory.1)

/-- The copies of other mappings stay. -/
theorem Pushed.sameCopy {changed : Bool} (h : Pushed clone s s' source target exchanges changed)
    {target' : List String} (hbelow : ¬ target <+: target') (habove : ¬ target' <+: target) :
    SameCopy clone s s' target' := by
  funext rest
  rw [Tree.subtree_apply, Tree.subtree_apply]
  have hnot : ¬ clone ++ target <+: clone ++ target' ++ rest := by
    rw [List.append_assoc, List.prefix_append_right_inj]
    exact not_prefix_append hbelow habove rest
  refine (h.elsewhere _ hnot).resolve_right fun hdirectory => habove ?_
  exact (List.prefix_append_right_inj clone).mp ((List.prefix_append _ _).trans hdirectory.1)

/-- A mapped file that is compared with its copy, and copied where it is another. -/
theorem Looped.push (h : Looped env clone s done exchanges values s') (hplaced : Placed env clone s)
    (hmem : mapping ∈ fileMappings env) (hmapped : Mapped env clone s mapping source target)
    {s'' : State} {exchanges' : List (Command × Answer)} {changed : Bool}
    (hpushed : Pushed clone s' s'' source target exchanges' changed)
    (hslash : endsInSlash (repositoryFile env mapping) → s'.files.tree source = some .directory) :
    Looped env clone s (done ++ [mapping]) (exchanges ++ exchanges') (values ++ [changed]) s'' := by
  have hsources := hpushed.sources hplaced.outside
  have hcopy : ∀ mapping' ∈ fileMappings env, ∀ source' target',
      Mapped env clone s mapping' source' target' →
        source = source' ∧ target = target' ∨ SameCopy clone s' s'' target' := by
    intro mapping' hmem' source' target' hmapped'
    exact (hplaced.apart mapping hmem mapping' hmem' source target source' target' hmapped
      hmapped').imp_right fun hapart => hpushed.sameCopy hapart.1 hapart.2
  refine ⟨h.onlyFiles.trans hpushed.onlyFiles, h.sources.trans hsources, ?_, ?_, ?_, ?_⟩
  · intro mapping' hmem' source' target' hmapped'
    rcases hcopy mapping' hmem' source' target' hmapped' with ⟨rfl, rfl⟩ | hsame
    · exact .inl hpushed.agrees
    · exact (h.each mapping' hmem' source' target' hmapped').imp
        (fun hagrees => hagrees.of_sameCopy hsources hmem' hmapped'.sourcePlace hsame)
        fun hsame' => hsame.trans hsame'
  · intro mapping' hdone hmem' source' target' hmapped'
    rw [List.mem_append, List.mem_singleton] at hdone
    rcases hcopy mapping' hmem' source' target' hmapped' with ⟨rfl, rfl⟩ | hsame
    · exact hpushed.agrees
    · rcases hdone with hdone | rfl
      · exact (h.agrees mapping' hdone hmem' source' target' hmapped').of_sameCopy hsources hmem'
          hmapped'.sourcePlace hsame
      · obtain rfl : source = source' := by
          simpa [hmapped.sourcePlace] using hmapped'.sourcePlace
        obtain rfl : target = target' := by
          simpa [hmapped.targetPlace] using hmapped'.targetPlace
        exact hpushed.agrees
  · intro mapping' hdone source' target' hmapped' hslash'
    rw [List.mem_append, List.mem_singleton] at hdone
    rcases hdone with hdone | rfl
    · exact h.slash mapping' hdone source' target' hmapped' hslash'
    · obtain rfl : source = source' := by
        simpa [hmapped.sourcePlace] using hmapped'.sourcePlace
      rw [← h.sources.finds hmem hmapped.sourcePlace]
      exact hslash hslash'
  · intro hvalues
    rw [List.any_append, Bool.or_eq_false_iff] at hvalues
    obtain ⟨hquiet, hmade, hcopies⟩ := h.quiet hvalues.1
    obtain ⟨hquiet', hmade'⟩ := hpushed.quiet (by simpa using hvalues.2)
    refine ⟨hquiet.append hquiet', fun path => ?_, fun mapping' hmem' source' target' hmapped' => ?_⟩
    · rcases hmade' path with heq | ⟨-, hnone, hdirectory⟩
      · rw [heq]
        exact hmade path
      · rcases hmade path with heq | ⟨-, hdirectory'⟩
        · exact .inr ⟨heq ▸ hnone, hdirectory⟩
        · rw [hdirectory'] at hnone
          cases hnone
    · have hold := hcopies mapping' hmem' source' target' hmapped'
      rcases hcopy mapping' hmem' source' target' hmapped' with ⟨rfl, rfl⟩ | hsame
      · refine Eq.trans ?_ hold
        funext rest
        exact hmade'.below (hplaced.target_ne_nil hmem hmapped) rest
      · exact hsame.trans hold

theorem Looped.start : Looped env clone s [] [] [] s where
  onlyFiles := rfl
  sources := .refl
  each _ _ _ _ _ := .inr rfl
  agrees := by simp
  slash := by simp
  quiet _ := ⟨by simp [Quiet], fun _ => .inl rfl, fun _ _ _ _ _ => rfl⟩

theorem Looped.returns_pushMapping (hlooped : Looped env clone s done exchanges values s')
    (hplaced : Placed env clone s) (hmem : mapping ∈ fileMappings env) :
    Returns (world ignored clone) s' (pushMapping env false mapping) fun exchanges' changed =>
      Looped env clone s (done ++ [mapping]) (exchanges ++ exchanges') (values ++ [changed]) := by
  obtain ⟨source, target, hsource, htarget⟩ := hplaced.named mapping hmem
  by_cases hmapped : Mapped env clone s mapping source target
  · obtain ⟨hbelow, habove⟩ := hplaced.outside mapping hmem source hsource
    refine (DotfilesSync.returns_pushMapping (hmapped.of_sameSources hlooped.sources hmem)
      (not_prefix_append habove hbelow target)
        (fun hpre => hbelow ((List.prefix_append _ _).trans hpre)) ?_).mono
          fun exchanges' changed s' hpushed =>
            hlooped.push hplaced hmem hmapped hpushed.1 hpushed.2
    intro hfile
    rcases hlooped.each mapping hmem source target hmapped with hagrees | hcopy
    · have hroot := congrFun hagrees []
      simp only [Tree.subtree_apply, List.append_nil] at hroot
      rwa [← hroot]
    · have hroot := congrFun hcopy []
      simp only [Tree.subtree_apply, List.append_nil] at hroot
      rw [hroot]
      rw [hlooped.sources.finds hmem hsource] at hfile
      exact hplaced.sameKind mapping hmem source target hmapped hfile
  · refine (returns_pushMapping_absent hsource htarget fun hmapped' =>
      hmapped (hmapped'.of_sameSources hlooped.sources.symm hmem)).mono ?_
    rintro exchanges' changed s' ⟨rfl, rfl, hquiet⟩
    refine hlooped.skip hquiet fun source' target' hmapped' => hmapped ?_
    obtain rfl : source = source' := by simpa [hsource] using hmapped'.sourcePlace
    obtain rfl : target = target' := by simpa [htarget] using hmapped'.targetPlace
    exact hmapped'

theorem returns_pushMappings (hplaced : Placed env clone s) :
    Returns (world ignored clone) s (Program.mapEach (fileMappings env) (pushMapping env false))
      (Looped env clone s (fileMappings env)) :=
  Returns.mapEach .start fun _ mapping _ _ _ _ hxs hlooped =>
    hlooped.returns_pushMapping hplaced (by simp [hxs] : mapping ∈ fileMappings env)

/-! ## Committing and pushing -/

/-- Only what `git` keeps for itself may be another. -/
structure GitOnly (clone : List String) (s s' : State) : Prop where
  mayRead : s'.mayRead = s.mayRead
  files : OnlyBelow (clone ++ [".git"]) s.files.tree s'.files.tree

theorem GitOnly.trans {s'' : State} (h : GitOnly clone s s') (h' : GitOnly clone s' s'') :
    GitOnly clone s s'' where
  mayRead := h'.mayRead.trans h.mayRead
  files path hpath := (h'.files path hpath).trans (h.files path hpath)

theorem GitOnly.workTree (h : GitOnly clone s s') :
    workTree s'.files.tree clone = workTree s.files.tree clone := by
  funext path
  unfold DotfilesSync.workTree
  split
  · rfl
  · next hpath =>
    rw [fileAt, fileAt, h.files]
    rwa [List.prefix_append_right_inj]

/-- When the commit goes well, so does the push, and the remote branch has what the clone has. -/
theorem returns_commitAndPush {message : String} (hclone : absolutePlace (repository env) = some clone) :
    Returns (world ignored clone) s (commitAndPush (repository env) message)
      fun exchanges _ s' => GitOnly clone s s' ∧
        (Commits exchanges → tip s'.remote = added ignored (workTree s.files.tree clone) (tip s.commits)) := by
  refine (returns_must (Q := fun _ _ s' => GitOnly clone s s' ∧ s'.commits = s.commits)
    fun answer s' hstep _ => ?_).bind fun first _ staged hstaged => ?_
  · exact ⟨⟨hstep.mayRead, hstep.below clone hclone⟩, (hstep.inClone hclone).1⟩
  obtain ⟨hgit, hcommits⟩ := hstaged
  refine (returns_succeeds (Q := fun exchanges committed s' => GitOnly clone staged s' ∧
    (Commits exchanges → committed = true) ∧ (committed = true → tip s'.commits =
      added ignored (workTree s.files.tree clone) (tip s.commits))) fun answer s' hstep => ?_).bind
        fun second committed mid hmid => ?_
  · refine ⟨⟨hstep.mayRead, hstep.below clone hclone⟩, ?_, fun hok => ?_⟩
    · intro hgood
      exact hgood _ List.mem_cons_self rfl
    · obtain ⟨-, heffect⟩ := hstep.inClone hclone
      rw [if_pos hok] at heffect
      rw [heffect.2, hgit.workTree, hcommits]
      rfl
  obtain ⟨hgit', hcommitted, htip⟩ := hmid
  split
  · next hyes =>
    refine (returns_succeeds (Q := fun _ pushed s' => GitOnly clone mid s' ∧
      (pushed = true → s'.remote = mid.commits)) fun answer s' hstep => ?_).bind
        fun third pushed s' hs' => ?_
    · exact ⟨⟨hstep.mayRead, hstep.below clone hclone⟩, (hstep.inClone hclone).2.2⟩
    obtain ⟨hgit'', hpushed⟩ := hs'
    refine Returns.onlyIf (fun _ => ?_) fun hok => ?_
    · rw [returns_echo_bind]
      exact returns_raise
    · refine ⟨(hgit.trans hgit').trans hgit'', fun _ => ?_⟩
      rw [hpushed (by simpa using hok), htip hyes]
  · next hno =>
    refine (returns_log).mpr (returns_ret ⟨hgit.trans hgit', fun hgood => ?_⟩)
    refine absurd (hcommitted fun x hx => hgood x ?_) hno
    simp [hx]

/-- The remote branch gets the files, with a new version file. -/
theorem returns_pushVersion {place : List String} (hclone : absolutePlace (repository env) = some clone)
    (hplace : absolutePlace (versionFile env) = some place) :
    Returns (world ignored clone) s (pushVersion env) fun exchanges _ s' =>
      s'.mayRead = s.mayRead ∧
        (∀ path, ¬ clone ++ [".git"] <+: path → path ≠ place →
          s'.files.tree path = s.files.tree path) ∧
        (Commits exchanges → Published ignored clone s') := by
  refine (returns_getVersion hplace).bind fun first version mid hmid => ?_
  obtain rfl := hmid
  split
  · exact returns_raise
  · refine (returns_must (Q := fun _ _ s' => s'.mayRead = mid.mayRead ∧
      ∀ path, path ≠ place → s'.files.tree path = mid.files.tree path)
        fun answer s' hstep _ => ?_).bind fun second _ written hwritten => ?_
    · obtain ⟨files, rfl, heffect⟩ := hstep
      exact ⟨rfl, (heffect place hplace).1⟩
    obtain ⟨hmayRead, hwritten⟩ := hwritten
    refine (returns_ask (Q := fun _ _ s' => s' = written) fun _ _ hstep => hstep.1).bind ?_
    rintro third now _ rfl
    refine (returns_commitAndPush hclone).bind fun fourth _ s' hs' => ?_
    obtain ⟨hgit, htip⟩ := hs'
    refine returns_log.mpr (returns_ret ⟨hgit.mayRead.trans hmayRead, ?_, ?_⟩)
    · intro path hpath hne
      rw [hgit.files path hpath, hwritten path hne]
    · intro hcommits path _ hignored
      rw [htip fun x hx => hcommits x (by simp [hx]), hgit.workTree, added]
      split
      · next hpath =>
        rw [Bool.and_eq_true] at hpath
        rw [← hgit.workTree, hignored hpath.1]
      · rfl

/-! ## A whole push -/

theorem returns_pullLatest (hclone : absolutePlace (repository env) = some clone)
    (hremote : s.remote <:+ s.commits) :
    Returns (world ignored clone) s (pullLatest (repository env)) fun exchanges _ s' =>
      Quiet exchanges ∧ GitOnly clone s s' ∧ s'.remote = s.remote := by
  have hpull : ∀ (branch : String) (s : State), s.remote <:+ s.commits →
      Returns (world ignored clone) s (succeeds (.gitPull true (repository env) branch))
        fun exchanges _ s' => Quiet exchanges ∧ GitOnly clone s s' ∧ s'.remote = s.remote ∧
          s'.commits = s.commits := by
    intro branch s hremote
    refine returns_succeeds fun answer s' hstep => ⟨by simp [Quiet, Command.changes], ?_⟩
    obtain ⟨hremote', hupToDate⟩ := hstep.inClone hclone
    obtain ⟨hcommits, hfiles⟩ := hupToDate hremote
    exact ⟨⟨hstep.mayRead, hfiles⟩, hremote', hcommits⟩
  refine (hpull "main" s hremote).bind fun first main mid hmid => ?_
  obtain ⟨hquiet, hgit, hremote', hcommits⟩ := hmid
  refine Returns.onlyIf (fun _ => ?_) fun _ => ⟨by simpa using hquiet, hgit, hremote'⟩
  refine (hpull "master" mid (by rwa [hremote', hcommits])).bind fun second master s' hs' => ?_
  obtain ⟨hquiet', hgit', hremote'', -⟩ := hs'
  have hend : Quiet (first ++ (second ++ [])) ∧ GitOnly clone s s' ∧ s'.remote = s.remote :=
    ⟨by simpa using hquiet.append hquiet', hgit.trans hgit', hremote''.trans hremote'⟩
  exact Returns.onlyIf (fun _ => returns_log.mpr (returns_ret hend)) fun _ => hend

theorem GitOnly.sources (h : GitOnly clone s s') (houtside : ∀ mapping ∈ fileMappings env, ∀ source,
    absolutePlace (expandedSourcePath env mapping) = some source →
      ¬ clone <+: source ∧ ¬ source <+: clone) : SameSources env s s' where
  mayRead := h.mayRead
  files mapping hmem source hsource rest := by
    obtain ⟨hbelow, habove⟩ := houtside mapping hmem source hsource
    exact h.files _ fun hpre =>
      not_prefix_append hbelow habove rest ((List.prefix_append _ _).trans hpre)

theorem GitOnly.sameCopy (h : GitOnly clone s s') (hbelow : ¬ [".git"] <+: target)
    (habove : ¬ target <+: [".git"]) : SameCopy clone s s' target := by
  funext rest
  refine h.files _ fun hpre => ?_
  rw [List.append_assoc, List.prefix_append_right_inj] at hpre
  exact not_prefix_append hbelow habove rest hpre

theorem Clear.of_gitOnly (hclear : Clear ignored env clone s) (h : GitOnly clone s s') :
    Clear ignored env clone s' := by
  have hsources := h.sources hclear.outside
  have hmapped : ∀ mapping ∈ fileMappings env, ∀ source target,
      Mapped env clone s' mapping source target → Mapped env clone s mapping source target :=
    fun mapping hmem source target hmapped => hmapped.of_sameSources hsources.symm hmem
  refine ⟨hclear.named, hclear.outside, hclear.version, ?_, ?_, ?_, ?_⟩
  · exact fun mapping hmem source target hs' =>
      hclear.inside mapping hmem source target (hmapped mapping hmem source target hs')
  · exact fun mapping hmem mapping' hmem' source target source' target' hs' hs'' =>
      hclear.apart mapping hmem mapping' hmem' source target source' target'
        (hmapped mapping hmem source target hs') (hmapped mapping' hmem' source' target' hs'')
  · intro mapping hmem source target hs' hfile
    have hs := hmapped mapping hmem source target hs'
    obtain ⟨hbelow, habove, -⟩ := hclear.inside mapping hmem source target hs
    have hroot := congrFun (h.sameCopy hbelow habove) []
    simp only [Tree.subtree_apply, List.append_nil] at hroot
    rw [hroot]
    rw [hsources.finds hmem hs.sourcePlace] at hfile
    exact hclear.sameKind mapping hmem source target hs hfile
  · intro mapping hmem source target hs' rest hfile
    have hs := hmapped mapping hmem source target hs'
    rw [fileAt, hsources.files mapping hmem source hs.sourcePlace] at hfile
    exact hclear.kept mapping hmem source target hs rest hfile

/-- The remote branch is left as it is when there is nothing to copy, and is in step with the clone
otherwise. -/
structure PushEnds (ignored : List String → Bool) (env : Environment) (clone : List String)
    (s : State) (exchanges : List (Command × Answer)) (s' : State) : Prop where
  sources : SameSources env s s'
  agrees : ∀ mapping ∈ fileMappings env, ∀ source target, Mapped env clone s mapping source target →
    Agrees clone s' source target
  published : Quiet exchanges ∧ ¬ Differs env clone s ∧ s'.remote = s.remote ∧
      workTree s'.files.tree clone = workTree s.files.tree clone ∨
    (Commits exchanges → Published ignored clone s')

theorem Looped.workTree (h : Looped env clone s done exchanges values s')
    (hvalues : values.any id = false) :
    workTree s'.files.tree clone = workTree s.files.tree clone := by
  obtain ⟨-, hmade, -⟩ := h.quiet hvalues
  funext path
  unfold DotfilesSync.workTree
  split
  · rfl
  · rcases hmade (clone ++ path) with heq | ⟨hnone, hdirectory⟩
    · rw [fileAt, fileAt, heq]
    · rw [fileAt, fileAt, hnone, hdirectory]

/-- The last part of a push. -/
theorem Looped.ends (h : Looped env clone s (fileMappings env) exchanges values s')
    (hclear : Clear ignored env clone s) (hclone : absolutePlace (repository env) = some clone) :
    Returns (world ignored clone) s' (if values.any id then
        Program.onlyIf (!false) (pushVersion env)
      else echo "No changes to push. Everything is in sync.")
      fun exchanges' _ s'' => PushEnds ignored env clone s (exchanges ++ exchanges') s'' := by
  have hagrees : ∀ mapping ∈ fileMappings env, ∀ source target,
      Mapped env clone s mapping source target → Agrees clone s' source target :=
    fun mapping hmem => h.agrees mapping hmem hmem
  split
  · obtain ⟨place, hplace, hfree⟩ := hclear.version
    refine (returns_pushVersion hclone hplace).mono fun exchanges' _ s'' hs'' => ?_
    obtain ⟨hmayRead, hfiles, hpublished⟩ := hs''
    have hsources : SameSources env s' s'' := by
      refine ⟨hmayRead, fun mapping hmem source hsource rest => hfiles _ ?_ ?_⟩
      · obtain ⟨hbelow, habove⟩ := hclear.outside mapping hmem source hsource
        exact fun hpre =>
          not_prefix_append hbelow habove rest ((List.prefix_append _ _).trans hpre)
      · obtain ⟨source', target, hsource', htarget⟩ := hclear.named mapping hmem
        rintro rfl
        exact (hfree mapping hmem source target hsource htarget).1 (List.prefix_append _ _)
    refine ⟨h.sources.trans hsources, ?_, .inr fun hcommits => hpublished fun x hx =>
      hcommits x (List.mem_append_right _ hx)⟩
    intro mapping hmem source target hmapped
    refine (hagrees mapping hmem source target hmapped).of_sameCopy hsources hmem
      hmapped.sourcePlace ?_
    obtain ⟨hbelow, habove, -⟩ := hclear.inside mapping hmem source target hmapped
    funext rest
    refine hfiles _ ?_ ?_
    · rw [List.append_assoc, List.prefix_append_right_inj]
      exact not_prefix_append hbelow habove rest
    · rintro rfl
      exact (hfree mapping hmem source target hmapped.sourcePlace hmapped.targetPlace).2
        (List.prefix_append _ _)
  · next hnone =>
    have hvalues : values.any id = false := by simpa using hnone
    obtain ⟨hquiet, -, hcopies⟩ := h.quiet hvalues
    refine returns_log.mpr (returns_ret ⟨h.sources, hagrees, .inl ⟨by simpa using hquiet, ?_, ?_,
      h.workTree hvalues⟩⟩)
    · rintro ⟨mapping, hmem, source, target, hmapped, hdiffers⟩
      refine hdiffers ((hagrees mapping hmem source target hmapped).of_sameCopy h.sources.symm hmem
        hmapped.sourcePlace ?_)
      exact (hcopies mapping hmem source target hmapped).symm
    · rw [h.onlyFiles]

theorem PushEnds.of_start {mid : State} {first : List (Command × Answer)}
    (h : PushEnds ignored env clone mid exchanges s') (hquiet : Quiet first)
    (hgit : GitOnly clone s mid) (hremote : mid.remote = s.remote)
    (hclear : Clear ignored env clone s) :
    PushEnds ignored env clone s (first ++ exchanges) s' := by
  have hsources := hgit.sources hclear.outside
  refine ⟨hsources.trans h.sources, ?_, h.published.imp ?_ ?_⟩
  · exact fun mapping hmem source target hmapped =>
      h.agrees mapping hmem source target (hmapped.of_sameSources hsources hmem)
  · rintro ⟨hquiet', hdiffers, hremote', hwork⟩
    refine ⟨hquiet.append hquiet', ?_, hremote'.trans hremote, hwork.trans hgit.workTree⟩
    rintro ⟨mapping, hmem, source, target, hmapped, hnot⟩
    refine hdiffers ⟨mapping, hmem, source, target, hmapped.of_sameSources hsources hmem,
      fun hagrees => hnot ?_⟩
    obtain ⟨hbelow, habove, -⟩ := hclear.inside mapping hmem source target hmapped
    exact hagrees.of_sameCopy hsources.symm hmem hmapped.sourcePlace
      (hgit.sameCopy hbelow habove).symm
  · exact fun hpublished hcommits => hpublished fun x hx => hcommits x (List.mem_append_right _ hx)

theorem returns_pushChanges (hclear : Clear ignored env clone s)
    (hclone : absolutePlace (repository env) = some clone) (hremote : s.remote <:+ s.commits) :
    Returns (world ignored clone) s (pushChanges env false) fun exchanges _ s' =>
      PushEnds ignored env clone s exchanges s' := by
  have hstart : Returns (world ignored clone) s (do
      let initialized ← succeeds (.test .directory env.dotfilesRepo)
      Program.onlyIf (!initialized) (die "Repository not initialized. Run: init <repo-url>" :
        Script Unit)) fun exchanges _ s' => Quiet exchanges ∧ s' = s :=
    returns_check rfl fun _ _ hstep => hstep.1
  rw [pushChanges, ← bind_assoc]
  refine hstart.bind fun first _ mid hmid => ?_
  obtain ⟨hfirst, rfl⟩ := hmid
  have hlock : Returns (world ignored clone) mid acquireLock fun exchanges _ s' =>
      Quiet exchanges ∧ s' = mid := returns_check rfl fun _ _ hstep => hstep
  refine hlock.bind fun second _ mid' hmid' => ?_
  obtain ⟨hsecond, rfl⟩ := hmid'
  have hssh : Returns (world ignored clone) mid' (checkSsh "push") fun exchanges _ s' =>
      Quiet exchanges ∧ s' = mid' := returns_check rfl fun _ _ hstep => hstep
  refine (Returns.onlyIf (Q := fun exchanges _ s' => Quiet exchanges ∧ s' = mid')
    (fun _ => hssh) fun _ => ⟨by simp [Quiet], rfl⟩).bind fun third _ mid'' hmid'' => ?_
  obtain ⟨hthird, rfl⟩ := hmid''
  refine returns_loadFileMappings.bind fun fourth _ loaded hloaded => ?_
  obtain ⟨hfourth, rfl⟩ := hloaded
  refine (returns_ask (Q := fun exchanges _ s' => Quiet exchanges ∧ s' = loaded)
    fun answer s' hstep => ⟨by simp [Quiet, Command.changes], hstep⟩).bind
      fun fifth remoteUrl connected hconnected => ?_
  obtain ⟨hfifth, rfl⟩ := hconnected
  refine (Returns.onlyIf (Q := fun exchanges _ s' => Quiet exchanges ∧ s' = connected)
    (fun _ => ?_) fun _ => ⟨by simp [Quiet], rfl⟩).bind fun sixth _ tested htested => ?_
  · refine (returns_ask (Q := fun exchanges _ s' => Quiet exchanges ∧ s' = connected)
      fun answer s' hstep => ⟨by simp [Quiet, Command.changes], hstep⟩).bind ?_
    rintro exchanges _ s' ⟨hquiet, rfl⟩
    exact returns_ret ⟨by simpa using hquiet, rfl⟩
  obtain ⟨hsixth, rfl⟩ := htested
  refine (returns_pullLatest hclone hremote).bind fun seventh _ pulled hpulled => ?_
  obtain ⟨hseventh, hgit, hremote'⟩ := hpulled
  have hclear' := hclear.of_gitOnly hgit
  refine (returns_pushMappings hclear'.placed).bind fun eighth values looped hlooped => ?_
  refine (hlooped.ends hclear' hclone).mono fun ninth _ s' hs' => ?_
  have hquiet := (((((hfirst.append hsecond).append hthird).append hfourth).append hfifth).append
    hsixth).append hseventh
  simpa using hs'.of_start hquiet hgit hremote' hclear

/-! ## Any number of pushes -/

/-- A command of a push: `git` works in the clone, and directories are made at known places. -/
def InClone (env : Environment) : Command → Prop
  | .gitPull _ directory _ | .gitAdd directory | .gitCommit directory _ | .gitPush directory =>
    directory = repository env
  | .mkdir word => absolutePlace word ≠ none
  | _ => True

theorem issues_die {message : String} : Issues (InClone env) (die message : Script Unit) := by
  simp [die]

theorem issues_pushMapping (h : absolutePlace (repositoryFile env mapping) = some source) :
    Issues (InClone env) (pushMapping env false mapping) := by
  simp [pushMapping, checkPermissions, needsUpdate, copyOver, InClone, absolutePlace_dirname h]

theorem issues_pushVersion : Issues (InClone env) (pushVersion env) := by
  refine issues_bind.mpr ⟨by simp [getVersion, InClone], fun version _ => ?_⟩
  split
  · exact issues_exit
  · simp [commitAndPush, InClone]

theorem issues_pushChanges (h : Clear ignored env clone s) :
    Issues (InClone env) (pushChanges env false) := by
  have hload : Issues (InClone env) (loadFileMappings env) := by
    rw [loadFileMappings]
    split <;> simp
  have hloop : Issues (InClone env)
      (Program.mapEach (fileMappings env) (pushMapping env false)) := by
    refine IssuesGiven.mapEach fun mapping hmem => ?_
    obtain ⟨_, target, -, htarget⟩ := h.named mapping hmem
    exact issues_pushMapping htarget
  simp [pushChanges, issues_die, acquireLock, checkSsh, hload, pullLatest, hloop,
    issues_pushVersion, InClone]

/-- The commits of the remote branch stay commits of the clone. -/
theorem step_suffix {command : Command} {answer : Answer} (hgood : InClone env command)
    (hclone : absolutePlace (repository env) = some clone)
    (hstep : world ignored clone s command answer s') (hs : s.remote <:+ s.commits) :
    s'.remote <:+ s'.commits := by
  cases command <;> simp only [InClone] at hgood
  case gitPull =>
    subst hgood
    obtain ⟨hremote, hupToDate⟩ := hstep.inClone hclone
    rw [hremote, (hupToDate hs).1]
    exact hs
  case gitAdd =>
    subst hgood
    obtain ⟨hcommits, hremote⟩ := hstep.inClone hclone
    rwa [hcommits, hremote]
  case gitCommit =>
    subst hgood
    obtain ⟨hremote, heffect⟩ := hstep.inClone hclone
    rw [hremote]
    split at heffect
    · rw [heffect.2]
      exact hs.trans (List.suffix_cons _ _)
    · rwa [heffect]
  case gitPush =>
    subst hgood
    obtain ⟨hcommits, hremote, -⟩ := hstep.inClone hclone
    rcases hremote with hremote | ⟨-, hremote⟩
    · rwa [hcommits, hremote]
    · simp only [hcommits, hremote, List.suffix_refl]
  case mkdir | rm | cp | write =>
    obtain ⟨files, rfl, -⟩ := hstep
    exact hs
  case test | testReadable | testWritable | diff | date | cat =>
    obtain ⟨rfl, -⟩ := hstep
    exact hs
  all_goals
    obtain rfl := hstep
    exact hs

/-- What is not copied or committed does not change what has been published. -/
theorem step_published {command : Command} {answer : Answer} (hgood : InClone env command)
    (hclone : absolutePlace (repository env) = some clone) (hquiet : command.changes = false)
    (hstep : world ignored clone s command answer s')
    (hs : s.remote <:+ s.commits ∧ Published ignored clone s) :
    s'.remote <:+ s'.commits ∧ Published ignored clone s' := by
  refine ⟨step_suffix hgood hclone hstep hs.1, ?_⟩
  have hof : s'.remote = s.remote →
      workTree s'.files.tree clone = workTree s.files.tree clone → Published ignored clone s' := by
    intro hremote hwork
    rw [Published, hremote, hwork]
    exact hs.2
  cases command <;> simp only [InClone] at hgood <;> simp [Command.changes] at hquiet
  case gitPull =>
    subst hgood
    obtain ⟨hremote, hupToDate⟩ := hstep.inClone hclone
    exact hof hremote (GitOnly.workTree ⟨hstep.mayRead, (hupToDate hs.1).2⟩)
  case gitAdd =>
    subst hgood
    exact hof (hstep.inClone hclone).2
      (GitOnly.workTree ⟨hstep.mayRead, hstep.below clone hclone⟩)
  case mkdir =>
    obtain ⟨files, rfl, heffect⟩ := hstep
    obtain ⟨place, hplace⟩ := Option.ne_none_iff_exists'.mp hgood
    obtain ⟨hmade, -⟩ := heffect place hplace
    refine hof rfl ?_
    funext path
    rw [workTree, workTree]
    split
    · rfl
    · rcases hmade (clone ++ path) with heq | ⟨-, hnone, hdirectory⟩
      · rw [fileAt, fileAt, heq]
      · rw [fileAt, fileAt, hnone, hdirectory]
  case test | testReadable | testWritable | diff | date | cat =>
    obtain ⟨rfl, -⟩ := hstep
    exact hs.2
  all_goals
    obtain rfl := hstep
    exact hs.2

/-- The clone never falls behind the remote branch, and where nothing waits to be pushed the remote
branch has the files of the clone. -/
theorem History.published {runs : List (PushRun)} (h : History ignored clone runs s)
    (hsmooth : ∀ run earlier, run :: earlier <:+ runs → Smooth ignored clone run earlier) :
    s.remote <:+ s.commits ∧ (¬ Waiting runs → Published ignored clone s) := by
  induction h with
  | start hhistory hpublished => exact ⟨hhistory, fun _ => hpublished⟩
  | @edit s s' runs _ hcommits hremote hclone ih =>
    obtain ⟨hsuffix, hpublished⟩ := ih hsmooth
    refine ⟨by rwa [hremote, hcommits], fun hwaiting => ?_⟩
    have hwork : workTree s'.files.tree clone = workTree s.files.tree clone := by
      funext path
      rw [workTree, workTree, fileAt, fileAt, hclone _ (List.prefix_append _ _)]
    rw [Published, hremote, hwork]
    exact hpublished hwaiting
  | @push s s' env runs exchanges outcome _ hclone hrun hreplay ih =>
    obtain ⟨hsuffix, hpublished⟩ := ih fun run earlier hsub =>
      hsmooth run earlier (hsub.trans (List.suffix_cons _ _))
    obtain ⟨hclear, -, -⟩ := hsmooth _ _ (List.suffix_refl _)
    have hgood := (issues_pushChanges hclear).of_runs hrun
    refine ⟨?_, fun hwaiting => ?_⟩
    · exact hreplay.preserves (P := fun s => s.remote <:+ s.commits)
        (fun x hx _ _ hs hstep => step_suffix (hgood x hx) hclone hstep hs) hsuffix
    rw [Waiting] at hwaiting
    split at hwaiting
    · next hquiet =>
      exact (hreplay.preserves (P := fun s => s.remote <:+ s.commits ∧ Published ignored clone s)
        (fun x hx _ _ hs hstep => step_published (hgood x hx) hclone (hquiet x hx) hstep hs)
          ⟨hsuffix, hpublished hwaiting⟩).2
    · next hchanged =>
      obtain ⟨rfl, hcommits⟩ := not_not.mp hwaiting
      have hends := returns_pushChanges hclear hclone hsuffix exchanges () s' hrun hreplay
      rcases hends.published with ⟨hquiet, -⟩ | hdone
      · exact absurd hquiet hchanged
      · exact hdone hcommits

end ArchInstaller.DotfilesSync
