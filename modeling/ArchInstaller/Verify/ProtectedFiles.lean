import ArchInstaller.Interaction.Guarded
import ArchInstaller.World.DotfileWords
import ArchInstaller.World.LinkedDotfiles

/-! # The protected system files

`pull` compares the text of a local path with the names of the protected files. What a mapping
overwrites is wherever its path leads: through dots, through links, or from above. -/

namespace ArchInstaller.DotfilesSync

open Files Interaction PyText Shell

/-! ## What a pull changes -/

/-- Commands that change files. -/
def Command.changesFiles : Command → Bool
  | .mkdir _ | .rm _ | .cp .. | .write .. | .gitPull .. | .gitAdd _ | .gitCommit .. | .gitPush _ =>
    true
  | _ => false

/-- The pull has come to a mapping that the repository has a file for. -/
def FoundStored (env : Environment) (mapping : String) (before : List (Command × Answer)) : Prop :=
  ∃ answer : Answer, answer.success ∧ (.test .exists (repositoryFile env mapping), answer) ∈ before

/-- The paths to which `cp` may copy what is at a local path before it is replaced. -/
def BackupName (target : String) (before : List (Command × Answer)) (name : String) : Prop :=
  ∃ answer : Answer, (.date "+%s", answer) ∈ before ∧ name = target ++ ".backup." ++ answer.output

/-- A command that puts what the repository has in the place of a local path. -/
inductive Restores (target : String) (before : List (Command × Answer)) : Command → Prop
  | parent : Restores target before (.mkdir (dirname target))
  | backup {name : String} (h : BackupName target before name) :
    Restores target before (.cp true target name)
  | rm : Restores target before (.rm target)
  | cp {recursive : Bool} {source : String} : Restores target before (.cp recursive source target)

/-- The commands that change files in a pull without `--force`. -/
inductive PullChanges (env : Environment) (dryRun : Bool) (before : List (Command × Answer)) :
    Command → Prop
  | harmless {command : Command} (h : command.changesFiles = false) :
    PullChanges env dryRun before command
  | gitPull {branch : String} (hwet : dryRun = false) :
    PullChanges env dryRun before (.gitPull false env.dotfilesRepo branch)
  | restore {mapping : String} {command : Command} (hwet : dryRun = false)
    (hmapping : mapping ∈ fileMappings env) (hstored : FoundStored env mapping before)
    (hsensitive : isSensitiveFile (expandedSourcePath env mapping) = false)
    (h : Restores (expandedSourcePath env mapping) before command) :
    PullChanges env dryRun before command

variable {env : Environment} {dryRun : Bool} {mapping target : String} {before earlier : List (Command × Answer)}
  {command : Command}

theorem FoundStored.later (h : FoundStored env mapping before) :
    FoundStored env mapping (earlier ++ before) := by
  obtain ⟨answer, hsuccess, hmem⟩ := h
  exact ⟨answer, hsuccess, List.mem_append_right _ hmem⟩

theorem Restores.later (h : Restores target before command) :
    Restores target (earlier ++ before) command := by
  cases h with
  | parent => exact .parent
  | backup h =>
    obtain ⟨answer, hmem, rfl⟩ := h
    exact .backup ⟨answer, List.mem_append_right _ hmem, rfl⟩
  | rm => exact .rm
  | cp => exact .cp

theorem PullChanges.later (h : PullChanges env dryRun before command) :
    PullChanges env dryRun (earlier ++ before) command := by
  cases h with
  | harmless h => exact .harmless h
  | gitPull hwet => exact .gitPull hwet
  | restore hwet hmapping hstored hsensitive h =>
    exact .restore hwet hmapping hstored.later hsensitive h.later

/-- The exchange in which a command is the condition of an `if`. -/
theorem runs_succeeds_returned {exchanges : List (Command × Answer)} {value : Bool}
    (h : Runs (succeeds command) exchanges (.returned value)) :
    ∃ answer : Answer, exchanges = [(command, answer)] ∧ value = answer.success := by
  obtain ⟨answer, hrun, rfl⟩ := runs_map_returned_iff.mp h
  rcases runs_request_iff.mp hrun with ⟨-, ⟨⟩⟩ | ⟨answer', tail, rfl, hret⟩
  obtain ⟨rfl, hvalue⟩ := runs_ret_iff.mp hret
  obtain rfl : answer = answer' := by simpa using hvalue
  exact ⟨answer, rfl, rfl⟩

theorem runs_ask_returned {exchanges : List (Command × Answer)} {answer : Answer}
    (h : Runs (ask command) exchanges (.returned answer)) : exchanges = [(command, answer)] := by
  rcases runs_request_iff.mp h with ⟨-, ⟨⟩⟩ | ⟨answer', tail, rfl, hret⟩
  obtain ⟨rfl, hvalue⟩ := runs_ret_iff.mp hret
  obtain rfl : answer = answer' := by simpa using hvalue
  rfl

/-- What replaces one local path. -/
def Replaces (target : String) (before : List (Command × Answer)) (command : Command) : Prop :=
  command.changesFiles = false ∨ Restores target before command

theorem Replaces.later (earlier before : List (Command × Answer)) (command : Command)
    (h : Replaces target before command) : Replaces target (earlier ++ before) command :=
  h.imp_right Restores.later

theorem guarded_of_harmless {α : Type} {p : Script α}
    (h : Issues (fun command => command.changesFiles = false) p) : Guarded (Replaces target) p :=
  .of_issues _ h fun _ _ => .inl

theorem guarded_backUp : Guarded (Replaces target) (backUp target) := by
  refine Guarded.bind (guarded_of_harmless (by simp [Command.changesFiles])) fun first seconds hrun => ?_
  obtain rfl := runs_ask_returned hrun
  refine .of_issues ((· = .cp true target (target ++ ".backup." ++ seconds.output)))
    (by simp) ?_
  rintro before _ rfl
  exact .inr (.backup ⟨seconds, List.mem_append_left _ List.mem_cons_self, rfl⟩)

theorem guarded_copyOver {source : String} :
    Guarded (Replaces target) (copyOver source target) := by
  refine .of_issues (fun command => Replaces target [] command) ?_ fun before _ h => by
    simpa using h.later before []
  have hrm : Replaces target [] (.rm target) := .inr .rm
  have hcp : ∀ recursive, Replaces target [] (.cp recursive source target) := fun _ => .inr .cp
  have htest : Replaces target [] (.test .directory source) := .inl rfl
  simp [copyOver, hrm, hcp, htest]

theorem guarded_restore {source : String} : Guarded (Replaces target) (restore source target) := by
  refine Guarded.seq Replaces.later ?_ fun _ => ?_
  · exact .of_issues ((· = .mkdir (dirname target))) (by simp) fun _ _ h =>
      .inr (h ▸ .parent)
  refine Guarded.seq Replaces.later (guarded_of_harmless (by simp [Command.changesFiles])) fun _ => ?_
  refine Guarded.seq Replaces.later (Guarded.onlyIf fun _ => guarded_backUp) fun _ => ?_
  exact guarded_copyOver

theorem guarded_of_quiet {α : Type} {p : Script α}
    (h : Issues (fun command => command.changesFiles = false) p) :
    Guarded (PullChanges env dryRun) p :=
  .of_issues _ h fun _ _ => .harmless

/-- What is left to do once the repository is known to have a file. -/
theorem guarded_restoring {α : Type} {source : String} {unchanged : α} {last : Bool → α} :
    Guarded (fun before command => command.changesFiles = false ∨
      dryRun = false ∧ Restores target before command) (do
        let writable ← checkPermissions target .write
        if writable then do
          let directory ← succeeds (.test .directory source)
          let changed ← needsUpdate directory source target
          Program.onlyIf (changed && !dryRun) (restore source target)
          pure (last changed)
        else pure unchanged : Script α) := by
  have hlater : ∀ (earlier before : List (Command × Answer)) (command : Command),
      (command.changesFiles = false ∨ dryRun = false ∧ Restores target before command) →
        command.changesFiles = false ∨ dryRun = false ∧ Restores target (earlier ++ before) command :=
    fun _ _ _ h => h.imp_right fun h => ⟨h.1, h.2.later⟩
  have hharmless : ∀ {α : Type} {p : Script α}, Issues (fun command => command.changesFiles = false) p →
      Guarded (fun before command => command.changesFiles = false ∨
        dryRun = false ∧ Restores target before command) p := fun h => .of_issues _ h fun _ _ => .inl
  refine Guarded.seq hlater (hharmless (by simp [checkPermissions, Command.changesFiles]))
    fun writable => ?_
  split
  swap
  · exact guarded_pure
  refine Guarded.seq hlater (hharmless (by simp [Command.changesFiles])) fun directory => ?_
  refine Guarded.seq hlater (hharmless ?_) fun changed => ?_
  · simp [needsUpdate, Command.changesFiles]
  refine Guarded.seq hlater (Guarded.onlyIf fun hdo => ?_) fun _ => guarded_pure
  have hwet : dryRun = false := by
    simp only [Bool.and_eq_true, Bool.not_eq_true'] at hdo
    exact hdo.2
  intro exchanges outcome hrun before x after hsplit
  exact (guarded_restore exchanges outcome hrun before x after hsplit).imp_right fun h => ⟨hwet, h⟩

/-- A mapping is restored only where the repository has a file for it, and its local path is not
the text of a protected one. -/
theorem guarded_pullMapping (hmapping : mapping ∈ fileMappings env) :
    Guarded (PullChanges env dryRun) (pullMapping env dryRun false mapping) := by
  refine Guarded.bind (guarded_of_quiet (by simp [Command.changesFiles])) fun first existing hrun => ?_
  obtain ⟨answer, rfl, rfl⟩ := runs_succeeds_returned hrun
  split
  swap
  · exact guarded_pure
  next hsuccess =>
  split
  · exact guarded_pure
  next hsensitive =>
  intro exchanges outcome hrun before x after hsplit
  rcases guarded_restoring exchanges outcome hrun before x after hsplit with h | ⟨hwet, h⟩
  · exact .harmless h
  · have hstored : FoundStored env mapping
        ([(.test .exists (repositoryFile env mapping), answer)] ++ before) :=
      ⟨answer, hsuccess, List.mem_cons_self⟩
    exact .restore hwet hmapping hstored (by simpa using hsensitive) h.later

theorem guarded_pullChanges : Guarded (PullChanges env dryRun) (pullChanges env dryRun false) := by
  have hlater : ∀ (earlier before : List (Command × Answer)) (command : Command),
      PullChanges env dryRun before command → PullChanges env dryRun (earlier ++ before) command :=
    fun _ _ _ h => h.later
  refine Guarded.seq hlater (guarded_of_quiet (by simp [Command.changesFiles])) fun initialized => ?_
  refine Guarded.seq hlater (guarded_of_quiet (by simp [die])) fun _ => ?_
  refine Guarded.seq hlater (guarded_of_quiet ?_) fun _ => ?_
  · simp [acquireLock, die, Command.changesFiles]
  refine Guarded.seq hlater (guarded_of_quiet ?_) fun _ => ?_
  · simp [checkSsh, die, Command.changesFiles]
  refine Guarded.seq hlater (Guarded.onlyIf fun hwet => ?_) fun _ => ?_
  · refine .of_issues
      (fun command => ∃ branch, command = .gitPull false env.dotfilesRepo branch)
      (by simp [pullFromRemote, die]) ?_
    rintro before _ ⟨branch, rfl⟩
    exact .gitPull (by simpa using hwet)
  refine Guarded.seq hlater (guarded_of_quiet ?_) fun _ => ?_
  · rw [loadFileMappings]
    split <;> simp
  refine Guarded.seq hlater (.mapEach hlater fun mapping => guarded_pullMapping) fun pulled => ?_
  refine guarded_of_quiet ?_
  split <;> simp [getVersion, Command.changesFiles]

/-! ## What is on the way to a protected file -/

variable {workingDirectory : List String} {s s' : LinkedFiles} {answer : Answer}

/-- The places that are looked at on the way to a file. -/
def wayTo (workingDirectory : List String) (t : LinkedTree String String) (file : String) :
    List (List String) :=
  (wordWalk workingDirectory t file).visited

/-- Neither a local path nor its backups nor its parents lead to a place, or above it. -/
structure Spares (workingDirectory : List String) (t : LinkedTree String String)
    (before : List (Command × Answer)) (target : String) (path : List String) : Prop where
  parent : ¬ Makes workingDirectory t (dirname target) path
  entry : ¬ Removes workingDirectory t target path
  place : ¬ Overwrites workingDirectory t target path
  backup : ∀ name, BackupName target before name → ¬ Overwrites workingDirectory t name path

/-- The repository does not hold a protected file, and no mapping that the repository has a file for
leads to one, but for those that are the text of a protected one. -/
structure Steers (workingDirectory : List String) (env : Environment)
    (before : List (Command × Answer)) (t : LinkedTree String String) : Prop where
  repository : ∀ place, (wordWalk workingDirectory t env.dotfilesRepo).place = some place →
    ∀ file ∈ sensitiveFiles, ∀ path ∈ wayTo workingDirectory t file, ¬ place <+: path
  mappings : ∀ mapping ∈ fileMappings env, FoundStored env mapping before →
    isSensitiveFile (expandedSourcePath env mapping) = false → ∀ file ∈ sensitiveFiles,
      ∀ path ∈ wayTo workingDirectory t file,
        Spares workingDirectory t before (expandedSourcePath env mapping) path

theorem eq_of_harmless (h : command.changesFiles = false)
    (hstep : linkedWorld workingDirectory s command answer s') : s' = s := by
  cases command <;> simp only [Command.changesFiles, Bool.true_eq_false] at h
  case test | diff | date => exact hstep.1
  all_goals exact hstep

/-- A command that restores a local path leaves alone what the path spares. -/
theorem eq_of_spares {path : List String}
    (h : Restores target before command) (hspares : Spares workingDirectory s.tree before target path)
    (hstep : linkedWorld workingDirectory s command answer s') : s'.tree path = s.tree path := by
  cases h with
  | parent => exact (hstep.1 path).resolve_right fun hmade => hspares.parent hmade.1
  | backup hname => exact hstep.1 path (hspares.backup _ hname)
  | rm => exact hstep.1 path hspares.entry
  | cp => exact hstep.1 path hspares.place

/-- A step leaves the way to a protected file alone. -/
theorem step_keepsWay (h : PullChanges env dryRun before command)
    (hsteers : dryRun = false → Steers workingDirectory env before s.tree)
    (hstep : linkedWorld workingDirectory s command answer s') {file : String}
    (hfile : file ∈ sensitiveFiles) {path : List String}
    (hpath : path ∈ wayTo workingDirectory s.tree file) : s'.tree path = s.tree path := by
  cases h with
  | harmless h => rw [eq_of_harmless h hstep]
  | gitPull hwet =>
    simp only [linkedWorld, LinkedEffect] at hstep
    split at hstep
    · rw [hstep]
    · next place hplace =>
      exact hstep.1 path ((hsteers hwet).repository place hplace file hfile path hpath)
  | restore hwet hmapping hstored hsensitive h =>
    exact eq_of_spares h ((hsteers hwet).mappings _ hmapping hstored hsensitive file hfile path hpath)
      hstep

/-- In a run in which no mapping leads to a protected file by another name, every protected file
stays what it was. -/
theorem sensitiveFiles_kept {exchanges : List (Command × Answer)} {outcome : Outcome Exit Unit}
    (hrun : Runs (pullChanges env dryRun false) exchanges outcome)
    (hreplay : Replays (linkedWorld workingDirectory) s exchanges s')
    (hsteers : dryRun = false → ∀ before after mid, exchanges = before ++ after →
      Replays (linkedWorld workingDirectory) s before mid →
        Steers workingDirectory env before mid.tree) :
    ∀ file ∈ sensitiveFiles,
      wordFound workingDirectory s'.tree file = wordFound workingDirectory s.tree file := by
  intro file hfile
  refine hreplay.preserves_after (P := fun mid =>
    wordFound workingDirectory mid.tree file = wordFound workingDirectory s.tree file) ?_ rfl
  intro before x after mid mid' hsplit hbefore hstep hkept
  rw [← hkept]
  exact Tree.found_congr fun path hpath => step_keepsWay
    (guarded_pullChanges exchanges outcome hrun before x after hsplit)
    (fun hwet => hsteers hwet before (x :: after) mid hsplit hbefore) hstep hfile hpath

/-! ## Another spelling -/

/-- A user whose mappings name a protected file with a slash too many. -/
def doubledSlash : Environment where
  home := "/h"
  dotfilesRepo := "/r"
  config := some ⟨["//etc/pacman.conf:pacman.conf"], "/r"⟩
  skipSshCheck := true

def twoEntries : List (List String × Node (Entry String String)) :=
  [([], .directory), (["etc"], .directory), (["r"], .directory),
    (["etc", "pacman.conf"], .file (.content "mine")),
    (["r", "pacman.conf"], .file (.content "theirs"))]

/-- A protected file, and another one in the repository. -/
def twoFiles : LinkedFiles := .ofEntries twoEntries (by decide)

/-- The repository has nothing at the place of a mapping. -/
def isStray (mapping : List Char) : Bool :=
  match charPlace (targetChars ['/', 'r'] mapping) with
  | some place => !(twoEntries.map fun entry => entry.1.map String.toList).contains place
  | none => false

theorem isStray_default : (defaultFileMappings "/h").all (isStray ·.toList) := by
  have hhome : "/h".toList = ['/', 'h'] := rfl
  simp only [defaultFileMappings, List.all_cons, List.all_nil, String.toList_append, hhome]
  repeat rw [String.toList_ofList]
  decide

theorem twoFiles_stray {mapping : String} (h : mapping ∈ defaultFileMappings "/h") :
    wordFound workingDirectory twoFiles.tree (repositoryFile doubledSlash mapping) = none := by
  have hstray := List.all_eq_true.mp isStray_default mapping h
  have hrepository : (repository doubledSlash).toList = ['/', 'r'] := rfl
  rw [isStray] at hstray
  split at hstray
  · next place hplace =>
    have hword : absolutePlace (repositoryFile doubledSlash mapping) =
        some (place.map String.ofList) := by
      rw [repositoryFile_eq, hrepository, absolutePlace_ofList, hplace, Option.map_some]
    have hlinks : ∀ way, way <+: place.map String.ofList → ∀ absolute steps,
        twoFiles.tree way ≠ some (.file (.link absolute steps)) := by
      intro way _ absolute steps hlink
      have hmem := Volume.mem_of_ofEntries hlink
      simp [twoEntries] at hmem
    rw [(wordWalk_of_absolutePlace hword hlinks).2.2]
    by_contra hsome
    obtain ⟨node, hnode⟩ := Option.ne_none_iff_exists'.mp hsome
    have hentry := List.mem_map_of_mem (f := fun entry => entry.1.map String.toList)
      (Volume.mem_of_ofEntries hnode)
    rw [List.map_map, show String.toList ∘ String.ofList = id from funext fun _ =>
      String.toList_ofList, List.map_id] at hentry
    simp [hentry] at hstray
  · cases hstray

def backedUp : LinkedFiles :=
  twoFiles.withFile ["etc"] "pacman.conf.backup.0" (.content "mine") (by decide) (by decide)

def overwritten : LinkedFiles :=
  backedUp.withFile ["etc"] "pacman.conf" (.content "theirs") (by decide) (by decide)

/-- The exchange in which the repository has no file for a mapping. -/
def skipped (env : Environment) (mapping : String) : Command × Answer :=
  (.test .exists (repositoryFile env mapping), .failed)

theorem runs_skipped {force : Bool} {rest mappings : List String}
    {exchanges : List (Command × Answer)}
    (h : Runs (Program.mapEach rest (pullMapping env dryRun force)) exchanges .stopped) :
    Runs (Program.mapEach (mappings ++ rest) (pullMapping env dryRun force))
      (mappings.map (skipped env) ++ exchanges) .stopped := by
  induction mappings with
  | nil => exact h
  | cons mapping mappings ih =>
    have hskip : Runs (pullMapping env dryRun force mapping) [skipped env mapping]
        (.returned .unchanged) := .request .ret
    have hcons : Runs (Program.mapEach (mapping :: (mappings ++ rest)) (pullMapping env dryRun force))
        ([skipped env mapping] ++ (mappings.map (skipped env) ++ exchanges)) .stopped :=
      Runs.seq hskip (runs_bind_iff.mpr (.inr (.inr ⟨ih, rfl⟩)))
    exact hcons

/-- Nothing is found where a path leads to nothing. -/
theorem not_looks {word : String} {flag : TestFlag} (h : wordFound workingDirectory s.tree word = none) :
    ¬ Looks workingDirectory s.tree word flag := by
  rintro ⟨-, -, place, hplace, hfinds⟩
  have hnone : s.tree place = none := by
    rw [wordFound, Tree.found, ← wordWalk, hplace] at h
    exact h
  cases flag with
  | «exists» => exact hfinds.1 hnone
  | file =>
    obtain ⟨content, hcontent⟩ := hfinds.1
    rw [hnone] at hcontent
    cases hcontent
  | directory =>
    rw [Finds, hnone] at hfinds
    cases hfinds

theorem replays_skipped {mappings : List String}
    (h : ∀ mapping ∈ mappings,
      wordFound workingDirectory s.tree (repositoryFile env mapping) = none) :
    Replays (linkedWorld workingDirectory) s (mappings.map (skipped env)) s := by
  induction mappings with
  | nil => exact .nil
  | cons mapping mappings ih =>
    rw [List.forall_mem_cons] at h
    exact .cons ⟨rfl, by simpa using not_looks h.1⟩ (ih h.2)

/-- A pull that goes well until it comes to the mappings. -/
theorem runs_started {exchanges : List (Command × Answer)} (hskip : env.skipSshCheck = true)
    (hloaded : Runs (loadFileMappings env) [] (.returned ()))
    (h : Runs (Program.mapEach (fileMappings env) (pullMapping env false false)) exchanges .stopped) :
    Runs (pullChanges env false false) ([(.test .directory env.dotfilesRepo, .ok),
      (.acquireLock, .ok), (.gitPull false env.dotfilesRepo "main", .ok)] ++ exchanges) .stopped := by
  have hinitialized : Runs (Program.onlyIf (!true)
      (die "Repository not initialized. Run: init <repo-url>" : Script Unit)) [] (.returned ()) := .ret
  have hlock : Runs acquireLock [(.acquireLock, .ok)] (.returned ()) :=
    Runs.last runs_succeeds_ok .ret
  have hssh : Runs (Program.onlyIf (!env.skipSshCheck) (checkSsh "pull")) [] (.returned ()) := by
    rw [hskip]
    exact .ret
  have hpulled : Runs (Program.onlyIf (!false) (pullFromRemote env.dotfilesRepo))
      [(.gitPull false env.dotfilesRepo "main", .ok)] (.returned ()) :=
    Runs.last runs_succeeds_ok .ret
  have hmappings : Runs (Program.mapEach (fileMappings env) (pullMapping env false false) >>=
      fun pulled => if pulled.all (· == .unchanged) then
        echo "No changes to pull. Everything is in sync."
      else Program.onlyIf (!false) do
        let version ← getVersion env
        echo s!"Pull complete. Version: {version}") exchanges .stopped :=
    runs_bind_iff.mpr (.inr (.inr ⟨h, rfl⟩))
  have hrun : Runs (pullChanges env false false) ([(.test .directory env.dotfilesRepo, .ok)] ++ ([] ++
      ([(.acquireLock, .ok)] ++ ([] ++ ([(.gitPull false env.dotfilesRepo "main", .ok)] ++
        ([] ++ exchanges)))))) .stopped :=
    Runs.seq runs_succeeds_ok (Runs.seq hinitialized (Runs.seq hlock (Runs.seq hssh
      (Runs.seq hpulled (Runs.seq hloaded hmappings)))))
  exact hrun

/-- What the pull does before it comes to the last mapping. -/
def beginning : List (Command × Answer) :=
  [(.test .directory "/r", .ok), (.acquireLock, .ok), (.gitPull false "/r" "main", .ok)] ++
    (defaultFileMappings "/h").map (skipped doubledSlash)

/-- The mapping is no protected text, and is restored. -/
def restoring : List (Command × Answer) :=
  [(.test .exists "/r/pacman.conf", .ok), (.test .exists "//etc/pacman.conf", .ok),
    (.testWritable "//etc", .ok), (.test .directory "/r/pacman.conf", .failed),
    (.test .file "//etc/pacman.conf", .ok),
    (.diff false "/r/pacman.conf" "//etc/pacman.conf", .failed), (.mkdir "//etc", .ok),
    (.test .exists "//etc/pacman.conf", .ok), (.date "+%s", ⟨0, "0"⟩),
    (.cp true "//etc/pacman.conf" "//etc/pacman.conf.backup.0", .ok),
    (.test .directory "/r/pacman.conf", .failed),
    (.cp false "/r/pacman.conf" "//etc/pacman.conf", .ok)]

theorem runs_restoring : Runs (pullMapping doubledSlash false false "//etc/pacman.conf:pacman.conf")
    restoring (.returned .updated) := by
  have hsource : repositoryFile doubledSlash "//etc/pacman.conf:pacman.conf" = "/r/pacman.conf" := by
    decide
  have htarget : expandedSourcePath doubledSlash "//etc/pacman.conf:pacman.conf" =
      "//etc/pacman.conf" := by decide
  have hsensitive : isSensitiveFile "//etc/pacman.conf" = false := by decide
  have hparent : dirname "//etc/pacman.conf" = "//etc" := by decide
  have hbackup : "//etc/pacman.conf" ++ ".backup." ++ "0" = "//etc/pacman.conf.backup.0" := by
    decide
  have hwritable : Runs (checkPermissions "//etc/pacman.conf" .write)
      [(.test .exists "//etc/pacman.conf", .ok), (.testWritable "//etc", .ok)] (.returned true) := by
    rw [checkPermissions, hparent]
    exact Runs.seq runs_succeeds_ok runs_succeeds_ok
  have hchanged : Runs (needsUpdate false "/r/pacman.conf" "//etc/pacman.conf")
      [(.test .file "//etc/pacman.conf", .ok),
        (.diff false "/r/pacman.conf" "//etc/pacman.conf", .failed)] (.returned true) :=
    Runs.seq runs_succeeds_ok (Runs.last runs_succeeds_failed .ret)
  have hbackedUp : Runs (backUp "//etc/pacman.conf") [(.date "+%s", ⟨0, "0"⟩),
      (.cp true "//etc/pacman.conf" "//etc/pacman.conf.backup.0", .ok)] (.returned ()) := by
    have hcopy : Runs (must (Command.cp true "//etc/pacman.conf" ("//etc/pacman.conf" ++ ".backup." ++ "0")))
        [(.cp true "//etc/pacman.conf" "//etc/pacman.conf.backup.0", .ok)] (.returned ()) := by
      rw [hbackup]
      exact runs_must_ok
    exact Runs.seq runs_ask hcopy
  have hcopied : Runs (copyOver "/r/pacman.conf" "//etc/pacman.conf")
      [(.test .directory "/r/pacman.conf", .failed),
        (.cp false "/r/pacman.conf" "//etc/pacman.conf", .ok)] (.returned ()) :=
    Runs.seq runs_succeeds_failed runs_must_ok
  have hrestored : Runs (restore "/r/pacman.conf" "//etc/pacman.conf") (restoring.drop 6)
      (.returned ()) := by
    rw [restore, hparent]
    exact Runs.seq runs_must_ok (Runs.seq runs_succeeds_ok
      (Runs.seq (p := Program.onlyIf true (backUp "//etc/pacman.conf")) hbackedUp hcopied))
  rw [pullMapping, hsource, htarget, hsensitive]
  exact Runs.seq runs_succeeds_ok (Runs.seq hwritable (Runs.seq runs_succeeds_failed
    (Runs.seq hchanged (Runs.seq hrestored .ret))))

theorem runs_beginning :
    Runs (pullChanges doubledSlash false false) (beginning ++ restoring) .stopped := by
  have hlast : Runs (Program.mapEach ["//etc/pacman.conf:pacman.conf"]
      (pullMapping doubledSlash false false)) (restoring ++ []) .stopped :=
    Runs.seq runs_restoring .stopped
  rw [List.append_nil] at hlast
  exact runs_started rfl .ret (runs_skipped hlast)

/-- A file is found by a path that leads to it. -/
theorem looks_of_file {t : LinkedTree String String} {word : String} {place : List String}
    (hword : word ≠ "" ∧ ¬ endsInSlash word)
    (hplace : (wordWalk workingDirectory t word).place = some place)
    (hsound : (wordWalk workingDirectory t word).sound)
    (hfile : ∃ entry, t place = some (.file entry)) :
    Looks workingDirectory t word .exists ∧ Looks workingDirectory t word .file ∧
      ¬ Looks workingDirectory t word .directory := by
  obtain ⟨entry, hfile⟩ := hfile
  refine ⟨⟨hword.1, hsound, place, hplace, ?_, ?_⟩,
    ⟨hword.1, hsound, place, hplace, ⟨_, hfile⟩, hword.2⟩, ?_⟩
  · rw [hfile]
    exact Option.some_ne_none _
  · exact fun h => absurd h hword.2
  · rintro ⟨-, -, place', hplace', hdirectory⟩
    obtain rfl : place = place' := Option.some.inj (hplace.symm.trans hplace')
    rw [Finds, hfile] at hdirectory
    cases hdirectory

theorem replays_restoring : Replays (linkedWorld []) twoFiles restoring overwritten := by
  have hmine := looks_of_file (t := twoFiles.tree)
    (by decide : "//etc/pacman.conf" ≠ "" ∧ ¬ endsInSlash "//etc/pacman.conf")
    (by decide : (wordWalk [] _ _).place = some ["etc", "pacman.conf"])
    (by decide) ⟨.content "mine", rfl⟩
  have htheirs := looks_of_file (t := twoFiles.tree)
    (by decide : "/r/pacman.conf" ≠ "" ∧ ¬ endsInSlash "/r/pacman.conf")
    (by decide : (wordWalk [] _ _).place = some ["r", "pacman.conf"])
    (by decide) ⟨.content "theirs", rfl⟩
  have htheirs' := looks_of_file (t := backedUp.tree)
    (by decide : "/r/pacman.conf" ≠ "" ∧ ¬ endsInSlash "/r/pacman.conf")
    (by decide : (wordWalk [] _ _).place = some ["r", "pacman.conf"])
    (by decide) ⟨.content "theirs", rfl⟩
  have hbackup : (wordWalk [] twoFiles.tree "//etc/pacman.conf.backup.0").place =
      some ["etc", "pacman.conf.backup.0"] := by decide
  have htarget : (wordWalk [] backedUp.tree "//etc/pacman.conf").place =
      some ["etc", "pacman.conf"] := by decide
  have hcopied : LinkedEffect [] twoFiles .ok backedUp
      (.cp true "//etc/pacman.conf" "//etc/pacman.conf.backup.0") := by
    refine ⟨fun path hpath => ?_, fun _ text place htext hplace _ => ?_⟩
    · have hne : path ≠ ["etc"] ++ ["pacman.conf.backup.0"] := by
        rintro rfl
        exact hpath (.reached hbackup (List.prefix_refl _))
      exact if_neg hne
    · obtain rfl := Option.some.inj (hbackup.symm.trans hplace)
      have hentry : fileText ((wordEntry [] twoFiles.tree "//etc/pacman.conf").bind twoFiles.tree) =
        some "mine" := by decide
      rw [if_pos rfl, hentry] at htext
      rw [← htext]
      decide
  have hwritten : LinkedEffect [] backedUp .ok overwritten
      (.cp false "/r/pacman.conf" "//etc/pacman.conf") := by
    refine ⟨fun path hpath => ?_, fun _ text place htext hplace _ => ?_⟩
    · have hne : path ≠ ["etc"] ++ ["pacman.conf"] := by
        rintro rfl
        exact hpath (.reached htarget (List.prefix_refl _))
      exact if_neg hne
    · obtain rfl := Option.some.inj (htarget.symm.trans hplace)
      have hfound : fileText (wordFound [] backedUp.tree "/r/pacman.conf") = some "theirs" := by
        decide
      rw [if_neg (by decide), hfound] at htext
      rw [← htext]
      decide
  have hmade : LinkedEffect [] twoFiles .ok twoFiles (.mkdir "//etc") := by
    refine ⟨fun _ => .inl rfl, fun _ place hplace => ?_⟩
    have hetc : (wordWalk [] twoFiles.tree "//etc").place = some ["etc"] := by decide
    obtain rfl := Option.some.inj (hetc.symm.trans hplace)
    decide
  exact .cons ⟨rfl, by simpa using htheirs.1⟩ (.cons ⟨rfl, by simpa using hmine.1⟩ (.cons rfl
    (.cons ⟨rfl, by simpa using htheirs.2.2⟩ (.cons ⟨rfl, by simpa using hmine.2.1⟩
      (.cons ⟨rfl, fun _ _ _ _ h => absurd h (by decide)⟩ (.cons hmade
        (.cons ⟨rfl, by simpa using hmine.1⟩ (.cons ⟨rfl, fun _ => ⟨0, rfl⟩⟩ (.cons hcopied
          (.cons ⟨rfl, by simpa using htheirs'.2.2⟩ (.cons hwritten .nil)))))))))))

/-- A pull without `--force` replaces a protected file. -/
theorem not_sensitiveFiles_kept : ¬ ∀ (workingDirectory : List String) (env : Environment)
    (dryRun : Bool) (exchanges : List (Command × Answer)) (outcome : Outcome Exit Unit)
    (s s' : LinkedFiles), Runs (pullChanges env dryRun false) exchanges outcome →
      Replays (linkedWorld workingDirectory) s exchanges s' → ∀ file ∈ sensitiveFiles,
        wordFound workingDirectory s'.tree file = wordFound workingDirectory s.tree file := by
  intro h
  have hrepository : Looks [] twoFiles.tree "/r" .directory :=
    ⟨by decide, by decide, ["r"], by decide, rfl⟩
  have hpulled : LinkedEffect [] twoFiles .ok twoFiles (.gitPull false "/r" "main") := by
    have hplace : (wordWalk [] twoFiles.tree "/r").place = some ["r"] := by decide
    simp only [LinkedEffect, hplace]
    exact ⟨fun _ _ => rfl, trivial⟩
  have hbeginning : Replays (linkedWorld []) twoFiles beginning twoFiles :=
    .cons ⟨rfl, by simpa using hrepository⟩ (.cons rfl (.cons hpulled (replays_skipped fun _ => twoFiles_stray)))
  have hkept := h [] doubledSlash false _ _ twoFiles overwritten runs_beginning
    (replays_append_iff.mpr ⟨twoFiles, hbeginning, replays_restoring⟩) "/etc/pacman.conf" (by decide)
  exact absurd hkept (by decide)

/-! ## A mapping that leads elsewhere -/

/-- A user who has no dotfiles yet. -/
def newUser : Environment := ⟨"/h", "/r", none, true⟩

def storedEntries : List (List String × Node (Entry String String)) :=
  [([], .directory), (["etc"], .directory), (["r"], .directory), (["r", "zsh"], .directory),
    (["etc", "pacman.conf"], .file (.content "mine")),
    (["r", "zsh", ".zshrc"], .file (.content "theirs"))]

/-- The repository has a dotfile for the user. -/
def stored : LinkedFiles := .ofEntries storedEntries (by decide)

/-- The files when a home directory has been made. -/
def storedWithHome : LinkedFiles := .ofEntries ((["h"], .directory) :: storedEntries) (by decide)

/-- The pull brings a first dotfile, and is cut off before it is copied. -/
def bringing : List (Command × Answer) :=
  [(.test .directory "/r", .ok), (.acquireLock, .ok), (.gitPull false "/r" "main", .ok),
    (.test .exists "/r/zsh/.zshrc", .ok), (.test .exists "/h/.zshrc", .failed),
    (.test .directory "/r/zsh/.zshrc", .failed), (.test .file "/h/.zshrc", .failed),
    (.mkdir "/h", .ok), (.test .exists "/h/.zshrc", .failed),
    (.test .directory "/r/zsh/.zshrc", .failed)]

/-- What stays while the pull brings the dotfile. -/
structure Bringing (t : LinkedTree String String) : Prop where
  others : ∀ path, ¬ ["r"] <+: path → path ≠ ["h"] → t path = stored.tree path
  repository : t ["r"] = some .directory
  home : t ["h"] = none ∨ t ["h"] = some .directory

variable {t : LinkedTree String String}

theorem Bringing.noLink (h : Bringing t) (names : List String) {way : List String} (hfirst : names.head? ≠ some "r")
    (hway : way <+: names) (absolute : Bool) (steps : List (Step String)) :
    t way ≠ some (.file (.link absolute steps)) := by
  intro hlink
  by_cases hhome : way = ["h"]
  · rw [hhome] at hlink
    rcases h.home with hnone | hdirectory
    · simp [hnone] at hlink
    · simp [hdirectory] at hlink
  have hr : ¬ ["r"] <+: way := by
    intro hpre
    obtain ⟨rest, rfl⟩ := hpre.trans hway
    exact hfirst rfl
  rw [h.others way hr hhome] at hlink
  have hmem := Volume.mem_of_ofEntries hlink
  simp [storedEntries] at hmem

/-- The way along plain names. -/
theorem Bringing.walk (h : Bringing t) {word : String} {names : List String}
    (hword : absolutePlace word = some names) (hfirst : names.head? ≠ some "r") :
    (wordWalk [] t word).place = some names ∧ ∀ path ∈ (wordWalk [] t word).visited, path <+: names := by
  have hlinks := fun way (hway : way <+: names) => h.noLink names hfirst hway
  exact ⟨(wordWalk_of_absolutePlace hword hlinks).1, (wordWalk_of_absolutePlace hword hlinks).2.1⟩

theorem Bringing.repositoryPlace (h : Bringing t) : (wordWalk [] t "/r").place = some ["r"] := by
  have hword : absolutePlace "/r" = some ["r"] := by decide
  refine (wordWalk_of_absolutePlace hword fun way hway absolute steps hlink => ?_).1
  cases way with
  | nil =>
    rw [h.others [] (by decide) (by decide)] at hlink
    exact absurd (Volume.mem_of_ofEntries hlink) (by simp [storedEntries])
  | cons name way =>
    obtain ⟨rfl, hrest⟩ := List.cons_prefix_cons.mp hway
    obtain rfl := List.prefix_nil.mp hrest
    rw [h.repository] at hlink
    cases hlink

theorem Bringing.step (h : Bringing s.tree) {x : Command × Answer} (hx : x ∈ bringing)
    (hstep : linkedWorld [] s x.1 x.2 s') : Bringing s'.tree := by
  by_cases hharmless : x.1.changesFiles = false
  · rwa [eq_of_harmless hharmless hstep]
  have hcases : x = (.gitPull false "/r" "main", .ok) ∨ x = (.mkdir "/h", .ok) := by
    have hall : ∀ x ∈ bringing, x.1.changesFiles = false ∨ x = (.gitPull false "/r" "main", .ok) ∨
        x = (.mkdir "/h", .ok) := by decide
    exact (hall x hx).resolve_left hharmless
  rcases hcases with rfl | rfl
  · simp only [linkedWorld, LinkedEffect, h.repositoryPlace] at hstep
    exact ⟨fun path hr hhome => (hstep.1 path hr).trans (h.others path hr hhome),
      hstep.2.trans h.repository, by rw [hstep.1 ["h"] (by decide)]; exact h.home⟩
  · have hway := (h.walk (by decide : absolutePlace "/h" = some ["h"]) (by decide)).2
    have hkept : ∀ path, path ≠ ["h"] → s'.tree path = s.tree path := by
      intro path hpath
      refine (hstep.1 path).resolve_right fun hmade => ?_
      rcases List.prefix_cons_iff.mp (hway path hmade.1.1) with rfl | ⟨rest, rfl, hrest⟩
      · have hroot := h.others [] (by decide) (by decide)
        rw [hmade.1.2] at hroot
        exact absurd hroot (by decide)
      · exact hpath (by rw [List.prefix_nil.mp hrest])
    refine ⟨fun path hr hhome => (hkept path hhome).trans (h.others path hr hhome), ?_, ?_⟩
    · rw [hkept _ (by decide), h.repository]
    · rcases hstep.1 ["h"] with hsame | ⟨-, hmade⟩
      · rw [hsame]
        exact h.home
      · exact .inr hmade

/-- Only one mapping is stored where the first dotfile is. -/
theorem newUser_zshrc (mapping : String) (h : mapping ∈ fileMappings newUser)
    (hfile : repositoryFile newUser mapping = "/r/zsh/.zshrc") :
    expandedSourcePath newUser mapping = "/h/.zshrc" := by
  have hhome : "/h".toList = ['/', 'h'] := rfl
  have hall : (fileMappings newUser).all fun mapping =>
      targetChars ['/', 'r'] mapping.toList != "/r/zsh/.zshrc".toList ||
        sourceChars ['/', 'h'] mapping.toList == "/h/.zshrc".toList := by
    simp only [fileMappings, newUser, defaultFileMappings, List.append_nil, List.all_cons,
      List.all_nil, String.toList_append, hhome]
    repeat rw [String.toList_ofList]
    decide
  have hmapping := List.all_eq_true.mp hall mapping h
  have htarget := congrArg String.toList hfile
  rw [repositoryFile_eq, String.toList_ofList] at htarget
  rw [expandedSourcePath_eq]
  simp only [Bool.or_eq_true, bne_iff_ne, ne_eq, beq_iff_eq] at hmapping
  have hsource := hmapping.resolve_left fun hne => hne htarget
  exact (congrArg String.ofList hsource).trans String.ofList_toList

/-- The protected files, and the only mapping that is found, are apart. -/
theorem Bringing.steers (h : Bringing t) {before after : List (Command × Answer)}
    (hsplit : bringing = before ++ after) : Steers [] newUser before t := by
  have hsensitive : ∀ file ∈ sensitiveFiles, ∃ name, absolutePlace file = some ["etc", name] := by
    intro file hfile
    simp only [sensitiveFiles, List.mem_cons, List.not_mem_nil, or_false] at hfile
    rcases hfile with rfl | rfl | rfl | rfl
    · exact ⟨"pacman.conf", by decide⟩
    · exact ⟨"makepkg.conf", by decide⟩
    · exact ⟨"mkinitcpio.conf", by decide⟩
    · exact ⟨"fstab", by decide⟩
  have hway : ∀ file ∈ sensitiveFiles, ∀ path ∈ wayTo [] t file, ∃ name, path <+: ["etc", name] := by
    intro file hfile path hpath
    obtain ⟨name, hword⟩ := hsensitive file hfile
    exact ⟨name, (h.walk hword (by simp)).2 path hpath⟩
  refine ⟨fun place hplace file hfile path hpath hbelow => ?_,
    fun mapping hmapping hstored _ file hfile path hpath => ?_⟩
  · obtain ⟨name, hname⟩ := hway file hfile path hpath
    obtain rfl := Option.some.inj (h.repositoryPlace.symm.trans hplace)
    simpa using hbelow.trans hname
  · obtain ⟨name, hname⟩ := hway file hfile path hpath
    have hmem : ∀ x ∈ before, x ∈ bringing := fun x hx => hsplit ▸ List.mem_append_left _ hx
    have htarget : expandedSourcePath newUser mapping = "/h/.zshrc" := by
      obtain ⟨answer, hsuccess, hfound⟩ := hstored
      refine newUser_zshrc mapping hmapping ?_
      have hlisted := hmem _ hfound
      simp only [bringing, List.mem_cons, Prod.mk.injEq, List.not_mem_nil, or_false, false_and,
        reduceCtorEq, Command.test.injEq, true_and, false_or] at hlisted
      rcases hlisted with ⟨hword, -⟩ | ⟨-, rfl⟩ | ⟨-, rfl⟩
      · exact hword
      · cases hsuccess
      · cases hsuccess
    have hparent : dirname "/h/.zshrc" = "/h" := by decide
    have hword : absolutePlace "/h/.zshrc" = some ["h", ".zshrc"] := by decide
    have hwalk := h.walk hword (by decide)
    have hapart : ¬ ["h", ".zshrc"] <+: path := fun hpre => by
      simpa using hpre.trans hname
    rw [htarget]
    refine ⟨?_, ?_, ?_, ?_⟩
    · rw [hparent]
      rintro ⟨hvisited, hnone⟩
      have hpre := (h.walk (by decide : absolutePlace "/h" = some ["h"]) (by decide)).2 path
        hvisited
      rcases List.prefix_cons_iff.mp hpre with rfl | ⟨rest, rfl, -⟩
      · rw [h.others [] (by decide) (by decide)] at hnone
        exact absurd hnone (by decide)
      · simp at hname
    · rintro ⟨place, hplace, hbelow⟩
      have hlast : (wordSteps "/h/.zshrc").getLast? = some (.name ".zshrc") ∧
          wordStart [] "/h/.zshrc" = [] ∧ (wordSteps "/h/.zshrc").dropLast = ["h"].map .name := by
        decide
      have hhome := (@Tree.resolve_names String String t [] maxLinks ["h"] fun way hway =>
        h.noLink ["h"] (by decide) hway).1
      rw [wordEntry, hlast.1, hlast.2.1, hlast.2.2] at hplace
      simp only [hhome, Option.map_some, Option.some.injEq] at hplace
      subst hplace
      exact hapart hbelow
    · rintro (⟨hplace, hbelow⟩ | @⟨_, rest, _, hplace, hlink⟩)
      · obtain rfl := Option.some.inj (hwalk.1.symm.trans hplace)
        exact hapart hbelow
      · obtain rfl := Option.some.inj (hwalk.1.symm.trans hplace)
        have hlinked := (@Tree.resolve_names String String t [] maxLinks (["h", ".zshrc"] ++ rest)
          fun way hway => h.noLink (["h", ".zshrc"] ++ rest) (by simp) hway).1
        obtain rfl := Option.some.inj (hlinked.symm.trans hlink)
        exact hapart (List.prefix_append _ _)
    · rintro backup ⟨answer, hdate, -⟩ _
      have hlisted := hmem _ hdate
      simp [bringing] at hlisted

theorem replays_bringing : Replays (linkedWorld []) stored bringing storedWithHome := by
  have hrepository : Looks [] stored.tree "/r" .directory :=
    ⟨by decide, by decide, ["r"], by decide, rfl⟩
  have hpulled : LinkedEffect [] stored .ok stored (.gitPull false "/r" "main") := by
    have hplace : (wordWalk [] stored.tree "/r").place = some ["r"] := by decide
    simp only [LinkedEffect, hplace]
    exact ⟨fun _ _ => rfl, trivial⟩
  have hsource := looks_of_file (t := stored.tree)
    (by decide : "/r/zsh/.zshrc" ≠ "" ∧ ¬ endsInSlash "/r/zsh/.zshrc")
    (by decide : (wordWalk [] _ _).place = some ["r", "zsh", ".zshrc"])
    (by decide) ⟨.content "theirs", rfl⟩
  have hsource' := looks_of_file (t := storedWithHome.tree)
    (by decide : "/r/zsh/.zshrc" ≠ "" ∧ ¬ endsInSlash "/r/zsh/.zshrc")
    (by decide : (wordWalk [] _ _).place = some ["r", "zsh", ".zshrc"])
    (by decide) ⟨.content "theirs", rfl⟩
  have htarget : wordFound [] stored.tree "/h/.zshrc" = none := by decide
  have htarget' : wordFound [] storedWithHome.tree "/h/.zshrc" = none := by decide
  have hmade : LinkedEffect [] stored .ok storedWithHome (.mkdir "/h") := by
    have hplace : (wordWalk [] stored.tree "/h").place = some ["h"] := by decide
    refine ⟨fun path => ?_, fun _ place hmkdir => ?_⟩
    · by_cases hpath : path = ["h"]
      · exact .inr ⟨⟨by rw [hpath]; decide, by rw [hpath]; decide⟩, by rw [hpath]; decide⟩
      · have hne : (path == ["h"]) = false := by simpa using hpath
        exact .inl (by simp only [storedWithHome, stored, Volume.ofEntries, List.lookup_cons, hne])
    · obtain rfl := Option.some.inj (hplace.symm.trans hmkdir)
      decide
  exact .cons ⟨rfl, by simpa using hrepository⟩ (.cons rfl (.cons hpulled
    (.cons ⟨rfl, by simpa using hsource.1⟩ (.cons ⟨rfl, by simpa using not_looks htarget⟩
      (.cons ⟨rfl, by simpa using hsource.2.2⟩ (.cons ⟨rfl, by simpa using not_looks htarget⟩
        (.cons hmade (.cons ⟨rfl, by simpa using not_looks htarget'⟩
          (.cons ⟨rfl, by simpa using hsource'.2.2⟩ .nil)))))))))

theorem runs_bringing : Runs (pullChanges newUser false false) bringing .stopped := by
  have hsource : repositoryFile newUser "/h/.zshrc:zsh/.zshrc" = "/r/zsh/.zshrc" := by decide
  have htarget : expandedSourcePath newUser "/h/.zshrc:zsh/.zshrc" = "/h/.zshrc" := by decide
  have hsensitive : isSensitiveFile "/h/.zshrc" = false := by decide
  have hparent : dirname "/h/.zshrc" = "/h" := by decide
  have hwritable : Runs (checkPermissions "/h/.zshrc" .write) [(.test .exists "/h/.zshrc", .failed)]
      (.returned true) := Runs.last runs_succeeds_failed .ret
  have hchanged : Runs (needsUpdate false "/r/zsh/.zshrc" "/h/.zshrc")
      [(.test .file "/h/.zshrc", .failed)] (.returned true) := Runs.last runs_succeeds_failed .ret
  have hcopying : Runs (copyOver "/r/zsh/.zshrc" "/h/.zshrc")
      [(.test .directory "/r/zsh/.zshrc", .failed)] .stopped :=
    runs_bind_iff.mpr (.inl ⟨_, _, [], rfl, runs_succeeds_failed, .stopped⟩)
  have hrestoring : Runs (restore "/r/zsh/.zshrc" "/h/.zshrc") (bringing.drop 7) .stopped := by
    rw [restore, hparent]
    exact Runs.seq runs_must_ok (Runs.seq runs_succeeds_failed
      (Runs.seq (p := Program.onlyIf false (backUp "/h/.zshrc")) .ret hcopying))
  have hmapping : Runs (pullMapping newUser false false "/h/.zshrc:zsh/.zshrc") (bringing.drop 3)
      .stopped := by
    rw [pullMapping, hsource, htarget, hsensitive]
    exact Runs.seq runs_succeeds_ok (Runs.seq hwritable (Runs.seq runs_succeeds_failed
      (Runs.seq hchanged (runs_bind_iff.mpr (.inr (.inr ⟨hrestoring, rfl⟩))))))
  exact runs_started rfl .ret (runs_bind_iff.mpr (.inr (.inr ⟨hmapping, rfl⟩)))

/-- The pull that brings a first dotfile keeps the protected files. -/
theorem sensitiveFiles_kept_bringing :
    wordFound [] storedWithHome.tree "/etc/pacman.conf" = wordFound [] stored.tree "/etc/pacman.conf" := by
  have hstored : Bringing stored.tree :=
    ⟨fun _ _ _ => rfl, by decide, .inl (by decide)⟩
  refine sensitiveFiles_kept runs_bringing replays_bringing
    (fun _ before after mid hsplit hbefore => ?_) _ (by decide)
  have hmid : Bringing mid.tree := hbefore.preserves (P := fun s => Bringing s.tree)
    (fun x hx s s' hs hstep => hs.step (hsplit ▸ List.mem_append_left _ hx) hstep) hstored
  exact hmid.steers hsplit

end ArchInstaller.DotfilesSync
