import ArchInstaller.Scripts.DotfilesSync

/-! # The repository that a command works on

`DOTFILES_REPO` is a variable: `load_file_mappings` puts the `repo_path` of the config file into it,
after `VERSION_FILE` has been derived from it and after the first commands have used it. -/

namespace ArchInstaller.DotfilesSync

open Interaction PyText Shell

/-- A command of the script that works on the repository. -/
inductive Subcommand where
  | push (dryRun : Bool)
  | pull (dryRun force : Bool)
  | status
  | diff

def execute (env : Environment) : Subcommand → Script Unit
  | .push dryRun => pushChanges env dryRun
  | .pull dryRun force => pullChanges env dryRun force
  | .status => showStatus env
  | .diff => showDiff env

/-- The paths in a command. -/
def Command.paths : Command → List String
  | .test _ path | .testReadable path | .testWritable path | .mkdir path | .rm path | .cat path
  | .write path _ => [path]
  | .diff _ first second | .printDiff _ first second => [first, second]
  | .cp _ source destination => [source, destination]
  | .gitPull _ directory _ | .gitAdd directory | .gitCommit directory _ | .gitPush directory
  | .gitRemoteUrl directory | .gitStatus directory => [directory]
  | .date _ | .acquireLock | .checkKeepassxc | .testGitConnection _ => []

/-- The values of `DOTFILES_REPO`. -/
def repositoryNames (env : Environment) : List String :=
  env.dotfilesRepo :: match env.config with
    | none => []
    | some config => if config.repoPath == "" then [] else [config.repoPath]

/-- A path that the script derives from a value of `DOTFILES_REPO`. -/
inductive InRepository (env : Environment) (directory : String) : String → Prop
  | itself : InRepository env directory directory
  | version : InRepository env directory (directory ++ "/.version")
  | file {mapping : String} (h : mapping ∈ fileMappings env) :
    InRepository env directory (directory ++ "/" ++ destinationPath mapping)
  | parent {mapping : String} (h : mapping ∈ fileMappings env) :
    InRepository env directory (dirname (directory ++ "/" ++ destinationPath mapping))

/-- A path that the script derives from the local path of a mapping. -/
inductive LocalPath (env : Environment) : String → Prop
  | itself {mapping : String} (h : mapping ∈ fileMappings env) :
    LocalPath env (expandedSourcePath env mapping)
  | parent {mapping : String} (h : mapping ∈ fileMappings env) :
    LocalPath env (dirname (expandedSourcePath env mapping))
  | backup {mapping seconds : String} (h : mapping ∈ fileMappings env) :
    LocalPath env (expandedSourcePath env mapping ++ ".backup." ++ seconds)

def WorksOn (env : Environment) (directory : String) (command : Command) : Prop :=
  ∃ path ∈ command.paths, InRepository env directory path

/-- All that a run does to a repository, it does to the same one. `resolve` tells which directory a
name stands for. -/
def OneRepository {α : Type} (resolve : String → α) (env : Environment) (subcommand : Subcommand) :
    Prop :=
  ∀ exchanges outcome, Runs (execute env subcommand) exchanges outcome →
    ∀ x ∈ exchanges, ∀ y ∈ exchanges, ∀ directory ∈ repositoryNames env,
      ∀ directory' ∈ repositoryNames env, WorksOn env directory x.1 → WorksOn env directory' y.1 →
        resolve directory = resolve directory'

/-! ## All paths are known -/

variable {env : Environment} {mapping : String}

/-- A path that is local, or one of a repository. -/
def Known (env : Environment) (path : String) : Prop :=
  LocalPath env path ∨ ∃ directory ∈ repositoryNames env, InRepository env directory path

def Accounted (env : Environment) (command : Command) : Prop :=
  ∀ path ∈ command.paths, Known env path

attribute [local simp] Command.paths Accounted pushMapping pullMapping in
theorem known_dotfilesRepo : Known env env.dotfilesRepo :=
  .inr ⟨_, List.mem_cons_self, .itself⟩

theorem known_versionFile : Known env (versionFile env) :=
  .inr ⟨_, List.mem_cons_self, .version⟩

/-- Loading the mappings ends the script where the config file names no repository. -/
theorem repository_mem {allowed : Command → Answer → Prop}
    (h : CanReturn allowed (loadFileMappings env) ()) : repository env ∈ repositoryNames env := by
  rw [repository, repositoryNames]
  rw [loadFileMappings] at h
  split at h
  · exact List.mem_cons_self
  · next config hconfig =>
    by_cases hpath : (config.repoPath == "") = true
    · exact absurd (canReturn_onlyIf.mp h hpath) (by simp [Shell.exit])
    · simp only [hconfig, if_neg hpath]
      exact List.mem_cons_of_mem _ List.mem_cons_self

theorem issues_loadFileMappings {allowed : Command → Answer → Prop} {good : Command → Prop} :
    IssuesGiven allowed good (loadFileMappings env) := by
  rw [loadFileMappings]
  split <;> simp

section Mapping

variable (hrepository : repository env ∈ repositoryNames env) (hmapping : mapping ∈ fileMappings env)
include hrepository hmapping

/-- The paths that one mapping leads to. -/
theorem known_mapping : Known env (expandedSourcePath env mapping) ∧
    Known env (dirname (expandedSourcePath env mapping)) ∧
    (∀ seconds, Known env (expandedSourcePath env mapping ++ (".backup." ++ seconds))) ∧
    Known env (repositoryFile env mapping) ∧ Known env (dirname (repositoryFile env mapping)) := by
  refine ⟨.inl (.itself hmapping), .inl (.parent hmapping), fun seconds => ?_,
    .inr ⟨_, hrepository, .file hmapping⟩, .inr ⟨_, hrepository, .parent hmapping⟩⟩
  rw [← String.append_assoc]
  exact .inl (.backup hmapping)

theorem issues_pushMapping_accounted {dryRun : Bool} :
    Issues (Accounted env) (pushMapping env dryRun mapping) := by
  have hknown := known_mapping hrepository hmapping
  simp [pushMapping, checkPermissions, needsUpdate, copyOver, Accounted, Command.paths, hknown]

theorem issues_pullMapping_accounted {dryRun force : Bool} :
    Issues (Accounted env) (pullMapping env dryRun force mapping) := by
  have hknown := known_mapping hrepository hmapping
  simp [pullMapping, checkPermissions, needsUpdate, restore, backUp, copyOver, Accounted,
    Command.paths, String.append_assoc, hknown]

theorem issues_showTracked_accounted : Issues (Accounted env) (showTracked env mapping) := by
  have hknown := known_mapping hrepository hmapping
  simp [showTracked, Accounted, Command.paths, hknown]

theorem issues_showMappingDiff_accounted : Issues (Accounted env) (showMappingDiff env mapping) := by
  have hknown := known_mapping hrepository hmapping
  simp [showMappingDiff, andThen, present, missing, Accounted, Command.paths, hknown]

end Mapping

theorem issues_getVersion : Issues (Accounted env) (getVersion env) := by
  simp [getVersion, Accounted, Command.paths, known_versionFile]

theorem issues_pushVersion_accounted (hrepository : repository env ∈ repositoryNames env) :
    Issues (Accounted env) (pushVersion env) := by
  have hknown : Known env (repository env) := .inr ⟨_, hrepository, .itself⟩
  refine issues_bind.mpr ⟨issues_getVersion, fun version _ => ?_⟩
  split
  · exact issues_exit
  · simp [commitAndPush, Accounted, Command.paths, known_versionFile, hknown]

theorem issues_die_accounted {message : String} :
    Issues (Accounted env) (die message : Script Unit) := by
  simp [die]

theorem issues_acquireLock : Issues (Accounted env) acquireLock := by
  simp [acquireLock, issues_die_accounted, Accounted, Command.paths]

theorem issues_checkSsh {operation : String} : Issues (Accounted env) (checkSsh operation) := by
  simp [checkSsh, issues_die_accounted, Accounted, Command.paths]

theorem issues_initialized :
    Issues (Accounted env) (succeeds (.test .directory env.dotfilesRepo)) := by
  simp [Accounted, Command.paths, known_dotfilesRepo]

/-- After loading, the repository is known. -/
theorem issues_loaded {α : Type} {next : Unit → Script α}
    (h : repository env ∈ repositoryNames env → Issues (Accounted env) (next ())) :
    Issues (Accounted env) (loadFileMappings env >>= next) :=
  issues_bind.mpr ⟨issues_loadFileMappings, fun _ hloaded => h (repository_mem hloaded)⟩

theorem issues_pushChanges_accounted {dryRun : Bool} :
    Issues (Accounted env) (pushChanges env dryRun) := by
  refine issues_bind.mpr ⟨issues_initialized, fun initialized _ => ?_⟩
  refine issues_bind.mpr ⟨issues_onlyIf.mpr fun _ => issues_die_accounted, fun _ _ => ?_⟩
  refine issues_bind.mpr ⟨issues_acquireLock, fun _ _ => ?_⟩
  refine issues_bind.mpr ⟨issues_onlyIf.mpr fun _ => issues_checkSsh, fun _ _ => ?_⟩
  refine issues_loaded fun hrepository => ?_
  have hknown : Known env (repository env) := .inr ⟨_, hrepository, .itself⟩
  have hmappings : Issues (Accounted env)
      (Program.mapEach (fileMappings env) (pushMapping env dryRun)) :=
    IssuesGiven.mapEach fun mapping hmapping => issues_pushMapping_accounted hrepository hmapping
  simp [pullLatest, hmappings, issues_pushVersion_accounted hrepository, Accounted, Command.paths,
    hknown]

theorem issues_pullChanges_accounted {dryRun force : Bool} :
    Issues (Accounted env) (pullChanges env dryRun force) := by
  refine issues_bind.mpr ⟨issues_initialized, fun initialized _ => ?_⟩
  refine issues_bind.mpr ⟨issues_onlyIf.mpr fun _ => issues_die_accounted, fun _ _ => ?_⟩
  refine issues_bind.mpr ⟨issues_acquireLock, fun _ _ => ?_⟩
  refine issues_bind.mpr ⟨issues_onlyIf.mpr fun _ => issues_checkSsh, fun _ _ => ?_⟩
  refine issues_bind.mpr ⟨?_, fun _ _ => ?_⟩
  · simp [pullFromRemote, issues_die_accounted, Accounted, Command.paths, known_dotfilesRepo]
  refine issues_loaded fun hrepository => ?_
  have hmappings : Issues (Accounted env)
      (Program.mapEach (fileMappings env) (pullMapping env dryRun force)) :=
    IssuesGiven.mapEach fun mapping hmapping => issues_pullMapping_accounted hrepository hmapping
  simp [hmappings, issues_getVersion]

/-- Every path in a run is a local one, or belongs to a value of `DOTFILES_REPO`. -/
theorem issues_execute (subcommand : Subcommand) :
    Issues (Accounted env) (execute env subcommand) := by
  cases subcommand with
  | push dryRun => exact issues_pushChanges_accounted
  | pull dryRun force => exact issues_pullChanges_accounted
  | status =>
    refine issues_bind.mpr ⟨issues_echo, fun _ _ => ?_⟩
    refine issues_bind.mpr ⟨issues_getVersion, fun version _ => ?_⟩
    refine issues_bind.mpr ⟨issues_echo, fun _ _ => ?_⟩
    refine issues_bind.mpr ⟨issues_initialized, fun initialized _ => ?_⟩
    refine issues_bind.mpr ⟨issues_onlyIf.mpr fun _ => issues_exit, fun _ _ => ?_⟩
    refine issues_bind.mpr ⟨by simp [Accounted, Command.paths, known_dotfilesRepo], fun _ _ => ?_⟩
    refine issues_loaded fun hrepository => ?_
    refine issues_bind.mpr ⟨?_, fun _ _ => issues_pure⟩
    exact IssuesGiven.mapEach fun mapping hmapping =>
      issues_showTracked_accounted hrepository hmapping
  | diff =>
    refine issues_bind.mpr ⟨issues_initialized, fun initialized _ => ?_⟩
    refine issues_bind.mpr ⟨issues_onlyIf.mpr fun _ => issues_die_accounted, fun _ _ => ?_⟩
    refine issues_loaded fun hrepository => ?_
    refine issues_bind.mpr ⟨?_, fun _ _ => by simp⟩
    exact IssuesGiven.mapEach fun mapping hmapping =>
      issues_showMappingDiff_accounted hrepository hmapping

/-! ## Runs before and after loading -/

/-- The first mapping, whatever the config file says. -/
theorem zshrc_mem : env.home ++ "/.zshrc:zsh/.zshrc" ∈ fileMappings env :=
  List.mem_append_left _ List.mem_cons_self

section Runs

variable {α β : Type} {first : List (Command × Answer)}

/-- The program can be cut off after exchanges of a kind. -/
def Stops (p : Script α) (P : List (Command × Answer) → Prop) : Prop :=
  ∃ exchanges, Runs p exchanges .stopped ∧ P exchanges

theorem Stops.seq {p : Script α} {next : α → Script β} {value : α}
    {P : List (Command × Answer) → Prop} (h : Runs p first (.returned value))
    (h' : Stops (next value) fun second => P (first ++ second)) : Stops (p >>= next) P := by
  obtain ⟨second, hsecond, hP⟩ := h'
  exact ⟨first ++ second, Runs.seq h hsecond, hP⟩

theorem Stops.of_runs {p : Script α} {outcome : Outcome Exit α}
    {P : List (Command × Answer) → Prop} (h : Runs p first outcome) (hP : P first) : Stops p P :=
  ⟨first, h.stop, hP⟩

/-- The program is cut off in its first part. -/
theorem Stops.before {p : Script α} {next : α → Script β} {P : List (Command × Answer) → Prop}
    (h : Stops p P) : Stops (p >>= next) P := by
  obtain ⟨exchanges, hrun, hP⟩ := h
  exact ⟨exchanges, runs_bind_iff.mpr (.inr (.inr ⟨hrun, rfl⟩)), hP⟩

end Runs

theorem runs_loadFileMappings {config : Config} (hconfig : env.config = some config)
    (hpath : config.repoPath ≠ "") : Runs (loadFileMappings env) [] (.returned ()) := by
  simp [loadFileMappings, hconfig, hpath]

theorem runs_acquireLock : Runs acquireLock [(.acquireLock, .ok)] (.returned ()) :=
  Runs.last runs_succeeds_ok .ret

theorem exists_runs_checkSsh (env : Environment) (operation : String) : ∃ exchanges,
    Runs (Program.onlyIf (!env.skipSshCheck) (checkSsh operation)) exchanges (.returned ()) := by
  cases hskip : env.skipSshCheck with
  | true => exact ⟨[], .ret⟩
  | false => exact ⟨_, Runs.last runs_succeeds_ok .ret⟩

theorem runs_initialized (message : String) : Runs
    (Program.onlyIf (!true) (die message : Script Unit)) [] (.returned ()) := .ret

/-- Both the directory that is given and the repository of the config file are worked on. -/
def Crosses (env : Environment) (exchanges : List (Command × Answer)) : Prop :=
  (∃ x ∈ exchanges, WorksOn env env.dotfilesRepo x.1) ∧
    ∃ y ∈ exchanges, WorksOn env (repository env) y.1

theorem crosses_of_mem {exchanges : List (Command × Answer)} {first second : Command}
    (hfirst : (first, .ok) ∈ exchanges) (hsecond : (second, .ok) ∈ exchanges)
    (hdotfilesRepo : WorksOn env env.dotfilesRepo first)
    (hrepository : WorksOn env (repository env) second) : Crosses env exchanges :=
  ⟨⟨_, hfirst, hdotfilesRepo⟩, _, hsecond, hrepository⟩

theorem worksOn_repositoryFile (hmapping : mapping ∈ fileMappings env) :
    WorksOn env (repository env) (.test .exists (repositoryFile env mapping)) :=
  ⟨_, List.mem_cons_self, .file hmapping⟩

theorem worksOn_remoteUrl : WorksOn env (repository env) (.gitRemoteUrl (repository env)) :=
  ⟨_, List.mem_cons_self, .itself⟩

theorem worksOn_initialized : WorksOn env env.dotfilesRepo (.test .directory env.dotfilesRepo) :=
  ⟨_, List.mem_cons_self, .itself⟩

section Crossing

variable {config : Config} (hconfig : env.config = some config) (hpath : config.repoPath ≠ "")
include hconfig hpath

theorem stops_pushChanges {dryRun : Bool} : Stops (pushChanges env dryRun) (Crosses env) := by
  obtain ⟨sshExchanges, hssh⟩ := exists_runs_checkSsh env "push"
  refine .seq runs_succeeds_ok (.seq (runs_initialized _) (.seq runs_acquireLock (.seq hssh ?_)))
  refine .seq (runs_loadFileMappings hconfig hpath) (.before (.of_runs (runs_ask : Runs _ [(_, .ok)] _) ?_))
  exact crosses_of_mem (by simp) (by simp) worksOn_initialized worksOn_remoteUrl

theorem stops_pullChanges {dryRun force : Bool} :
    Stops (pullChanges env dryRun force) (Crosses env) := by
  obtain ⟨sshExchanges, hssh⟩ := exists_runs_checkSsh env "pull"
  obtain ⟨pulledExchanges, hpulled⟩ : ∃ exchanges, Runs
      (Program.onlyIf (!dryRun) (pullFromRemote env.dotfilesRepo)) exchanges (.returned ()) := by
    cases dryRun with
    | true => exact ⟨[], .ret⟩
    | false => exact ⟨_, Runs.last runs_succeeds_ok .ret⟩
  refine .seq runs_succeeds_ok (.seq (runs_initialized _) (.seq runs_acquireLock (.seq hssh ?_)))
  refine .seq hpulled (.seq (runs_loadFileMappings hconfig hpath) (.before (.before ?_)))
  refine .before (.of_runs runs_succeeds_ok ?_)
  exact crosses_of_mem (by simp) (by simp) worksOn_initialized (worksOn_repositoryFile zshrc_mem)

theorem stops_showStatus : Stops (showStatus env) (Crosses env) := by
  refine .seq runs_echo (.seq (Runs.seq runs_succeeds_ok
    (runs_map_returned_iff.mpr ⟨.ok, runs_ask, rfl⟩)) (.seq runs_echo ?_))
  refine .seq runs_succeeds_ok (.seq .ret (.seq runs_must_ok ?_))
  refine .seq (runs_loadFileMappings hconfig hpath) (.before (.before ?_))
  refine .seq runs_succeeds_ok (.before (.of_runs runs_succeeds_ok ?_))
  exact crosses_of_mem (by simp) (by simp) worksOn_initialized (worksOn_repositoryFile zshrc_mem)

theorem stops_showDiff : Stops (showDiff env) (Crosses env) := by
  refine .seq runs_succeeds_ok (.seq (runs_initialized _) ?_)
  refine .seq (runs_loadFileMappings hconfig hpath) (.before (.before ?_))
  refine .before (.seq runs_succeeds_ok (.of_runs runs_succeeds_ok ?_))
  exact crosses_of_mem (by simp) (by simp) worksOn_initialized (worksOn_repositoryFile zshrc_mem)

theorem stops_execute (subcommand : Subcommand) :
    Stops (execute env subcommand) (Crosses env) := by
  cases subcommand with
  | push => exact stops_pushChanges hconfig hpath
  | pull => exact stops_pullChanges hconfig hpath
  | status => exact stops_showStatus hconfig hpath
  | diff => exact stops_showDiff hconfig hpath

end Crossing

theorem mem_repositoryNames {directory : String} : directory ∈ repositoryNames env ↔
    directory = env.dotfilesRepo ∨
      ∃ config ∈ env.config, config.repoPath ≠ "" ∧ directory = config.repoPath := by
  rw [repositoryNames, List.mem_cons]
  cases hconfig : env.config with
  | none => simp
  | some config => by_cases hpath : config.repoPath = "" <;> simp [hpath]

/-- A command works on one repository exactly where the config file names none, or the one that the
script starts with. -/
theorem oneRepository_iff {α : Type} (resolve : String → α) (env : Environment)
    (subcommand : Subcommand) : OneRepository resolve env subcommand ↔
      ∀ config ∈ env.config, config.repoPath ≠ "" →
        resolve config.repoPath = resolve env.dotfilesRepo := by
  constructor
  · intro h config hconfig hpath
    obtain ⟨exchanges, hrun, ⟨x, hx, hdotfilesRepo⟩, y, hy, hrepository⟩ :=
      stops_execute hconfig hpath subcommand
    have hname : repository env = config.repoPath := by
      rw [repository, Option.mem_def.mp hconfig]
    rw [hname] at hrepository
    exact h exchanges .stopped hrun y hy x hx _ (mem_repositoryNames.mpr (.inr ⟨config, hconfig,
      hpath, rfl⟩)) _ List.mem_cons_self hrepository hdotfilesRepo
  · intro h exchanges outcome _ x _ y _ directory hmem directory' hmem' _ _
    have hsame : ∀ name ∈ repositoryNames env, resolve name = resolve env.dotfilesRepo := by
      intro name hname
      rcases mem_repositoryNames.mp hname with rfl | ⟨config, hconfig, hpath, rfl⟩
      · rfl
      · exact h config hconfig hpath
    rw [hsame directory hmem, hsame directory' hmem']

/-- The environment in which the config file names another repository. -/
def movedEnvironment : Environment where
  home := "/home/user"
  dotfilesRepo := "/home/user/.dotfiles-repo"
  config := some ⟨[], "/home/user/dotfiles"⟩
  skipSshCheck := true

/-- A push checks one directory and publishes another. -/
theorem not_oneRepository : ¬ ∀ env subcommand, OneRepository id env subcommand := by
  intro h
  have hrun : Runs (execute movedEnvironment (.push true))
      [(.test .directory "/home/user/.dotfiles-repo", .ok), (.acquireLock, .ok),
        (.gitRemoteUrl "/home/user/dotfiles", .ok)] .stopped :=
    .request (.request (.request .stopped))
  have hsame := h movedEnvironment (.push true) _ _ hrun _ List.mem_cons_self _
    (List.mem_cons_of_mem _ (List.mem_cons_of_mem _ List.mem_cons_self))
    "/home/user/.dotfiles-repo" (by decide) "/home/user/dotfiles" (by decide)
    ⟨_, List.mem_cons_self, .itself⟩ ⟨_, List.mem_cons_self, .itself⟩
  exact absurd hsame (by decide)

end ArchInstaller.DotfilesSync
