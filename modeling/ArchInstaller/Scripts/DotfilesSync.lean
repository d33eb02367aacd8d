import ArchInstaller.Core.Command
import ArchInstaller.Scripts.Shell
import Mathlib.Data.List.DropRight

/-! # `dotfiles-sync.sh`

`push_changes`, `pull_changes`, `show_status` and `show_diff`, with the functions they call. What the
lock, the SSH agent and the connection test decide is an answer of the machine. Notifications, the
messages that say what is being done, and colours are left out. -/

namespace ArchInstaller.DotfilesSync

open Interaction PyText Shell

inductive Command where
  | test (flag : TestFlag) (path : String)
  | testReadable (path : String)
  | testWritable (path : String)
  /-- `mkdir -p`. -/
  | mkdir (path : String)
  /-- `diff -q`, or `diff -rq`. -/
  | diff (recursive : Bool) (first second : String)
  /-- `diff`, or `diff -r`, which prints what differs. -/
  | printDiff (recursive : Bool) (first second : String)
  /-- `rm -rf`. -/
  | rm (path : String)
  /-- `cp`, or `cp -r`. -/
  | cp (recursive : Bool) (source destination : String)
  | date (format : String)
  | cat (path : String)
  /-- `echo text > path`. -/
  | write (path text : String)
  /-- `acquire_lock` finds no other instance. -/
  | acquireLock
  /-- `check_keepassxc`. -/
  | checkKeepassxc
  | testGitConnection (url : String)
  | gitRemoteUrl (directory : String)
  /-- `git status --short`. -/
  | gitStatus (directory : String)
  | gitPull (rebase : Bool) (directory branch : String)
  | gitAdd (directory : String)
  | gitCommit (directory message : String)
  /-- `git push origin HEAD`. -/
  | gitPush (directory : String)
  deriving DecidableEq

abbrev Script (α : Type) := Shell.Script Command α

/-- What `yq` reads from the config file. -/
structure Config where
  mappings : List String
  repoPath : String

/-- What the script finds around it. -/
structure Environment where
  home : String
  /-- `DOTFILES_REPO`. -/
  dotfilesRepo : String
  /-- Nothing where there is no config file or no `yq`. -/
  config : Option Config
  skipSshCheck : Bool

def versionFile (env : Environment) : String := env.dotfilesRepo ++ "/.version"

/-- `SENSITIVE_FILES`. -/
def sensitiveFiles : List String :=
  ["/etc/pacman.conf", "/etc/makepkg.conf", "/etc/mkinitcpio.conf", "/etc/fstab"]

/-- `DEFAULT_FILE_MAPPINGS`. -/
def defaultFileMappings (home : String) : List String :=
  [ home ++ "/.zshrc:zsh/.zshrc",
    home ++ "/.zshenv:zsh/.zshenv",
    home ++ "/.zprofile:zsh/.zprofile",
    home ++ "/.bashrc:bash/.bashrc",
    home ++ "/.bash_profile:bash/.bash_profile",
    home ++ "/.gitconfig:git/.gitconfig",
    home ++ "/.gitignore_global:git/.gitignore_global",
    home ++ "/.config/kitty:kitty",
    home ++ "/.config/alacritty:alacritty",
    home ++ "/.config/wezterm:wezterm",
    home ++ "/.config/nvim:nvim",
    home ++ "/.config/Code/User/settings.json:vscode/settings.json",
    home ++ "/.config/Code/User/keybindings.json:vscode/keybindings.json",
    home ++ "/.config/Code/User/snippets:vscode/snippets",
    home ++ "/.vimrc:vim/.vimrc",
    home ++ "/.config/hypr:hypr",
    home ++ "/.config/waybar:waybar",
    home ++ "/.config/rofi:rofi",
    home ++ "/.config/dunst:dunst",
    home ++ "/.config/hyprpaper:hyprpaper",
    home ++ "/.config/hyprlock:hyprlock",
    home ++ "/.config/kdeglobals:kde/kdeglobals",
    home ++ "/.config/kwinrc:kde/kwinrc",
    home ++ "/.config/plasmarc:kde/plasmarc",
    home ++ "/.config/plasma-org.kde.plasma.desktop-appletsrc:kde/plasma-appletsrc",
    home ++ "/.config/kglobalshortcutsrc:kde/kglobalshortcutsrc",
    home ++ "/.config/konsolerc:kde/konsolerc",
    home ++ "/.config/dolphinrc:kde/dolphinrc",
    home ++ "/.local/share/konsole:kde/konsole-profiles",
    home ++ "/.config/i3:i3",
    home ++ "/.config/sway:sway",
    home ++ "/.config/picom:picom",
    home ++ "/.config/starship.toml:starship/starship.toml",
    home ++ "/.tmux.conf:tmux/.tmux.conf",
    home ++ "/.config/tmux:tmux",
    "/etc/pacman.conf:system/pacman.conf",
    "/etc/makepkg.conf:system/makepkg.conf" ]

/-- The mappings that `load_file_mappings` loads. -/
def fileMappings (env : Environment) : List String :=
  defaultFileMappings env.home ++ match env.config with
    | none => []
    | some config => config.mappings.filter (· != "")

/-- `DOTFILES_REPO` once the mappings are loaded. -/
def repository (env : Environment) : String :=
  match env.config with
  | none => env.dotfilesRepo
  | some config => config.repoPath

/-! ## Text -/

/-- `${mapping%%:*}`. -/
def sourcePath (mapping : String) : String :=
  String.ofList (mapping.toList.takeWhile (· != ':'))

/-- `${mapping#*:}`. -/
def destinationPath (mapping : String) : String :=
  if mapping.toList.contains ':' then
    String.ofList ((mapping.toList.dropWhile (· != ':')).drop 1)
  else mapping

/-- `${source_path/#\~/$HOME}`. -/
def expandHome (home path : String) : String :=
  if startsWith "~" path then home ++ removePrefix "~" path else path

def expandedSourcePath (env : Environment) (mapping : String) : String :=
  expandHome env.home (sourcePath mapping)

def repositoryFile (env : Environment) (mapping : String) : String :=
  repository env ++ "/" ++ destinationPath mapping

def dropSlashes (cs : List Char) : List Char := cs.rdropWhile (· == '/')

/-- What stands before the last name. -/
def beforeName (cs : List Char) : List Char := (dropSlashes cs).rdropWhile (· != '/')

def dirname (path : String) : String :=
  let parent := dropSlashes (beforeName path.toList)
  if !parent.isEmpty then String.ofList parent
  else if startsWith "/" path then "/" else "."

def isSensitiveFile (file : String) : Bool := sensitiveFiles.contains file

/-- The value of a variable in `$((…))`: octal after a zero. -/
def arithmeticValue (text : String) : Option Nat :=
  let base := if startsWith "0" text then 8 else 10
  if text.toList.all fun c => c.isDigit && c.toNat - '0'.toNat < base then
    some (text.toList.foldl (fun value c => base * value + (c.toNat - '0'.toNat)) 0)
  else none

/-- `IFS='.' read -r major minor patch`. -/
def versionParts (version : String) : String × String × String :=
  match split "." ((split "\n" version).headD "") with
  | [] => ("", "", "")
  | [major] => (major, "", "")
  | [major, minor] => (major, minor, "")
  | major :: minor :: rest => (major, minor, join "." rest)

/-- `increment_version`, or nothing where the arithmetic fails. -/
def incrementVersion (version : String) : Option String := do
  let (major, minor, patch) := versionParts version
  let patch := (← arithmeticValue patch) + 1
  if patch > 99 then
    let minor := (← arithmeticValue minor) + 1
    if minor > 99 then
      return s!"{(← arithmeticValue major) + 1}.0.0"
    else return s!"{major}.{minor}.0"
  else if isDigits minor && digitsValue minor.toList > 99 then
    return s!"{(← arithmeticValue major) + 1}.0.{patch}"
  else return s!"{major}.{minor}.{patch}"

/-! ## Functions -/

/-- `die`, with its notification. -/
def die {α : Type} (message : String) : Script α := do
  echo s!"[ERROR] {message}"
  Shell.exit 1

def acquireLock : Script Unit := do
  let free ← succeeds .acquireLock
  Program.onlyIf (!free) (die "Another instance is running. Exiting.")

def checkSsh (operation : String) : Script Unit := do
  let ready ← succeeds .checkKeepassxc
  Program.onlyIf (!ready) (die s!"SSH setup required for {operation}")

inductive Mode where
  | read | write

/-- `check_permissions`. -/
def checkPermissions (file : String) (mode : Mode) : Script Bool := do
  let existing ← succeeds (.test .exists file)
  if existing then
    match mode with
    | .read => succeeds (.testReadable file)
    | .write => succeeds (.testWritable (dirname file))
  else pure true

/-- `get_version`: a file that cannot be read counts as an empty one. -/
def getVersion (env : Environment) : Script String := do
  let existing ← succeeds (.test .file (versionFile env))
  if existing then Answer.output <$> ask (.cat (versionFile env)) else pure "0.0.0"

/-- `load_file_mappings`. Without a `repo_path` in the config file its last command fails, and with
it the script. -/
def loadFileMappings (env : Environment) : Script Unit :=
  match env.config with
  | none => pure ()
  | some config => Program.onlyIf (config.repoPath == "") (Shell.exit 1)

/-- Whether the file or directory `target` is another than `source`, or none. -/
def needsUpdate (directory : Bool) (source target : String) : Script Bool := do
  let there ← succeeds (.test (if directory then .directory else .file) target)
  if there then do
    let same ← succeeds (.diff directory source target)
    pure !same
  else pure true

/-- A directory replaces what is there, a file is copied over it. -/
def copyOver (source target : String) : Script Unit := do
  let directory ← succeeds (.test .directory source)
  if directory then do
    must (.rm target)
    must (.cp true source target)
  else must (.cp false source target)

/-! ## `push_changes` -/

/-- One mapping; whether something had to be copied. -/
def pushMapping (env : Environment) (dryRun : Bool) (mapping : String) : Script Bool := do
  let source := expandedSourcePath env mapping
  let target := repositoryFile env mapping
  let existing ← succeeds (.test .exists source)
  if existing then do
    let readable ← checkPermissions source .read
    if readable then do
      Program.onlyIf (!dryRun) (must (.mkdir (dirname target)))
      let directory ← succeeds (.test .directory source)
      let changed ← needsUpdate directory source target
      Program.onlyIf (changed && !dryRun) (copyOver source target)
      pure changed
    else pure false
  else pure false

/-- `git pull --rebase`, of either branch; a failure is only reported. -/
def pullLatest (repository : String) : Script Unit := do
  let main ← succeeds (.gitPull true repository "main")
  Program.onlyIf (!main) do
    let master ← succeeds (.gitPull true repository "master")
    Program.onlyIf (!master) (echo "Could not pull (may be first push)")

/-- The subshell: a commit that fails ends it as if it had gone well. -/
def commitAndPush (repository message : String) : Script Unit := do
  must (.gitAdd repository)
  let committed ← succeeds (.gitCommit repository message)
  if committed then do
    let pushed ← succeeds (.gitPush repository)
    Program.onlyIf (!pushed) do
      echo "Push failed. You may need to resolve conflicts manually."
      Shell.exit 1
  else echo "Nothing to commit"

/-- The new version is written, committed and pushed. -/
def pushVersion (env : Environment) : Script Unit := do
  let version ← getVersion env
  match incrementVersion version with
  | none => Shell.exit 1
  | some newVersion => do
    must (.write (versionFile env) newVersion)
    let now ← ask (.date "+%Y-%m-%d %H:%M")
    commitAndPush (repository env) s!"dotfiles v{newVersion} - {now.output}"
    echo s!"Pushed version {newVersion}"

def pushChanges (env : Environment) (dryRun : Bool) : Script Unit := do
  let initialized ← succeeds (.test .directory env.dotfilesRepo)
  Program.onlyIf (!initialized) (die "Repository not initialized. Run: init <repo-url>")
  acquireLock
  Program.onlyIf (!env.skipSshCheck) (checkSsh "push")
  loadFileMappings env
  let remoteUrl ← ask (.gitRemoteUrl (repository env))
  Program.onlyIf (remoteUrl.output != "") do
    let _ ← ask (.testGitConnection remoteUrl.output)
  Program.onlyIf (!dryRun) (pullLatest (repository env))
  let updates ← Program.mapEach (fileMappings env) (pushMapping env dryRun)
  if updates.any id then
    Program.onlyIf (!dryRun) (pushVersion env)
  else echo "No changes to push. Everything is in sync."

/-! ## `pull_changes` -/

inductive Pulled where
  | unchanged
  | updated
  | skippedSensitive (file : String)
  deriving DecidableEq

def backUp (path : String) : Script Unit := do
  let seconds ← ask (.date "+%s")
  must (.cp true path (path ++ ".backup." ++ seconds.output))

/-- What is at a local path is backed up, and replaced by what the repository has. -/
def restore (source target : String) : Script Unit := do
  must (.mkdir (dirname target))
  let existing ← succeeds (.test .exists target)
  Program.onlyIf existing (backUp target)
  copyOver source target

/-- One mapping. -/
def pullMapping (env : Environment) (dryRun force : Bool) (mapping : String) : Script Pulled := do
  let target := expandedSourcePath env mapping
  let source := repositoryFile env mapping
  let existing ← succeeds (.test .exists source)
  if existing then
    if isSensitiveFile target && !force then pure (.skippedSensitive target)
    else do
      let writable ← checkPermissions target .write
      if writable then do
        let directory ← succeeds (.test .directory source)
        let changed ← needsUpdate directory source target
        Program.onlyIf (changed && !dryRun) (restore source target)
        pure (if changed then .updated else .unchanged)
      else pure .unchanged
  else pure .unchanged

/-- `git pull`, of either branch. -/
def pullFromRemote (repository : String) : Script Unit := do
  let main ← succeeds (.gitPull false repository "main")
  Program.onlyIf (!main) do
    let master ← succeeds (.gitPull false repository "master")
    Program.onlyIf (!master) (die "Failed to pull from remote")

def pullChanges (env : Environment) (dryRun force : Bool) : Script Unit := do
  let initialized ← succeeds (.test .directory env.dotfilesRepo)
  Program.onlyIf (!initialized) (die "Repository not initialized. Run: init <repo-url>")
  acquireLock
  Program.onlyIf (!env.skipSshCheck) (checkSsh "pull")
  Program.onlyIf (!dryRun) (pullFromRemote env.dotfilesRepo)
  loadFileMappings env
  let pulled ← Program.mapEach (fileMappings env) (pullMapping env dryRun force)
  if pulled.all (· == .unchanged) then echo "No changes to pull. Everything is in sync."
  else Program.onlyIf (!dryRun) do
    let version ← getVersion env
    echo s!"Pull complete. Version: {version}"

/-! ## `show_status` -/

/-- One of the tracked files. -/
def showTracked (env : Environment) (mapping : String) : Script Unit := do
  let existing ← succeeds (.test .exists (expandedSourcePath env mapping))
  if existing then do
    let stored ← succeeds (.test .exists (repositoryFile env mapping))
    if stored then echo s!"  ✓ {sourcePath mapping} -> {destinationPath mapping}"
    else echo s!"  + {sourcePath mapping} -> {destinationPath mapping} (not in repo)"
  else echo s!"  ✗ {sourcePath mapping} -> {destinationPath mapping} (missing locally)"

def showStatus (env : Environment) : Script Unit := do
  echo s!"Repository: {env.dotfilesRepo}"
  let version ← getVersion env
  echo s!"Version: {version}"
  let initialized ← succeeds (.test .directory env.dotfilesRepo)
  Program.onlyIf (!initialized) (Shell.exit 1)
  must (.gitStatus env.dotfilesRepo)
  loadFileMappings env
  let _ ← Program.mapEach (fileMappings env) (showTracked env)

/-! ## `show_diff` -/

/-- `[ … ] && [ … ]`. -/
def andThen (first second : Script Bool) : Script Bool := do
  let holds ← first
  if holds then second else pure false

def present (path : String) : Script Bool := succeeds (.test .exists path)

def missing (path : String) : Script Bool := (! ·) <$> present path

/-- One mapping; whether it differs. -/
def showMappingDiff (env : Environment) (mapping : String) : Script Bool := do
  let source := expandedSourcePath env mapping
  let target := repositoryFile env mapping
  let both ← andThen (present source) (present target)
  if both then do
    let directory ← succeeds (.test .directory source)
    let same ← succeeds (.diff directory source target)
    Program.onlyIf (!same) do
      echo (if directory then s!"=== {sourcePath mapping} (directory) ==="
        else s!"=== {sourcePath mapping} ===")
      let _ ← ask (.printDiff directory source target)
    pure !same
  else do
    let added ← andThen (present source) (missing target)
    if added then do
      echo s!"+++ {sourcePath mapping} (new file)"
      pure true
    else do
      let deleted ← andThen (missing source) (present target)
      Program.onlyIf deleted (echo s!"--- {sourcePath mapping} (deleted locally)")
      pure deleted

def showDiff (env : Environment) : Script Unit := do
  let initialized ← succeeds (.test .directory env.dotfilesRepo)
  Program.onlyIf (!initialized) (die "Repository not initialized. Run: init <repo-url>")
  loadFileMappings env
  let differences ← Program.mapEach (fileMappings env) (showMappingDiff env)
  Program.onlyIf (!differences.any id) (echo "No differences found. Everything is in sync.")

example : incrementVersion "1.9.99" = some "1.10.0" := by decide

end ArchInstaller.DotfilesSync
