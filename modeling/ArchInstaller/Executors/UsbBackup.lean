import ArchInstaller.Executors.Base

/-! # The backup

`executors/usb_backup.py`: dotfiles, password databases, browser profiles, system configuration
and the package list, copied to a partition that the user provides. -/

namespace ArchInstaller

open Interaction.Program (forEach onlyIf tryFinally)
open PyText Script

def backupMount : String := "/mnt/usb-backup"

def customItemsDirectory : String := "custom"

/-- `BACKUP_ITEMS[category]`. -/
def backupItems : BackupCategory → List BackupItemConfig
  | .dotfiles =>
    [⟨"zshrc", "~/.zshrc", "ZSH config"⟩, ⟨"zshenv", "~/.zshenv", "ZSH environment"⟩,
      ⟨"bashrc", "~/.bashrc", "Bash config"⟩, ⟨"gitconfig", "~/.gitconfig", "Git config"⟩,
      ⟨"gitignore", "~/.gitignore_global", "Git global ignore"⟩,
      ⟨"kitty", "~/.config/kitty", "Kitty terminal config"⟩,
      ⟨"alacritty", "~/.config/alacritty", "Alacritty config"⟩,
      ⟨"nvim", "~/.config/nvim", "Neovim config"⟩,
      ⟨"vscode_settings", "~/.config/Code/User/settings.json", "VS Code settings"⟩,
      ⟨"vscode_keybindings", "~/.config/Code/User/keybindings.json", "VS Code keybindings"⟩,
      ⟨"starship", "~/.config/starship.toml", "Starship prompt config"⟩,
      ⟨"tmux", "~/.tmux.conf", "Tmux config"⟩, ⟨"hypr", "~/.config/hypr", "Hyprland config"⟩,
      ⟨"waybar", "~/.config/waybar", "Waybar config"⟩, ⟨"rofi", "~/.config/rofi", "Rofi config"⟩,
      ⟨"dunst", "~/.config/dunst", "Dunst notification config"⟩]
  | .keepass =>
    [⟨"keepassxc_db", "~/Documents/Passwords.kdbx", "KeePassXC database"⟩,
      ⟨"keepassxc_config", "~/.config/keepassxc", "KeePassXC config"⟩]
  | .browser =>
    [⟨"firefox_profile", "~/.mozilla/firefox", "Firefox profile"⟩,
      ⟨"chromium_profile", "~/.config/chromium", "Chromium profile"⟩]
  | .system =>
    [⟨"pacman_conf", "/etc/pacman.conf", "Pacman config"⟩,
      ⟨"makepkg_conf", "/etc/makepkg.conf", "Makepkg config"⟩,
      ⟨"mkinitcpio_conf", "/etc/mkinitcpio.conf", "Mkinitcpio config"⟩]

structure BackupManifest where
  timestamp : String
  hostname : String
  categories : List String
  packageCount : Nat
  itemsBackedUp : List String

def BackupManifest.plain (manifest : BackupManifest) : PlainValue :=
  .mapping
    [("timestamp", .text manifest.timestamp), ("hostname", .text manifest.hostname),
      ("categories", .texts manifest.categories), ("package_count", .int manifest.packageCount),
      ("items_backed_up", .texts manifest.itemsBackedUp)]

/-- The same shape as config.yaml, so it can be pasted into a new config as is. -/
def packageCatalog (safeDump : PlainValue → String) (packageNames : List String) : String :=
  "# explicitly installed packages of the backed up system\n" ++
    safeDump (.mapping [("packages", .mapping [("cataloged", .texts packageNames)])])

namespace UsbBackupStepExecutor

variable (safeDump : PlainValue → String) (config : InstallerConfig)

def expandHome (path : String) : String :=
  if startsWith "~" path then
    s!"/home/{config.system.user.name}" ++ String.ofList (path.toList.drop 1)
  else path

def commandOutput (command : Command) : Script String := do
  let result ← tryRun command
  return if result.success then strip result.stdout else "unknown"

def explicitlyInstalledPackages : Script (List String) := do
  let result ← tryRun .pacmanExplicit
  if !result.success then
    warning s!"Could not list installed packages: {strip result.stderr}"
    return []
  else return fields result.stdout

def copyItem (source destination : String) : Script Bool := do
  if ← pathExists source then
    if ← directoryExists source then
      run_ (.mkdir destination)
      run_ (.rsyncDelete source destination)
    else run_ (.cpArchive source destination)
    return true
  else return false

/-- The inner loop of `_copy_items`: it returns the items of the group that were copied. -/
def copyGroup (groupDirectory : String) : List BackupItemConfig → Script (List String)
  | [] => return []
  | item :: items => do
    let copied ← copyItem (expandHome config item.sourcePath)
      s!"{backupMount}/{groupDirectory}/{item.name}"
    onlyIf copied (debug s!"Backed up {item.name} ({item.description})")
    let others ← copyGroup groupDirectory items
    return if copied then s!"{groupDirectory}/{item.name}" :: others else others

def copyGroups : List (String × List BackupItemConfig) → Script (List String)
  | [] => return []
  | (groupDirectory, items) :: groups => do
    run_ (.mkdir s!"{backupMount}/{groupDirectory}")
    let copied ← copyGroup config groupDirectory items
    return copied ++ (← copyGroups groups)

def copyItems : Script (List String) :=
  let groups := config.sync.backupCategories.map fun category =>
    (category.value, backupItems category)
  copyGroups config (if config.sync.backupItems.isEmpty then groups
    else groups ++ [(customItemsDirectory, config.sync.backupItems)])

def writeConfigExports (packageNames : List String) : Script Unit := do
  let configDirectory := s!"{backupMount}/config"
  run_ (.mkdir configDirectory)
  writeFile s!"{configDirectory}/package_catalog.yaml" (packageCatalog safeDump packageNames)
  writeFile s!"{configDirectory}/config.yaml" (safeDump (exportableConfig config))

/-- What `execute` does while the partition is mounted: it returns the items and packages. -/
def backUp : Script (List String × List String) := do
  let itemsBackedUp ← copyItems config
  let packageNames ← explicitlyInstalledPackages
  writeConfigExports safeDump config packageNames
  let timestamp ← commandOutput .date
  let hostname ← commandOutput .hostname
  let manifest : BackupManifest :=
    { timestamp, hostname, categories := config.sync.backupCategories.map (·.value),
      packageCount := packageNames.length, itemsBackedUp }
  writeFile s!"{backupMount}/manifest.yaml" (safeDump manifest.plain)
  return (itemsBackedUp, packageNames)

/-- What `execute` does once it found the partition. -/
def backUpTo (partition : String) : Script Unit := do
  let names := join ", " (config.sync.backupCategories.map (·.value))
  info s!"Backing up {names} to {partition}..."
  run_ (.mkdir backupMount)
  let mounted ← isMountpoint backupMount
  onlyIf (!mounted) (run_ (.mount partition backupMount))
  let (itemsBackedUp, packageNames) ←
    tryFinally (backUp safeDump config) (tryRun_ (.umount backupMount))
  info s!"Backup complete: {itemsBackedUp.length} items, {packageNames.length} packages"

def execute : Script Unit := do
  let partition := config.sync.backupPartition
  if partition == "" then
    raise (.configuration
      "No partition to back up to (BACKUP_PARTITION or sync.backup_partition)")
  else if ← pathExists partition then backUpTo safeDump config partition
  else raise (.configuration s!"Backup partition {partition} does not exist")

end UsbBackupStepExecutor

end ArchInstaller
