import ArchInstaller.Executors.Migration
import ArchInstaller.Interaction.Machine
import ArchInstaller.Python.Paths
import ArchInstaller.World.Devices

/-! # The system that is migrated

The old system's volume as one tree, seen from the btrfs top level, with the subvolumes that the
running system mounts over each other; and where copies of its files are while it is migrated. -/

namespace ArchInstaller

open Interaction PyText

/-- The names along a path, from the top of a tree. -/
abbrev TreePath := List String

/-- An old system. Places are below the btrfs top level, where every subvolume is a directory. -/
structure OldSystem where
  files : Set TreePath
  directories : Set TreePath
  /-- What holds a file or a directory is a directory. -/
  closed : ∀ place name, place ++ [name] ∈ files ∪ directories → place ∈ directories
  /-- What `btrfs subvolume list` prints. -/
  listing : String
  /-- The subvolume that is mounted at `/`. -/
  root : TreePath
  /-- The subvolumes that are mounted below `/`, by their mountpoints. -/
  mounts : TreePath → Option TreePath

namespace OldSystem

variable (old : OldSystem)

/-- Walk on from `place`, which the running system sees at `seen`. -/
def walk (place seen : TreePath) : TreePath → TreePath
  | [] => place
  | name :: rest =>
    walk ((old.mounts (seen ++ [name])).getD (place ++ [name])) (seen ++ [name]) rest

/-- The place of what the running system sees at a path. -/
def locate (path : TreePath) : TreePath := old.walk old.root [] path

/-- The files at a place or below it. -/
def filesBelow (place : TreePath) : Set TreePath := {file | file ∈ old.files ∧ place <+: file}

/-- What `test` finds out. -/
def passes : TestFlag → TreePath → Prop
  | .exists, place => place ∈ old.files ∪ old.directories
  | .file, place => place ∈ old.files
  | .directory, place => place ∈ old.directories

variable {old}

theorem mem_directories_of_file {place rest : TreePath} {name : String}
    (h : place ++ name :: rest ∈ old.files ∪ old.directories) : place ∈ old.directories := by
  induction rest generalizing place name with
  | nil => exact old.closed place name h
  | cons next rest ih =>
    have hnext : place ++ [name] ∈ old.directories := ih (by simpa using h)
    exact old.closed place name (.inr hnext)

/-- Where there is a file at a place or below it, there is something at the place. -/
theorem passes_of_file {place file : TreePath} (h : file ∈ old.filesBelow place) :
    old.passes .exists place := by
  obtain ⟨hfile, rest, rfl⟩ := h
  cases rest with
  | nil => exact .inl (by simpa using hfile)
  | cons name rest => exact .inr (mem_directories_of_file (.inl hfile))

end OldSystem

/-! ## The copies of its files -/

/-- Where the files of the old system are: on the disk, in the directories below the staging
directory, and in the new target. -/
structure MigrationState where
  /-- The disk still holds the whole old system. -/
  holdsOld : Bool
  staged : String → Set TreePath
  target : Set TreePath

namespace MigrationState

def allStaged (s : MigrationState) : Set TreePath := {file | ∃ area, file ∈ s.staged area}

def addStaged (s : MigrationState) (area : String) (files : Set TreePath) : MigrationState :=
  { s with staged := Function.update s.staged area (s.staged area ∪ files) }

end MigrationState

/-- The place below the old system's top level that a word of a command names. -/
def oldPlace (word : String) : Option TreePath :=
  if isPlainWord word then below (pathComponents oldMountDirectory) (pathComponents word) else none

/-- The place below the staging directory. -/
def stagedPlace (word : String) : Option TreePath :=
  below (pathComponents stagingDirectory) (pathComponents word)

variable (old : OldSystem)

/-- The old system is mounted at its directory, and the commands that only look answer truly of it
while the disk holds it. Nothing is said of a path that is no plain word, which the shell takes
apart. -/
def LooksTrue (s : MigrationState) (invocation : Invocation) (answer : CommandExecutionResult) :
    Prop :=
  match invocation.command with
  | .subvolumeList path =>
    path = oldMountDirectory → s.holdsOld → answer.stdout = old.listing
  | .test flag path =>
    (∀ place, oldPlace path = some place → s.holdsOld →
      (answer.success ↔ old.passes flag place)) ∧
    (∀ place, stagedPlace path = some place → answer.success = false →
      ∀ area, place <+: [area] → s.staged area = ∅)
  | _ => True

/-- `cp -a` into the staging directory. A copy that meets an earlier one is put one level down or
replaces it by a file of the same source, so nothing staged is lost. -/
structure CopiesToStaging (s : MigrationState) (source destination area : String) (success : Bool)
    (s' : MigrationState) : Prop where
  holdsOld : s'.holdsOld = s.holdsOld
  target : s'.target = s.target
  grows : ∀ area, s.staged area ⊆ s'.staged area
  fromOld : ∀ area, s'.staged area ⊆ s.staged area ∪ old.files
  others : isPlainWord source → isPlainWord destination → ∀ area', area' ≠ area →
    s'.staged area' = s.staged area'
  copies : ∀ place, oldPlace source = some place → s.holdsOld → success →
    old.filesBelow place ⊆ s'.staged area

/-- Any other `cp -a`: the copies go to the target. -/
structure CopiesToTarget (s : MigrationState) (source : String) (success : Bool)
    (s' : MigrationState) : Prop where
  holdsOld : s'.holdsOld = s.holdsOld
  staged : s'.staged = s.staged
  grows : s.target ⊆ s'.target
  copies : ∀ area, stagedPlace source = some [area] → success → s.staged area ⊆ s'.target

/-- `rm -rf` of the staging directory; where it fails it may have removed a part. -/
structure RemovesStaging (s : MigrationState) (success : Bool) (s' : MigrationState) : Prop where
  holdsOld : s'.holdsOld = s.holdsOld
  target : s'.target = s.target
  shrinks : ∀ area, s'.staged area ⊆ s.staged area
  removes : success → ∀ area, s'.staged area = ∅

/-- A command that writes a block device or removes files of the target. -/
structure LosesFiles (s s' : MigrationState) : Prop where
  holdsOld : s'.holdsOld → s.holdsOld
  staged : s'.staged = s.staged
  target : s'.target ⊆ s.target

/-- What a call does to the copies of the old system's files. -/
def MovesFiles (s : MigrationState) (invocation : Invocation) (answer : CommandExecutionResult)
    (s' : MigrationState) : Prop :=
  match invocation.command with
  | .cpArchive source destination =>
    match stagedPlace destination with
    | some (area :: _) => CopiesToStaging old s source destination area answer.success s'
    | _ => CopiesToTarget s source answer.success s'
  | .rmRecursive path =>
    if path = stagingDirectory then RemovesStaging s answer.success s' else LosesFiles s s'
  | .rmForce _ => LosesFiles s s'
  | command => if command.writes = [] then s' = s else LosesFiles s s'

def migrationWorld : Machine Invocation CommandExecutionResult MigrationState :=
  fun s invocation answer s' => LooksTrue old s invocation answer ∧
    MovesFiles old s invocation answer s'

/-- The commands that move files, apart from those that write a block device. -/
def Command.movesFiles : Command → Bool
  | cpArchive .. | rmRecursive _ | rmForce _ => true
  | _ => false

/-- A command that leaves the copies as they are. -/
def LeavesFiles (invocation : Invocation) : Prop :=
  invocation.command.writes = [] ∧ invocation.command.movesFiles = false

variable {old} {s s' : MigrationState} {invocation : Invocation} {answer : CommandExecutionResult}

theorem LeavesFiles.movesFiles_iff (h : LeavesFiles invocation) :
    MovesFiles old s invocation answer s' ↔ s' = s := by
  obtain ⟨hwrites, hmoves⟩ := h
  unfold MovesFiles
  split
  · rename_i hcommand
    rw [hcommand] at hmoves
    cases hmoves
  · rename_i hcommand
    rw [hcommand] at hmoves
    cases hmoves
  · rename_i hcommand
    rw [hcommand] at hmoves
    cases hmoves
  · rw [if_pos hwrites]

theorem LeavesFiles.eq (h : LeavesFiles invocation)
    (hstep : migrationWorld old s invocation answer s') : s' = s :=
  h.movesFiles_iff.mp hstep.2

end ArchInstaller
