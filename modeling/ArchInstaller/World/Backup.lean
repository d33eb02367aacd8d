import ArchInstaller.Executors.UsbBackup
import ArchInstaller.World.FileSystem

/-! # The backup partition, and what is copied to it

The files of the machine and those of the file system that is mounted for the backup, and what the
commands of the backup do to them. There are files and directories, no links. Nothing is said of
what a command that fails leaves, nor of words that the shell takes apart or that go up. -/

namespace ArchInstaller

open Files Interaction PyText

/-- A file, with the time that `cp -a` and `rsync -a` keep. -/
structure StoredFile where
  data : List UInt8
  modified : Nat
  deriving DecidableEq

/-- `rsync` takes files of one size and time for the same file. -/
def StoredFile.looksLike (stored current : StoredFile) : Prop :=
  stored.data.length = current.data.length ∧ stored.modified = current.modified

instance (stored current : StoredFile) : Decidable (stored.looksLike current) :=
  inferInstanceAs (Decidable (_ ∧ _))

/-- What `rsync -a --delete` leaves at a path. -/
def mirrored : Option (Node StoredFile) → Option (Node StoredFile) → Option (Node StoredFile)
  | some (.file stored), some (.file current) =>
    if stored.looksLike current then some (.file stored) else some (.file current)
  | _, current => current

def backupPlace : List String := ["mnt", "usb-backup"]

structure BackupState where
  /-- The files of the machine, with what the mountpoint has while nothing is mounted. -/
  outside : Tree String StoredFile
  /-- The files of the file system that the mountpoint is for. -/
  partition : Tree String StoredFile
  mounted : Bool

/-- The files as the commands find them. -/
def BackupState.view (s : BackupState) : Tree String StoredFile :=
  if s.mounted then s.outside.mount s.partition backupPlace else s.outside

/-- A successful `rsync -a --delete` between two directories, neither of them in the other. -/
structure Mirrored (t t' : Tree String StoredFile) (source target : List String) : Prop where
  into : ∀ rest, t' (target ++ rest) = mirrored (t (target ++ rest)) (t (source ++ rest))
  others : OnlyBelow target t t'

/-- A file is written, over what is there. -/
structure Written (t t' : Tree String StoredFile) (place : List String) : Prop where
  file : ∃ content, t' place = some (.file content)
  others : ∀ path, path ≠ place → t' path = t path

def ViewEffect (t : Tree String StoredFile) (ok : Bool) (t' : Tree String StoredFile) :
    Command → Prop
  | .rsyncDelete source destination => ok → ∀ place target, wordPlace source = some place →
      wordPlace destination = some target → ¬ place <+: target → ¬ target <+: place →
        Mirrored t t' place target
  | .writeFile word => ok → ∀ place, wordPlace word = some place → Written t t' place
  | command => FileEffect t t ok t' command

/-- What a command does to the files; what a mount hides stays as it is. -/
def BackupEffect (s : BackupState) (ok : Bool) (s' : BackupState) : Command → Prop
  | .mount _ directory => wordPlace directory = some backupPlace →
      s' = if ok then { s with mounted := true } else s
  | .umount _ => s'.outside = s.outside ∧ s'.partition = s.partition
  | .mountpoint directory => s' = s ∧ (wordPlace directory = some backupPlace → ok = s.mounted)
  | command => s'.mounted = s.mounted ∧ (s.mounted = false → s'.partition = s.partition) ∧
      (s.mounted = true → ∀ path, backupPlace <+: path → s'.outside path = s.outside path) ∧
      ViewEffect s.view ok s'.view command

def backupWorld : Machine Invocation CommandExecutionResult BackupState :=
  fun s invocation answer s' => BackupEffect s answer.success s' invocation.command

namespace BackupState

variable {s : BackupState}

theorem view_partition (h : s.mounted = true) (path : List String) :
    s.view (backupPlace ++ path) = s.partition path := by
  rw [view, if_pos h, Tree.mount_append]

theorem view_outside {path : List String} (h : ¬ backupPlace <+: path) :
    s.view path = s.outside path := by
  unfold view
  split
  · exact Tree.mount_of_not_below h
  · rfl

end BackupState

end ArchInstaller
