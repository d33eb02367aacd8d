import ArchInstaller.Core.Command
import ArchInstaller.Interaction.Machine
import ArchInstaller.World.Disk

/-! # What is mounted and what is open

The mounted file systems and the open LUKS volumes of the machine that the installer runs on,
whatever they are. `umount` and `cryptsetup close` do what they are asked wherever there is
something to unmount or close; every other command may succeed or fail. -/

namespace ArchInstaller

open Interaction

structure MountedAt where
  directory : String
  device : String
  deriving DecidableEq

structure OpenState where
  /-- The newest mount comes first. -/
  mounts : List MountedAt
  mappings : List String
  deriving DecidableEq

namespace OpenState

def isMounted (s : OpenState) (directory : String) : Bool :=
  s.mounts.any (·.directory == directory)

def addMount (s : OpenState) (device directory : String) : OpenState :=
  { s with mounts := ⟨directory, device⟩ :: s.mounts }

def addMapping (s : OpenState) (name : String) : OpenState :=
  { s with mappings := name :: s.mappings }

/-- The newest mount at a directory goes. -/
def unmount (s : OpenState) (directory : String) : OpenState :=
  { s with mounts := s.mounts.eraseP (·.directory == directory) }

def close (s : OpenState) (name : String) : OpenState :=
  { s with mappings := s.mappings.erase name }

@[simp] theorem unmount_addMount (s : OpenState) (device directory : String) :
    (s.addMount device directory).unmount directory = s := by
  simp [unmount, addMount]

@[simp] theorem close_addMapping (s : OpenState) (name : String) :
    (s.addMapping name).close name = s := by
  simp [close, addMapping]

theorem addMapping_ne (s : OpenState) (name : String) : s.addMapping name ≠ s := by
  intro h
  have hlength := congrArg (·.mappings.length) h
  simp [addMapping] at hlength

theorem unmount_ne {s : OpenState} {directory : String} (h : s.isMounted directory) :
    s.unmount directory ≠ s := by
  intro heq
  have hlength := congrArg (·.mounts.length) heq
  have hmem : ∃ mount ∈ s.mounts, (mount.directory == directory) = true := by
    simpa [isMounted] using h
  obtain ⟨mount, hmount, hdirectory⟩ := hmem
  have hpositive := List.length_pos_of_mem hmount
  simp only [unmount] at hlength
  rw [List.length_eraseP_of_mem hmount hdirectory] at hlength
  omega

end OpenState

/-- What a command mounts, unmounts, opens or closes. -/
def OpenEffect (s : OpenState) (ok : Bool) (s' : OpenState) : Command → Prop
  | .mountBtrfs device directory | .mountTopLevel device directory
  | .mountSubvolume _ _ device directory | .mountVfat device directory
  | .mountExt4 device directory | .mount device directory =>
    s' = if ok then s.addMount device directory else s
  | .umount directory => s' = s.unmount directory
  | .umountRecursive directory =>
    s' = { s with mounts := s.mounts.filter fun mount => !atOrBelow directory mount.directory }
  | .cryptsetupOpen _ _ name =>
    if ok then name ∉ s.mappings ∧ s' = s.addMapping name else s' = s
  | .cryptsetupClose name => s' = s.close name
  | .dmsetupRemoveAll => s'.mounts = s.mounts ∧ s'.mappings.Sublist s.mappings
  | .mountpoint directory => s' = s ∧ ok = s.isMounted directory
  | _ => s' = s

def openWorld : Machine Invocation CommandExecutionResult OpenState :=
  fun s invocation answer s' => OpenEffect s answer.success s' invocation.command

/-- The commands that mount, unmount, open or close nothing. -/
def Command.leavesOpenState : Command → Bool
  | mountBtrfs .. | mountTopLevel .. | mountSubvolume .. | mountVfat .. | mountExt4 .. | mount ..
  | umount _ | umountRecursive _ | cryptsetupOpen .. | cryptsetupClose _ | dmsetupRemoveAll => false
  | _ => true

theorem openWorld_eq {s s' : OpenState} {invocation : Invocation} {answer : CommandExecutionResult}
    (hstep : openWorld s invocation answer s') (h : invocation.command.leavesOpenState) :
    s' = s := by
  obtain ⟨command, raises, inputData⟩ := invocation
  cases command <;> simp only [Command.leavesOpenState, Bool.false_eq_true] at h <;>
    simp only [openWorld, OpenEffect] at hstep
  case mountpoint => exact hstep.1
  all_goals exact hstep

end ArchInstaller
