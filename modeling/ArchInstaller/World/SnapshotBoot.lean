import ArchInstaller.Interaction.Concurrent
import ArchInstaller.Scripts.SnapshotRefresh
import ArchInstaller.Verify.UkiCleanup
import Mathlib.Data.Finset.Card

/-! # Snapshots, their UKIs and the drive that holds them

What the commands of a refresh do, and what else happens meanwhile: snapper makes, describes and
deletes snapshots, and the drive with the ESP is plugged in or pulled. -/

namespace ArchInstaller.SnapshotEntries.Refresh

open Interaction PyText

/-- The installed system, as far as it stays the same. -/
structure System where
  /-- `uname -r`. -/
  release : String
  isFile : String → Bool
  /-- `command -v`. -/
  hasProgram : String → Bool
  /-- What `/boot/vmlinuz-*` expands to. -/
  kernels : List String

/-- The kernel that `get_default_kernel` finds on the system. -/
def System.kernel (system : System) (preferredKernel : String) : String :=
  let running := runningKernel system.release
  if system.isFile (vmlinuz running) && system.isFile (initramfs running) then running
  else
    let installed := (system.kernels.filter fun path => system.isFile path &&
      system.isFile (initramfs (kernelName path))).map kernelName
    installed.headD (if preferredKernel == "" then "linux" else preferredKernel)

/-- Whether `generate_snapshot_uki` comes to build anything. -/
def System.canBuild (system : System) (kernel : String) : Bool :=
  system.isFile (vmlinuz kernel) && system.isFile (initramfs kernel) &&
    (system.hasProgram "ukify" || (system.hasProgram "objcopy" && system.isFile efiStub))

/-- A UKI of a snapshot: all that a build put out, or what a failed one left. -/
inductive UkiFile where
  | whole (build : Build)
  | broken
  deriving DecidableEq

structure State where
  /-- The ESP can be listed. -/
  reachable : Bool
  /-- The pending marker is there. -/
  marker : Bool
  /-- The snapshots whose directory is there. -/
  snapshots : Finset Nat
  /-- When a snapshot's `info.xml` was written. -/
  infos : Nat → Option Nat
  /-- The files in the UKI directory, by path. -/
  ukis : String → Option UkiFile

namespace State

def put (s : State) (path : String) (file : Option UkiFile) : State :=
  { s with ukis := Function.update s.ukis path file }

/-- `rm -f` of a path; what is on the ESP stays if that is not reachable. -/
def remove (s : State) (path : String) : State :=
  if path = refreshPendingMarker then { s with marker := false }
  else if s.reachable then s.put path none
  else s

end State

def Command.build? : Command → Option Build
  | .ukify build | .objcopy build => some build
  | _ => none

/-- A build puts its UKI on the ESP; one that fails may leave something there. -/
def Builds (s : State) (build : Build) (success : Bool) (s' : State) : Prop :=
  if success then s.reachable ∧ s' = s.put build.output (some (.whole build))
  else s' = s ∨ s.reachable ∧ ∃ left, left ∈ [none, some .broken] ∧ s' = s.put build.output left

/-- What a command that changes nothing says of the state. -/
def Answers (system : System) (s : State) (command : Command) (reply : Reply) : Prop :=
  match command with
  | .lsEfi => reply.success = s.reachable
  | .mkdir path => path = ukiDir → reply.success → s.reachable
  | .expandUkis => ∀ path, path ∈ reply.paths ↔
    s.reachable ∧ isSnapshotUki path ∧ s.ukis path ≠ none
  | .expandSnapshots => reply.numbers.Nodup ∧ ∀ number, number ∈ reply.numbers ↔
    number ∈ s.snapshots
  | .expandKernels => reply.paths = system.kernels
  | .testDirectory path => (∀ number, path = snapshotDirectory number →
    (reply.success ↔ number ∈ s.snapshots)) ∧ (path = snapshotsDir → s.snapshots.Nonempty →
      reply.success)
  | .testFile path => reply.success = system.isFile path
  | .uname => reply.output = system.release
  | .find program => reply.success = system.hasProgram program
  | .statInfos => ∀ number time, (number, time) ∈ reply.times ↔ s.infos number = some time
  | .statSnapshots => ∀ number, number ∈ reply.numbers ↔ number ∈ s.snapshots
  | _ => True

def world (system : System) : Machine Command Reply State := fun s command reply s' =>
  match command with
  | .touch path =>
    s' = if reply.success && path == refreshPendingMarker then { s with marker := true } else s
  | .rm path => s' = if reply.success then s.remove path else s
  | .ukify build | .objcopy build => Builds s build reply.success s'
  | command => s' = s ∧ Answers system s command reply

/-! ## What happens meanwhile -/

inductive Event where
  | plug
  | pull
  /-- snapper makes a snapshot. -/
  | create (number : Nat)
  /-- snapper writes the `info.xml` of a snapshot. -/
  | describe (number time : Nat)
  | delete (number : Nat)

def Event.Step : Event → State → State → Prop
  | .plug, s, s' => s' = { s with reachable := true }
  | .pull, s, s' => s' = { s with reachable := false }
  | .create number, s, s' =>
    number ∉ s.snapshots ∧ s' = { s with snapshots := insert number s.snapshots }
  | .describe number time, s, s' => number ∈ s.snapshots ∧
    s' = { s with infos := Function.update s.infos number (some time) }
  | .delete number, s, s' => number ∈ s.snapshots ∧
    s' = { s with snapshots := s.snapshots.erase number
                  infos := Function.update s.infos number none }

/-- The drive stays where it is, and the snapshots stay those that they are. -/
def Event.isCalm : Event → Bool
  | .describe .. => true
  | _ => false

/-- The snapshots than which fewer than `count` are newer. -/
def newest (count : Nat) (snapshots : Finset Nat) : Finset Nat :=
  snapshots.filter fun number => (snapshots.filter (number < ·)).card < count

end ArchInstaller.SnapshotEntries.Refresh
