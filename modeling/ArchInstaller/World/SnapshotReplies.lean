import ArchInstaller.Interaction.Execute
import ArchInstaller.Python.Digits
import ArchInstaller.World.SnapshotBoot

/-! # Replies to a refresh

A system on which every command does its work, among listed snapshots and with UKIs at listed
paths. -/

namespace ArchInstaller.SnapshotEntries.Refresh

open Interaction PyText

def status (success : Bool) : Reply := { status := if success then 0 else 1 }

def respond (system : System) (numbers : List Nat) (paths : List String) (s : State) :
    Command → Reply × State
  | .lsEfi => (status s.reachable, s)
  | .touch path =>
    (status true, if path == refreshPendingMarker then { s with marker := true } else s)
  | .rm path => (status true, s.remove path)
  | .mkdir path => (status (path != ukiDir || s.reachable), s)
  | .expandUkis =>
    let found := paths.filter fun path => s.reachable && isSnapshotUki path && (s.ukis path).isSome
    ({ status := 0, paths := found }, s)
  | .expandSnapshots | .statSnapshots => ({ status := 0, numbers }, s)
  | .expandKernels => ({ status := 0, paths := system.kernels }, s)
  | .testDirectory path =>
    (status (path == snapshotsDir || (numbers.map snapshotDirectory).contains path), s)
  | .testFile path => (status (system.isFile path), s)
  | .uname => ({ status := 0, output := system.release }, s)
  | .find program => (status (system.hasProgram program), s)
  | .ukify build | .objcopy build =>
    let there := s.reachable && paths.contains build.output
    (status there, if there then s.put build.output (some (.whole build)) else s)
  | .statInfos =>
    let times := numbers.filterMap fun number => (s.infos number).map (number, ·)
    ({ status := 0, times }, s)
  | _ => (status true, s)

/-- The lists are those of the state. -/
structure Listed (numbers : List Nat) (paths : List String) (s : State) : Prop where
  snapshots : s.snapshots = numbers.toFinset
  infos : ∀ number, s.infos number ≠ none → number ∈ numbers
  ukis : ∀ path, isSnapshotUki path → s.ukis path ≠ none → path ∈ paths

variable {system : System} {numbers : List Nat} {paths : List String} {s : State}

@[simp] theorem success_status {success : Bool} : (status success).success = success := by
  cases success <;> rfl

theorem snapshotDirectory_toList (number : Nat) : (snapshotDirectory number).toList =
    snapshotsDir.toList ++ '/' :: ((toString number).toList ++ "/snapshot".toList) := by
  have heq : snapshotDirectory number = snapshotsDir ++ "/" ++ toString number ++ "/snapshot" := rfl
  have hslash : "/".toList = ['/'] := rfl
  simp only [heq, String.toList_append, hslash, List.append_assoc, List.cons_append,
    List.nil_append]

theorem snapshotDirectory_inj {number number' : Nat}
    (h : snapshotDirectory number = snapshotDirectory number') : number = number' := by
  have hlist := congrArg String.toList h
  rw [snapshotDirectory_toList, snapshotDirectory_toList] at hlist
  have hnumber : (toString number).toList = (toString number').toList := by simpa using hlist
  exact toString_nat_inj (String.toList_inj.mp hnumber)

theorem snapshotDirectory_ne (number : Nat) : snapshotDirectory number ≠ snapshotsDir := by
  intro h
  have hlist := congrArg String.toList h
  rw [snapshotDirectory_toList] at hlist
  simp at hlist

theorem mem_map_snapshotDirectory {number : Nat} :
    snapshotDirectory number ∈ numbers.map snapshotDirectory ↔ number ∈ numbers :=
  List.mem_map_of_injective fun _ _ h => snapshotDirectory_inj h

@[simp] theorem listed_marker {marker : Bool} :
    Listed numbers paths { s with marker } ↔ Listed numbers paths s :=
  ⟨fun h => ⟨h.1, h.2, h.3⟩, fun h => ⟨h.1, h.2, h.3⟩⟩

theorem Listed.put (h : Listed numbers paths s) {path : String} {file : Option UkiFile}
    (hfile : file ≠ none → path ∈ paths) : Listed numbers paths (s.put path file) := by
  refine ⟨h.snapshots, h.infos, fun path' hpath' huki => ?_⟩
  simp only [State.put, Function.update_apply] at huki
  split at huki
  · next heq => exact heq ▸ hfile huki
  · exact h.ukis path' hpath' huki

theorem Listed.remove (h : Listed numbers paths s) (path : String) :
    Listed numbers paths (s.remove path) := by
  unfold State.remove
  split
  · exact listed_marker.mpr h
  · split
    · exact h.put fun hnone => absurd rfl hnone
    · exact h

theorem builds_respond (h : Listed numbers paths s) (build : Build) :
    let there := s.reachable && paths.contains build.output
    Builds s build there (if there then s.put build.output (some (.whole build)) else s) ∧
      Listed numbers paths (if there then s.put build.output (some (.whole build)) else s) := by
  intro there
  by_cases hthere : there
  · obtain ⟨hreach, hmem⟩ := Bool.and_eq_true_iff.mp hthere
    rw [Builds, if_pos hthere, if_pos hthere]
    exact ⟨⟨hreach, rfl⟩, h.put fun _ => List.contains_iff_mem.mp hmem⟩
  · rw [Builds, if_neg hthere, if_neg hthere]
    exact ⟨.inl rfl, h⟩

theorem world_respond (hnodup : numbers.Nodup) (h : Listed numbers paths s) (command : Command) :
    world system s command (respond system numbers paths s command).1
        (respond system numbers paths s command).2 ∧
      Listed numbers paths (respond system numbers paths s command).2 := by
  cases command with
  | touch path =>
    refine ⟨by simp [world, respond], ?_⟩
    simp only [respond]
    split
    · exact listed_marker.mpr h
    · exact h
  | rm path => exact ⟨by simp [world, respond], h.remove path⟩
  | ukify build | objcopy build =>
    simpa only [world, respond, success_status] using builds_respond h build
  | lsEfi => exact ⟨⟨rfl, success_status⟩, h⟩
  | mkdir path => exact ⟨⟨rfl, fun hpath hmade => by simpa [respond, hpath] using hmade⟩, h⟩
  | expandUkis =>
    refine ⟨⟨rfl, fun path => ?_⟩, h⟩
    have hlisted := h.ukis path
    simp only [respond, List.mem_filter, Bool.and_eq_true, Option.isSome_iff_ne_none]
    grind
  | expandSnapshots =>
    exact ⟨⟨rfl, hnodup, fun number => by simp [respond, h.snapshots]⟩, h⟩
  | statSnapshots => exact ⟨⟨rfl, fun number => by simp [respond, h.snapshots]⟩, h⟩
  | testDirectory path =>
    refine ⟨⟨rfl, ?_, ?_⟩, h⟩
    · rintro number rfl
      rw [respond, success_status, h.snapshots, List.mem_toFinset, Bool.or_eq_true, beq_iff_eq,
        or_iff_right (snapshotDirectory_ne number), List.contains_iff_mem,
        mem_map_snapshotDirectory]
    · rintro rfl -
      simp [respond]
  | statInfos =>
    refine ⟨⟨rfl, fun number time => ?_⟩, h⟩
    have hlisted := h.infos number
    simp only [respond, List.mem_filterMap, Option.map_eq_some_iff, Prod.mk.injEq]
    grind
  | testFile | find => exact ⟨⟨rfl, success_status⟩, h⟩
  | expandKernels | uname => exact ⟨⟨rfl, rfl⟩, h⟩
  | _ => exact ⟨⟨rfl, trivial⟩, h⟩

/-- The installed system, with one kernel. -/
def standardSystem : System where
  release := "6.9.1-arch1-1"
  isFile _ := true
  hasProgram _ := true
  kernels := ["/boot/vmlinuz-linux"]

def twoSnapshots : State where
  reachable := true
  marker := false
  snapshots := {1, 2}
  infos _ := none
  ukis _ := none

theorem listed_twoSnapshots : Listed [1, 2] paths twoSnapshots :=
  ⟨by decide, fun _ h => absurd rfl h, fun _ _ h => absurd rfl h⟩

def quietCmdline : CmdlineSources where
  generated := none
  configured := some "root=/dev/mapper/root rw quiet"
  running := none
  luksUuid := none

end ArchInstaller.SnapshotEntries.Refresh
