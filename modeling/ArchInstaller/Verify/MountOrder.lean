import ArchInstaller.Verify.StorageRuns

/-! # What is seen at the mountpoints

The subvolumes are mounted in the order of the configuration, and then the EFI partition. A mount
hides whatever was mounted at or below its directory before, so every subvolume is seen at its
mountpoint exactly when no mountpoint lies above one that was mounted earlier. -/

namespace ArchInstaller

open Interaction PyText Script

/-- The names on the way to a path, where no directory is a symbolic link. -/
def location (path : String) : List String :=
  (pathComponents path).foldl
    (fun names name => if name == ".." then names.dropLast else names ++ [name]) []

/-- A path leads into the newest of the mounts at or above it; the newest mount comes first. -/
def visibleMount (mounts : List Mount) (path : String) : Option Mount :=
  mounts.find? fun mount => (location mount.path).isPrefixOf (location path)

/-- The file system whose root is seen at a path. -/
def seenAt (mounts : List Mount) (path : String) : Option Source :=
  (visibleMount mounts path).bind fun mount =>
    if location mount.path = location path then some mount.source else none

section Mounts

variable {newer older : List Mount} {mount : Mount} {path : String} {source : Source}

/-- No mount in the list lies at or above the path. -/
def LeavesVisible (mounts : List Mount) (path : String) : Prop :=
  ∀ mount ∈ mounts, ¬ location mount.path <+: location path

theorem seenAt_append (h : LeavesVisible newer path) :
    seenAt (newer ++ older) path = seenAt older path := by
  have hnewer : visibleMount newer path = none := by
    simpa [visibleMount, List.find?_eq_none, LeavesVisible] using h
  rw [visibleMount] at hnewer
  rw [seenAt, visibleMount, List.find?_append, hnewer, Option.none_or]
  rfl

theorem seenAt_cons (h : location mount.path = location path) :
    seenAt (mount :: older) path = some mount.source := by
  simp [seenAt, visibleMount, h]

/-- A path that shows what no mount in `newer` brings there is not covered by one of them. -/
theorem leavesVisible_of_seenAt (hseen : seenAt (newer ++ older) path = some source)
    (hother : ∀ mount ∈ newer, location mount.path = location path → mount.source ≠ source) :
    LeavesVisible newer path := by
  cases hvisible : visibleMount newer path with
  | none => simpa [visibleMount, List.find?_eq_none, LeavesVisible] using hvisible
  | some mount =>
    have hmem : mount ∈ newer := List.mem_of_find?_eq_some hvisible
    rw [visibleMount] at hvisible
    rw [seenAt, visibleMount, List.find?_append, hvisible, Option.some_or, Option.bind_some] at hseen
    split at hseen
    · next hlocation => exact absurd (Option.some_inj.mp hseen) (hother mount hmem hlocation)
    · cases hseen

theorem pairwise_of_split {α : Type} {R : α → α → Prop} {xs : List α}
    (h : ∀ before x after, xs = before ++ x :: after → ∀ y ∈ after, R x y) : xs.Pairwise R := by
  induction xs with
  | nil => exact .nil
  | cons x xs ih =>
    refine .cons (h [] x xs rfl) (ih fun before y after hxs => ?_)
    exact h (x :: before) y after (by rw [hxs, List.cons_append])

/-- Mounts at different places, and a last one: each of the former is seen exactly when no later
one covers it. -/
theorem seenAt_iff_leavesVisible {before after : List Mount} {last : Mount}
    (hplaces : ∀ other ∈ after, location other.path ≠ location mount.path)
    (hlast : last.source ≠ mount.source) :
    seenAt (last :: (before ++ mount :: after).reverse ++ older) mount.path = some mount.source ↔
      LeavesVisible (after ++ [last]) mount.path := by
  have hmounts : last :: (before ++ mount :: after).reverse ++ older =
      (last :: after.reverse) ++ mount :: (before.reverse ++ older) := by simp
  have hnewer : LeavesVisible (last :: after.reverse) mount.path ↔
      LeavesVisible (after ++ [last]) mount.path := by
    simp only [LeavesVisible, List.mem_cons, List.mem_reverse, List.mem_append,
      List.not_mem_nil, or_false]
    grind
  rw [hmounts, ← hnewer]
  constructor
  · intro hseen
    refine leavesVisible_of_seenAt hseen fun other hother hlocation => ?_
    rcases List.mem_cons.mp hother with rfl | hother
    · exact hlast
    · exact absurd hlocation (hplaces other (List.mem_reverse.mp hother))
  · intro hvisible
    rw [seenAt_append hvisible, seenAt_cons rfl]

theorem forall_seenAt_iff_pairwise {mounts : List Mount} {last : Mount} (older : List Mount)
    (hplaces : (mounts.map (location ·.path)).Nodup)
    (hlast : ∀ mount ∈ mounts, last.source ≠ mount.source) :
    (∀ mount ∈ mounts,
      seenAt (last :: mounts.reverse ++ older) mount.path = some mount.source) ↔
      ((mounts ++ [last]).map (location ·.path)).Pairwise
        fun earlier later => ¬ later <+: earlier := by
  have hsplit : ∀ before mount after, mounts = before ++ mount :: after →
      (seenAt (last :: mounts.reverse ++ older) mount.path = some mount.source ↔
        LeavesVisible (after ++ [last]) mount.path) := by
    rintro before mount after rfl
    refine seenAt_iff_leavesVisible (fun other hother hlocation => ?_) (hlast mount (by simp))
    rw [List.map_append, List.map_cons] at hplaces
    have hafter := (List.nodup_cons.mp (List.nodup_append.mp hplaces).2.1).1
    exact hafter (List.mem_map.mpr ⟨other, hother, hlocation⟩)
  rw [List.pairwise_map]
  constructor
  · intro h
    have hvisible : ∀ before mount after, mounts = before ++ mount :: after →
        LeavesVisible (after ++ [last]) mount.path := fun before mount after hmounts =>
      (hsplit before mount after hmounts).mp (h mount (by simp [hmounts]))
    refine List.pairwise_append.mpr ⟨pairwise_of_split ?_, List.pairwise_singleton _ _, ?_⟩
    · intro before mount after hmounts other hother
      exact hvisible before mount after hmounts other (List.mem_append_left _ hother)
    · intro mount hmem other hother
      obtain ⟨before, after, hmounts⟩ := List.append_of_mem hmem
      exact hvisible before mount after hmounts other (List.mem_append_right _ hother)
  · intro h mount hmem
    obtain ⟨before, after, hmounts⟩ := List.append_of_mem hmem
    refine (hsplit before mount after hmounts).mpr fun other hother => ?_
    rw [hmounts, List.append_assoc, List.cons_append, List.pairwise_append] at h
    exact (List.pairwise_cons.mp h.2.1).1 other hother

end Mounts

namespace StorageStepExecutor

/-- Where the file systems are mounted, in this order. -/
def mountOrder (config : InstallerConfig) : List (List String) :=
  location targetRoot ::
    ((config.storage.btrfs.subvolumes.filter (·.name != "@")).map fun subvolume =>
      location (targetRoot ++ subvolume.mountpoint)) ++ [location targetEfi]

/-- Every subvolume is seen at its mountpoint. -/
def SubvolumesSeen (config : InstallerConfig) (s : DiskState) : Prop :=
  ∃ fs, s.cryptrootBtrfs = some fs ∧ ∀ subvolume ∈ config.storage.btrfs.subvolumes,
    seenAt s.mounts (targetRoot ++ subvolume.mountpoint) = some (.btrfs fs (some subvolume.name))

/-- No mountpoint is at or above one that comes before it. An entry named `@` that is not at `/` is
never mounted, so it is seen only where it was before, at a place outside the new system. -/
structure MountsInOrder (config : InstallerConfig) (s : DiskState) : Prop where
  inOrder : (mountOrder config).Pairwise fun earlier later => ¬ later <+: earlier
  outside : ∀ subvolume ∈ config.storage.btrfs.subvolumes, subvolume.name = "@" →
    location (targetRoot ++ subvolume.mountpoint) ≠ location targetRoot →
      seenAt s.mounts (targetRoot ++ subvolume.mountpoint) =
          s.cryptrootBtrfs.map (.btrfs · (some "@")) ∧
        ∀ place ∈ mountOrder config, ¬ place <+: location (targetRoot ++ subvolume.mountpoint)

variable {config : InstallerConfig} {exchanges : Exchanges} {disk : String} {locate : Locate}
  {s s' : DiskState}

/-- The mounts of the btrfs in the order in which they are made. -/
def madeMounts (config : InstallerConfig) (fs : Nat) : List Mount :=
  ⟨targetRoot, .btrfs fs (some "@")⟩ ::
    (config.storage.btrfs.subvolumes.filter (·.name != "@")).map (subvolumeMount fs)

def efiMount (config : InstallerConfig) (id : Nat) : Mount :=
  ⟨targetEfi, .fat config.efiPartition id⟩

section

variable {fs id : Nat}

theorem subvolumeMount_path (subvolume : SubvolumeConfig) :
    (subvolumeMount fs subvolume).path = targetRoot ++ subvolume.mountpoint := rfl

theorem location_root : location (targetRoot ++ "/") = location targetRoot := by decide

theorem madeMounts_reverse :
    (madeMounts config fs).reverse = filesystemMounts config fs := by
  rw [madeMounts, List.reverse_cons, filesystemMounts, subvolumeMounts]

theorem mountOrder_eq (fs id : Nat) : mountOrder config =
    (madeMounts config fs ++ [efiMount config id]).map (location ·.path) := by
  simp [mountOrder, madeMounts, efiMount, subvolumeMount_path]

/-- The entries of the configuration are at distinct places, and `@` is at `/`. -/
structure DistinctPlaces (config : InstallerConfig) : Prop where
  root : ∃ subvolume ∈ config.storage.btrfs.subvolumes,
    subvolume.name = "@" ∧ subvolume.mountpoint = "/"
  nodup : (config.storage.btrfs.subvolumes.map fun subvolume =>
    location (targetRoot ++ subvolume.mountpoint)).Nodup

theorem efiMount_source_ne (fs id : Nat) :
    ∀ mount ∈ madeMounts config fs, (efiMount config id).source ≠ mount.source := by
  intro mount hmount
  rcases List.mem_cons.mp hmount with rfl | hmount
  · simp [efiMount]
  · obtain ⟨subvolume, -, rfl⟩ := List.mem_map.mp hmount
    simp [efiMount, subvolumeMount]

theorem DistinctPlaces.madeMounts (h : DistinctPlaces config) (fs : Nat) :
    ((madeMounts config fs).map (location ·.path)).Nodup := by
  obtain ⟨root, hroot, hname, hmountpoint⟩ := h.root
  rw [StorageStepExecutor.madeMounts, List.map_cons, List.map_map, List.nodup_cons]
  constructor
  · rw [List.mem_map]
    rintro ⟨subvolume, hsubvolume, hlocation⟩
    obtain ⟨hmem, hother⟩ := List.mem_filter.mp hsubvolume
    have heq : subvolume = root := by
      apply List.inj_on_of_nodup_map h.nodup hmem hroot
      rw [hmountpoint, location_root]
      exact hlocation
    simp [heq, hname] at hother
  · exact h.nodup.sublist (List.filter_sublist.map _)

theorem subvolumesSeen_iff {mounts : List Mount} (h : DistinctPlaces config) :
    (∀ subvolume ∈ config.storage.btrfs.subvolumes,
      seenAt mounts (targetRoot ++ subvolume.mountpoint) =
        some (.btrfs fs (some subvolume.name))) ↔
    (∀ mount ∈ madeMounts config fs, seenAt mounts mount.path = some mount.source) ∧
      ∀ subvolume ∈ config.storage.btrfs.subvolumes, subvolume.name = "@" →
        location (targetRoot ++ subvolume.mountpoint) ≠ location targetRoot →
        seenAt mounts (targetRoot ++ subvolume.mountpoint) = some (.btrfs fs (some "@")) := by
  have hsame : ∀ path path', location path = location path' →
      seenAt mounts path = seenAt mounts path' := by
    intro path path' hpath
    rw [seenAt, seenAt, visibleMount, visibleMount, hpath]
  obtain ⟨root, hroot, hname, hmountpoint⟩ := h.root
  constructor
  · intro hseen
    refine ⟨fun mount hmount => ?_, fun subvolume hmem hat _ => hat ▸ hseen subvolume hmem⟩
    rcases List.mem_cons.mp hmount with rfl | hmount
    · rw [← hname, ← hseen root hroot, hmountpoint]
      exact (hsame _ _ location_root).symm
    · obtain ⟨subvolume, hsubvolume, rfl⟩ := List.mem_map.mp hmount
      exact hseen subvolume (List.mem_filter.mp hsubvolume).1
  · rintro ⟨hmade, houtside⟩ subvolume hmem
    by_cases hat : subvolume.name = "@"
    · by_cases hlocation : location (targetRoot ++ subvolume.mountpoint) = location targetRoot
      · rw [hat, hsame _ _ hlocation]
        exact hmade ⟨targetRoot, .btrfs fs (some "@")⟩ List.mem_cons_self
      · exact hat ▸ houtside subvolume hmem hat hlocation
    · refine hmade (subvolumeMount fs subvolume) (List.mem_cons_of_mem _ (List.mem_map_of_mem ?_))
      exact List.mem_filter.mpr ⟨hmem, by simpa using hat⟩

end

/-- A path outside the new system is seen as before, when no mount of the step covers it. -/
theorem seenAt_outside_iff {fs id : Nat} {older : List Mount} {path : String}
    (hpath : location path ≠ location targetRoot) :
    seenAt (efiMount config id :: (madeMounts config fs).reverse ++ older) path = some (.btrfs fs (some "@")) ↔
      seenAt older path = some (.btrfs fs (some "@")) ∧
        ∀ place ∈ mountOrder config, ¬ place <+: location path := by
  have hvisible : (∀ place ∈ mountOrder config, ¬ place <+: location path) ↔
      LeavesVisible (efiMount config id :: (madeMounts config fs).reverse) path := by
    rw [mountOrder_eq fs id, List.forall_mem_map]
    simp only [LeavesVisible, List.mem_append, List.mem_cons, List.mem_reverse, List.not_mem_nil,
      or_false]
    grind
  rw [hvisible]
  constructor
  · intro hseen
    have hleaves := leavesVisible_of_seenAt hseen fun mount hmount hlocation => by
      rcases List.mem_cons.mp hmount with rfl | hmount
      · simp [efiMount]
      · rcases List.mem_cons.mp (List.mem_reverse.mp hmount) with rfl | hmount
        · exact absurd hlocation.symm hpath
        · obtain ⟨subvolume, hsubvolume, rfl⟩ := List.mem_map.mp hmount
          have hname := (List.mem_filter.mp hsubvolume).2
          simpa [subvolumeMount] using hname
    exact ⟨seenAt_append hleaves ▸ hseen, hleaves⟩
  · rintro ⟨hseen, hleaves⟩
    rw [seenAt_append hleaves, hseen]

/-- The subvolumes are seen at their mountpoints exactly when the mounts are in order. -/
theorem mountFilesystems_seen_iff (hplaces : DistinctPlaces config)
    (hrun : Runs (mountFilesystems config) exchanges (.returned ()))
    (hreplay : Replays (diskWorld disk locate) s exchanges s') :
    SubvolumesSeen config s' ↔ MountsInOrder config s := by
  obtain ⟨fs, id, hfs, hcryptroot, hinside, -, -, -, hmounts, -⟩ :=
    mountFilesystems_returned hrun hreplay
  have hfs' : s'.cryptrootBtrfs = some fs := by
    rw [← hfs, DiskState.cryptrootBtrfs, DiskState.cryptrootBtrfs, hcryptroot, hinside]
  have hmade : s'.mounts =
      efiMount config id :: (madeMounts config fs).reverse ++ s.mounts := by
    rw [hmounts, madeMounts_reverse, List.cons_append, efiMount]
  have horder := forall_seenAt_iff_pairwise s.mounts (hplaces.madeMounts fs)
    (efiMount_source_ne fs id)
  rw [← hmade, ← mountOrder_eq] at horder
  have hseen : SubvolumesSeen config s' ↔ ∀ subvolume ∈ config.storage.btrfs.subvolumes,
      seenAt s'.mounts (targetRoot ++ subvolume.mountpoint) =
        some (.btrfs fs (some subvolume.name)) := by
    simp [SubvolumesSeen, hfs']
  rw [hseen, subvolumesSeen_iff hplaces, horder]
  constructor
  · rintro ⟨hinOrder, houtside⟩
    refine ⟨hinOrder, fun subvolume hmem hat hlocation => ?_⟩
    have hfound := houtside subvolume hmem hat hlocation
    rw [hmade, seenAt_outside_iff hlocation] at hfound
    rwa [hfs]
  · rintro ⟨hinOrder, houtside⟩
    refine ⟨hinOrder, fun subvolume hmem hat hlocation => ?_⟩
    rw [hmade, seenAt_outside_iff hlocation]
    have hfound := houtside subvolume hmem hat hlocation
    rwa [hfs] at hfound

/-- The btrfs of a disk with its LUKS volume open. -/
def openedDisk (subvolumes : List String) : DiskState :=
  { DiskState.installedDisk "luks password" sampleStorage.luks 2048 with
    subvolumes := fun _ => subvolumes
    cryptroot := some ⟨"/dev/sda2", 0, "luks password", sampleStorage.luks⟩ }

def configWith (subvolumes : List SubvolumeConfig) : InstallerConfig :=
  { sampleConfig with
    storage := { sampleStorage with btrfs := { sampleStorage.btrfs with subvolumes } } }

def mountingRun (subvolumes : List SubvolumeConfig) :
    Simulation Invocation CommandExecutionResult InstallerError Unit DiskState :=
  simulate (DiskState.respond "/dev/sda" DiskState.sdaPlaces)
    (mountFilesystems (configWith subvolumes)) 50 (openedDisk (subvolumes.map (·.name)))

theorem mountingRun_runs {subvolumes : List SubvolumeConfig}
    (h : (mountingRun subvolumes).outcome = .returned ()) :
    Runs (mountFilesystems (configWith subvolumes)) (mountingRun subvolumes).exchanges
      (.returned ()) :=
  h ▸ simulate_runs _ _ _ _

/-- The mountpoint `/var` after `/var/log`, which lies below it. -/
def childFirst : List SubvolumeConfig :=
  [⟨"@", "/", false⟩, ⟨"@var-log", "/var/log", false⟩, ⟨"@var", "/var", true⟩]

def parentFirst : List SubvolumeConfig :=
  [⟨"@", "/", false⟩, ⟨"@var", "/var", true⟩, ⟨"@var-log", "/var/log", false⟩]

theorem distinctPlaces_parentFirst : DistinctPlaces (configWith parentFirst) :=
  ⟨⟨⟨"@", "/", false⟩, List.mem_cons_self, rfl, rfl⟩, by decide⟩

theorem distinctPlaces_childFirst : DistinctPlaces (configWith childFirst) :=
  ⟨⟨⟨"@", "/", false⟩, List.mem_cons_self, rfl, rfl⟩, by decide⟩

theorem mountFilesystems_seen_parentFirst :
    SubvolumesSeen (configWith parentFirst) (mountingRun parentFirst).final ↔
      MountsInOrder (configWith parentFirst) (openedDisk (parentFirst.map (·.name))) :=
  mountFilesystems_seen_iff distinctPlaces_parentFirst (mountingRun_runs (by decide))
    (simulate_replays DiskState.respond_step _ 50 _)

/-- The mount of `/var` hides `/var/log`. -/
theorem not_mountFilesystems_seen : ¬ ∀ config exchanges disk locate s s', DistinctPlaces config →
    Runs (mountFilesystems config) exchanges (.returned ()) →
    Replays (diskWorld disk locate) s exchanges s' → SubvolumesSeen config s' := by
  intro h
  obtain ⟨fs, -, hseen⟩ := h (configWith childFirst) _ _ _ _ _ distinctPlaces_childFirst
    (mountingRun_runs (by decide)) (simulate_replays DiskState.respond_step _ 50 _)
  have hlog := hseen ⟨"@var-log", "/var/log", false⟩ (List.mem_cons_of_mem _ List.mem_cons_self)
  have hhidden : seenAt (mountingRun childFirst).final.mounts "/mnt/var/log" = none := by
    decide
  exact absurd (hhidden.symm.trans hlog) (by simp)

end StorageStepExecutor

end ArchInstaller
