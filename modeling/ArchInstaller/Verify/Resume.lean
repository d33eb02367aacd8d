import ArchInstaller.Verify.StorageRuns

/-! # Running the storage step again

A run that finds the target mounted keeps the storage as it is, whoever mounted it. Running the
step again after an interrupted run therefore completes the storage exactly when the interrupted
run left the target unmounted, or had come as far as the last mount. -/

namespace ArchInstaller.StorageStepExecutor

open Interaction PyText Script

variable {config : InstallerConfig} {exchanges : Exchanges}
  {outcome : Outcome InstallerError Unit}

/-- The target root is the subvolume `@` of the open volume, every configured subvolume exists and
was mounted on it after, and so was the EFI partition. -/
def Complete (config : InstallerConfig) (s : DiskState) : Prop :=
  ∃ fs newer older, s.cryptrootBtrfs = some fs ∧
    s.mounts = newer ++ ⟨targetRoot, .btrfs fs (some "@")⟩ :: older ∧
    "@" ∈ s.subvolumes fs ∧
    (∀ subvolume ∈ config.storage.btrfs.subvolumes, subvolume.name ≠ "@" →
      subvolume.name ∈ s.subvolumes fs ∧ subvolumeMount fs subvolume ∈ newer) ∧
    ∃ id, ⟨targetEfi, .fat config.efiPartition id⟩ ∈ newer

/-- The EFI partition was mounted, which is the last of the mounts. -/
def EfiMounted (config : InstallerConfig) (exchanges : Exchanges) : Prop :=
  ∃ x ∈ exchanges, x.1.command = .mountVfat config.efiPartition targetEfi ∧ x.2.success

/-! ## The parts of a run -/

/-- `convergeStorage` up to the mount of the EFI partition. -/
def beforeEfiMount (config : InstallerConfig) : Script Unit := do
  openStorage config
  setupBtrfs config
  run_ (.mountSubvolume "@" config.storage.btrfs.mountOptions config.storage.cryptrootDevice
    targetRoot)
  Program.forEach config.storage.btrfs.subvolumes (mountSubvolume config)
  let formatted := contains "TYPE=\"vfat\"" (← query (.blkid config.efiPartition))
  Program.onlyIf (!formatted) do
    info "Formatting EFI partition..."
    run_ (.mkfsVfat config.efiPartition)
  run_ (.mkdir targetEfi)

/-- `convergeStorage` up to the last mount. -/
def mountStorage (config : InstallerConfig) : Script Unit := do
  openStorage config
  setupBtrfs config
  mountFilesystems config

theorem convergeStorage_eq_mountStorage :
    convergeStorage config = mountStorage config >>= fun _ => finishStorage config := by
  simp only [convergeStorage_eq, fillStorage_eq, mountStorage, bind_assoc]

theorem mountStorage_eq_beforeEfiMount : mountStorage config =
    beforeEfiMount config >>= fun _ => run_ (.mountVfat config.efiPartition targetEfi) := by
  simp only [mountStorage, mountFilesystems, mountEfiPartition, beforeEfiMount, bind_assoc]

/-- A command that does not mount a FAT file system. -/
def MountsNoFat (invocation : Invocation) : Prop :=
  ∀ device directory, invocation.command ≠ .mountVfat device directory

theorem mountsNoFat_of_changesMounts {invocation : Invocation}
    (h : invocation.command.changesMounts = false) : MountsNoFat invocation := by
  intro device directory hcommand
  simp [hcommand, Command.changesMounts] at h

theorem issues_openStorage_mountsNoFat : Issues MountsNoFat (openStorage config) := by
  have hprepare : Issues MountsNoFat (prepareDisk config) :=
    issues_prepareDisk.mono fun _ h => mountsNoFat_of_changesMounts h.mounts
  simp [openStorage, cleanupStaleMounts, hprepare, setupLuks, formatLuks, openLuks, MountsNoFat]

theorem issues_mountSubvolume_mountsNoFat {subvolume : SubvolumeConfig} :
    Issues MountsNoFat (mountSubvolume config subvolume) := by
  simp [mountSubvolume, MountsNoFat]

theorem issues_beforeEfiMount : Issues MountsNoFat (beforeEfiMount config) := by
  simp [beforeEfiMount, issues_openStorage_mountsNoFat, issues_mountSubvolume_mountsNoFat,
    setupBtrfs, ensureBtrfs, isMountpoint, createSubvolumes, createSubvolume, MountsNoFat]

/-- A run that mounted the EFI partition had done all of `mountStorage`. -/
theorem runs_efiMounted (hrun : Runs (convergeStorage config) exchanges outcome)
    (hmounted : EfiMounted config exchanges) :
    ∃ mounts rest, exchanges = mounts ++ rest ∧
      Runs (mountStorage config) mounts (.returned ()) ∧
      Runs (finishStorage config) rest outcome := by
  obtain ⟨x, hx, hcommand, hsuccess⟩ := hmounted
  rw [convergeStorage_eq_mountStorage, mountStorage_eq_beforeEfiMount, bind_assoc] at hrun
  obtain ⟨first, ⟨⟩, second, rfl, hfirst, hsecond, hnoFat⟩ :=
    issues_beforeEfiMount.runs_past allAllowed_true hrun
      ⟨x, hx, fun h => h _ _ hcommand⟩
  have hxSecond : x ∈ second := by
    rcases List.mem_append.mp hx with h | h
    · exact absurd hcommand (hnoFat x h _ _)
    · exact h
  rcases runs_run_unit_bind_iff.mp hsecond with ⟨rfl, -⟩ | ⟨result, rest, rfl, hrest⟩
  · cases hxSecond
  have hmount : result.success := by
    rcases List.mem_cons.mp hxSecond with rfl | hlater
    · exact hsuccess
    · by_contra hfailed
      rw [if_neg hfailed] at hrest
      rw [hrest.1] at hlater
      cases hlater
  rw [if_pos hmount] at hrest
  refine ⟨first ++ [(checked (.mountVfat config.efiPartition targetEfi), result)], rest,
    by simp, ?_, hrest⟩
  rw [mountStorage_eq_beforeEfiMount]
  exact runs_bind_returned_iff.mpr ⟨first, (), _, rfl, hfirst, by simp [hmount]⟩

/-! ## What the mounts come from -/

section World

variable {disk : String} {locate : Locate} {s s' : DiskState}

theorem mountStorage_complete (hrun : Runs (mountStorage config) exchanges (.returned ()))
    (hreplay : Replays (diskWorld disk locate) s exchanges s') : Complete config s' := by
  obtain ⟨opening, ⟨⟩, rest, rfl, -, hrest⟩ := runs_bind_returned_iff.mp hrun
  obtain ⟨btrfs, ⟨⟩, filesystems, rfl, -, hfilesystems⟩ := runs_bind_returned_iff.mp hrest
  simp only [replays_append_iff] at hreplay
  obtain ⟨-, -, made, -, hreplayMounts⟩ := hreplay
  obtain ⟨fs, id, hfs, hcryptroot, hinside, hsubvolumes, hroot, hnames, hmounts, -⟩ :=
    mountFilesystems_returned hfilesystems hreplayMounts
  refine ⟨fs, ⟨targetEfi, .fat config.efiPartition id⟩ ::
    subvolumeMounts fs config.storage.btrfs.subvolumes, made.mounts, ?_, ?_, ?_, ?_, id, ?_⟩
  · rw [← hfs, DiskState.cryptrootBtrfs, DiskState.cryptrootBtrfs, hcryptroot, hinside]
  · simp [hmounts, filesystemMounts]
  · rwa [hsubvolumes]
  · intro subvolume hmem hname
    refine ⟨hsubvolumes ▸ hnames subvolume hmem hname, List.mem_cons_of_mem _ ?_⟩
    simp only [subvolumeMounts, List.mem_reverse, List.mem_map, List.mem_filter, bne_iff_ne]
    exact ⟨subvolume, ⟨hmem, hname⟩, rfl⟩
  · exact List.mem_cons_self

/-- A successful mount command makes a mount. -/
inductive MakesMount : Invocation × CommandExecutionResult → Mount → Prop
  | btrfs : result.success →
    MakesMount (⟨.mountBtrfs device directory, raises, inputData⟩, result)
      ⟨directory, .btrfs fs none⟩
  | subvolume : result.success →
    MakesMount (⟨.mountSubvolume name options device directory, raises, inputData⟩, result)
      ⟨directory, .btrfs fs (some name)⟩
  | fat : result.success →
    MakesMount (⟨.mountVfat device directory, raises, inputData⟩, result)
      ⟨directory, .fat device fat⟩

theorem diskWorld_made {invocation : Invocation} {result : CommandExecutionResult}
    (hstep : diskWorld disk locate s invocation result s') :
    s'.mounts.Sublist s.mounts ∨
      ∃ mount, MakesMount (invocation, result) mount ∧ s'.mounts = mount :: s.mounts := by
  by_cases hmounts : invocation.command.changesMounts = false
  · exact .inl (diskWorld_mounts hstep hmounts ▸ .refl _)
  obtain ⟨command, raises, inputData⟩ := invocation
  have heffect := hstep.2
  cases command <;> simp only [Command.changesMounts, not_true] at hmounts <;>
    simp only [DiskEffect] at heffect
  case umountRecursive path =>
    obtain ⟨kept, rfl, hsub, -⟩ := heffect
    exact .inl hsub
  case umount target =>
    refine .inl ?_
    split at heffect <;> subst heffect
    · exact List.eraseP_sublist
    · exact .refl _
  case mountBtrfs device directory =>
    split at heffect
    · next hsuccess =>
      obtain ⟨fs, -, rfl⟩ := heffect
      exact .inr ⟨_, .btrfs hsuccess, rfl⟩
    · exact .inl (heffect ▸ .refl _)
  case mountSubvolume name options device directory =>
    split at heffect
    · next hsuccess =>
      obtain ⟨fs, -, -, rfl⟩ := heffect
      exact .inr ⟨_, .subvolume hsuccess, rfl⟩
    · exact .inl (heffect ▸ .refl _)
  case mountVfat device directory =>
    split at heffect
    · next hsuccess =>
      obtain ⟨id, -, rfl⟩ := heffect
      exact .inr ⟨_, .fat hsuccess, rfl⟩
    · exact .inl (heffect ▸ .refl _)

/-- Every mount was there before, or is made by a command of the run. -/
theorem replays_made (hreplay : Replays (diskWorld disk locate) s exchanges s') :
    ∃ made, s'.mounts.Sublist (made ++ s.mounts) ∧
      ∀ mount ∈ made, ∃ x ∈ exchanges, MakesMount x mount := by
  induction hreplay with
  | nil => exact ⟨[], .refl _, by simp⟩
  | cons hstep _ ih =>
    obtain ⟨made, hsub, hmade⟩ := ih
    rcases diskWorld_made hstep with hkept | ⟨mount, hmakes, hmounts⟩
    · refine ⟨made, hsub.trans (hkept.append_left made), fun mount hmount => ?_⟩
      obtain ⟨x, hx, hmakes⟩ := hmade mount hmount
      exact ⟨x, List.mem_cons_of_mem _ hx, hmakes⟩
    · refine ⟨made ++ [mount], by simpa [hmounts] using hsub, fun mount' hmount' => ?_⟩
      rcases List.mem_append.mp hmount' with hlater | hfirst
      · obtain ⟨x, hx, hmakes'⟩ := hmade mount' hlater
        exact ⟨x, List.mem_cons_of_mem _ hx, hmakes'⟩
      · rw [List.mem_singleton.mp hfirst]
        exact ⟨_, List.mem_cons_self, hmakes⟩

/-- In a complete storage whose target root was mounted by the run, so was the EFI partition. -/
theorem efiMounted_of_complete (hreplay : Replays (diskWorld disk locate) s exchanges s')
    (hunmounted : s.isMounted targetRoot = false) (hcomplete : Complete config s') :
    EfiMounted config exchanges := by
  obtain ⟨fs, newer, older, -, hmounts, -, -, id, hefi⟩ := hcomplete
  obtain ⟨made, hsub, hmade⟩ := replays_made hreplay
  rw [hmounts, List.append_sublist_iff] at hsub
  obtain ⟨upper, lower, hsplit, hupper, hlower⟩ := hsub
  have hefiMade : ⟨targetEfi, .fat config.efiPartition id⟩ ∈ made := by
    rcases List.append_eq_append_iff.mp hsplit with ⟨between, -, hold⟩ | ⟨between, rfl, -⟩
    · -- the mount of the target root would be one from before the run
      have hroot := List.mem_append_right between (hlower.subset List.mem_cons_self)
      rw [← hold] at hroot
      simp only [DiskState.isMounted, List.any_eq_false, beq_iff_eq] at hunmounted
      exact absurd rfl (hunmounted _ hroot)
    · exact List.mem_append_left _ (hupper.subset hefi)
  obtain ⟨x, hx, hmakes⟩ := hmade _ hefiMade
  cases hmakes with
  | fat hsuccess => exact ⟨_, hx, rfl, hsuccess⟩

/-! ## Two runs -/

theorem replays_execute_mounted (hmounted : s.isMounted targetRoot)
    (hrun : Runs (execute config) exchanges outcome)
    (hreplay : Replays (diskWorld disk locate) s exchanges s') : s' = s := by
  rcases runs_execute_iff.mp hrun with ⟨rfl, -⟩ | ⟨result, tail, rfl, htail⟩
  · exact replays_nil_iff.mp hreplay
  obtain ⟨mid, ⟨hresult, hmid⟩, hreplayTail⟩ := replays_cons_iff.mp hreplay
  obtain rfl : mid = s := hmid
  rw [hresult.trans hmounted, if_pos rfl] at htail
  have hissues : Issues (fun invocation => invocation.command.leavesDisk) keepExistingStorage :=
    issues_keepExistingStorage.mono fun _ h => by
      rcases h with h | h <;> rw [h] <;> rfl
  exact replays_eq hissues allAllowed_true htail hreplayTail

theorem runs_execute_unmounted (hunmounted : s.isMounted targetRoot = false)
    (hrun : Runs (execute config) exchanges outcome)
    (hreplay : Replays (diskWorld disk locate) s exchanges s') :
    (exchanges = [] ∧ outcome = .stopped ∧ s' = s) ∨
      ∃ result tail, exchanges = (unchecked (.mountpoint targetRoot), result) :: tail ∧
        Runs (convergeStorage config) tail outcome ∧
        Replays (diskWorld disk locate) s tail s' := by
  rcases runs_execute_iff.mp hrun with ⟨rfl, rfl⟩ | ⟨result, tail, rfl, htail⟩
  · exact .inl ⟨rfl, rfl, replays_nil_iff.mp hreplay⟩
  obtain ⟨mid, ⟨hresult, hmid⟩, hreplayTail⟩ := replays_cons_iff.mp hreplay
  obtain rfl : mid = s := hmid
  rw [hresult.trans hunmounted, if_neg Bool.false_ne_true] at htail
  exact .inr ⟨result, tail, rfl, htail, hreplayTail⟩

/-- A run that finds the target unmounted and returns completes the storage. -/
theorem execute_complete (hunmounted : s.isMounted targetRoot = false)
    (hrun : Runs (execute config) exchanges (.returned ()))
    (hreplay : Replays (diskWorld disk locate) s exchanges s') : Complete config s' := by
  rcases runs_execute_unmounted hunmounted hrun hreplay with
    ⟨-, ⟨⟩, -⟩ | ⟨result, tail, rfl, htail, hreplayTail⟩
  rw [convergeStorage_eq_mountStorage] at htail
  obtain ⟨mounts, ⟨⟩, rest, rfl, hmounts, hrest⟩ := runs_bind_returned_iff.mp htail
  obtain ⟨mounted, hreplayMounts, hreplayRest⟩ := replays_append_iff.mp hreplayTail
  obtain rfl := replays_eq (issues_finishStorage.mono fun _ h => h.1) allAllowed_true hrest
    hreplayRest
  exact mountStorage_complete hmounts hreplayMounts

/-- Wherever a run that found the target unmounted was cut off, the storage is complete once the
EFI partition is mounted. -/
theorem complete_of_efiMounted (hunmounted : s.isMounted targetRoot = false)
    (hrun : Runs (execute config) exchanges outcome)
    (hreplay : Replays (diskWorld disk locate) s exchanges s')
    (hmounted : EfiMounted config exchanges) : Complete config s' := by
  rcases runs_execute_unmounted hunmounted hrun hreplay with
    ⟨rfl, -, -⟩ | ⟨result, tail, rfl, htail, hreplayTail⟩
  · obtain ⟨x, hx, -⟩ := hmounted
    cases hx
  obtain ⟨x, hx, hcommand, hsuccess⟩ := hmounted
  have hxTail : x ∈ tail := by
    rcases List.mem_cons.mp hx with rfl | h
    · cases hcommand
    · exact h
  obtain ⟨mounts, rest, rfl, hmounts, hrest⟩ :=
    runs_efiMounted htail ⟨x, hxTail, hcommand, hsuccess⟩
  obtain ⟨mounted, hreplayMounts, hreplayRest⟩ := replays_append_iff.mp hreplayTail
  obtain rfl := replays_eq (issues_finishStorage.mono fun _ h => h.1) allAllowed_true hrest
    hreplayRest
  exact mountStorage_complete hmounts hreplayMounts

/-- After a run that was cut off anywhere, a second run that returns leaves the storage complete
if and only if the first one left the target unmounted, had mounted the EFI partition, or found
a complete storage mounted. -/
theorem execute_resumed_iff {first second : Exchanges} {mid : DiskState}
    (hfirst : Runs (execute config) first outcome)
    (hreplayFirst : Replays (diskWorld disk locate) s first mid)
    (hsecond : Runs (execute config) second (.returned ()))
    (hreplaySecond : Replays (diskWorld disk locate) mid second s') :
    Complete config s' ↔ (mid.isMounted targetRoot →
      if s.isMounted targetRoot then Complete config s else EfiMounted config first) := by
  cases hmid : mid.isMounted targetRoot with
  | false =>
    simp only [Bool.false_eq_true, false_imp_iff, iff_true]
    exact execute_complete hmid hsecond hreplaySecond
  | true =>
    obtain rfl := replays_execute_mounted hmid hsecond hreplaySecond
    rw [forall_prop_of_true rfl]
    cases hs : s.isMounted targetRoot with
    | true =>
      obtain rfl := replays_execute_mounted hs hfirst hreplayFirst
      rw [if_pos rfl]
    | false =>
      rw [if_neg Bool.false_ne_true]
      exact ⟨efiMounted_of_complete hreplayFirst hs,
        complete_of_efiMounted hs hfirst hreplayFirst⟩

end World

/-! ## Runs on an empty disk -/

/-- A first run on an empty disk, cut off after so many commands. -/
def interruptedRun (limit : Nat) :
    Simulation Invocation CommandExecutionResult InstallerError Unit DiskState :=
  simulate (DiskState.respond "/dev/sda" DiskState.sdaPlaces) (execute sampleConfig) limit
    DiskState.emptyDisk

def secondRun (limit : Nat) :
    Simulation Invocation CommandExecutionResult InstallerError Unit DiskState :=
  simulate (DiskState.respond "/dev/sda" DiskState.sdaPlaces) (execute sampleConfig) 200
    (interruptedRun limit).final

theorem secondRun_runs {limit : Nat} (h : (secondRun limit).outcome = .returned ()) :
    Runs (execute sampleConfig) (secondRun limit).exchanges (.returned ()) :=
  h ▸ simulate_runs _ _ _ _

/-- Before the btrfs is mounted, an interruption does no harm. -/
theorem execute_resumed_before_mount : Complete sampleConfig (secondRun 29).final :=
  (execute_resumed_iff (s := DiskState.emptyDisk) (simulate_runs _ _ _ _)
    (simulate_replays DiskState.respond_step _ 29 _) (secondRun_runs (by decide))
    (simulate_replays DiskState.respond_step _ 200 _)).mpr
    fun hmounted => absurd hmounted (by decide)

/-- After the top level of the btrfs is mounted to create the subvolumes, an interrupted run
leaves it mounted, and the second run keeps it as the target. -/
theorem interrupted_in_setupBtrfs :
    Runs (execute sampleConfig) (interruptedRun 30).exchanges (interruptedRun 30).outcome ∧
    Replays (diskWorld "/dev/sda" DiskState.sdaPlaces) DiskState.emptyDisk
      (interruptedRun 30).exchanges (interruptedRun 30).final ∧
    Runs (execute sampleConfig) (secondRun 30).exchanges (.returned ()) ∧
    Replays (diskWorld "/dev/sda" DiskState.sdaPlaces) (interruptedRun 30).final
      (secondRun 30).exchanges (secondRun 30).final ∧
    ¬ Complete sampleConfig (secondRun 30).final := by
  refine ⟨simulate_runs _ _ _ _, simulate_replays DiskState.respond_step _ _ _,
    secondRun_runs (by decide), simulate_replays DiskState.respond_step _ _ _, ?_⟩
  rintro ⟨fs, newer, older, -, hmounts, -⟩
  have htop : (secondRun 30).final.mounts = [⟨"/mnt", .btrfs 1 none⟩] := by decide
  have hroot : (⟨targetRoot, .btrfs fs (some "@")⟩ : Mount) ∈ (secondRun 30).final.mounts := by
    simp [hmounts]
  simp [htop] at hroot

end ArchInstaller.StorageStepExecutor
