import ArchInstaller.Config.Sample
import ArchInstaller.Core.Runs
import ArchInstaller.Executors.Packages
import ArchInstaller.Installer

/-! # The package list

Kernels are chosen by a filter over the base and cataloged packages: a selected kernel that no list
names is not added, and what the desktops and the GPU driver bring in is not filtered. -/

namespace ArchInstaller.PackagesStepExecutor

open Interaction PyText Script

/-! ## First occurrences -/

theorem pairwise_idxOf_eraseDups {α : Type} [DecidableEq α] (l : List α) (keep : α → Bool) :
    (l.filter keep).eraseDups.Pairwise fun a b => l.idxOf a < l.idxOf b := by
  induction l generalizing keep with
  | nil => simp
  | cons a l ih =>
    -- past the head, the elements other than it are found one place later
    have hlater : ∀ keep' : α → Bool, keep' a = false →
        (l.filter keep').eraseDups.Pairwise fun b c => (a :: l).idxOf b < (a :: l).idxOf c := by
      intro keep' ha
      have hne : ∀ b ∈ (l.filter keep').eraseDups, a ≠ b := by
        rintro b hb rfl
        rw [List.mem_eraseDups, List.mem_filter, ha] at hb
        exact absurd hb.2 Bool.false_ne_true
      refine (ih keep').imp_of_mem fun {b c} hb hc hlt => ?_
      rw [List.idxOf_cons_ne _ (hne b hb), List.idxOf_cons_ne _ (hne c hc)]
      exact Nat.succ_lt_succ hlt
    cases hkeep : keep a with
    | false =>
      rw [List.filter_cons_of_neg (by simp [hkeep])]
      exact hlater keep hkeep
    | true =>
      rw [List.filter_cons_of_pos hkeep, List.eraseDups_cons, List.filter_filter]
      refine List.Pairwise.cons (fun b hb => ?_) (hlater _ (by simp))
      have hne : a ≠ b := by
        rintro rfl
        simp at hb
      rw [List.idxOf_cons_self, List.idxOf_cons_ne _ hne]
      exact Nat.succ_pos _

theorem nodup_eraseDups {α : Type} [DecidableEq α] (l : List α) : l.eraseDups.Nodup := by
  have h := pairwise_idxOf_eraseDups l fun _ => true
  rw [List.filter_true] at h
  exact h.imp fun {a b} hlt heq => absurd hlt (by simp [heq])

/-! ## The lists -/

variable (config : InstallerConfig)

/-- The packages of the selected desktops, and the display manager that is installed alongside
them. -/
def desktopList : List String :=
  if config.packages.selectedDesktops.isEmpty then []
  else config.packages.selectedDesktops.flatMap config.packages.desktops.packagesFor ++
    config.packages.displayManager

/-- The lists that are filtered. -/
def baseList : List String := config.packages.base ++ config.packages.cataloged

/-- The lists that are not filtered. -/
def addedList : List String := desktopList config ++ gpuPackages config

/-- The packages that the configuration lists. -/
def listed : List String := baseList config ++ addedList config

def collected : List String :=
  (withoutUnselectedKernels config (withoutOtherMicrocode config (baseList config)) ++
    addedList config).eraseDups

/-- A kernel that is not selected, or its headers. -/
def IsUnselected (package : String) : Prop :=
  ∃ kernel ∈ config.boot.kernels, kernel.package ∉ config.boot.kernelPackages ∧
    (package = kernel.package ∨ package = s!"{kernel.package}-headers")

/-- The microcode of another vendor than the CPU's, which is known. -/
def IsOtherMicrocode (package : String) : Prop :=
  config.system.cpuVendor ≠ .unknown ∧
    ∃ vendor, vendor ≠ config.system.cpuVendor ∧ (vendor, package) ∈ microcodePackages

def IsUnwanted (package : String) : Prop :=
  IsUnselected config package ∨ IsOtherMicrocode config package

/-- The package list is what the configuration says. -/
structure FollowsConfig (packages : List String) : Prop where
  nodup : packages.Nodup
  kernels : ∀ kernel ∈ config.boot.kernelPackages, kernel ∈ packages
  noUnselected : ∀ package ∈ packages, ¬ IsUnselected config package
  noOtherMicrocode : ∀ package ∈ packages, ¬ IsOtherMicrocode config package
  complete : ∀ package ∈ listed config, ¬ IsUnwanted config package → package ∈ packages
  inOrder : packages.Pairwise fun package other =>
    package ∈ listed config → other ∈ listed config →
      (listed config).idxOf package < (listed config).idxOf other

/-- The kernels to install are listed, and nothing that is filtered out is needed or brought in
elsewhere. -/
structure ListsAgree : Prop where
  kernelsListed : ∀ kernel ∈ config.boot.kernelPackages, kernel ∈ listed config
  kernelsWanted : ∀ kernel ∈ config.boot.kernelPackages, ¬ IsUnwanted config kernel
  addedWanted : ∀ package ∈ addedList config, ¬ IsUnwanted config package

variable {config}

/-! ## What is collected -/

theorem withoutOtherMicrocode_eq_filter (config : InstallerConfig) (packages : List String) :
    ∃ keep : String → Bool, withoutOtherMicrocode config packages = packages.filter keep ∧
      ∀ package, keep package ↔ ¬ IsOtherMicrocode config package := by
  by_cases hvendor : config.system.cpuVendor = .unknown
  · refine ⟨fun _ => true, ?_, fun package => ?_⟩
    · rw [withoutOtherMicrocode, hvendor, List.filter_true]
      rfl
    · simp [IsOtherMicrocode, hvendor]
  · refine ⟨_, if_neg (by simpa using hvendor), fun package => ?_⟩
    simp only [List.contains_eq_mem, Bool.not_eq_true', decide_eq_false_iff_not, List.mem_map,
      List.mem_filter, bne_iff_ne, Prod.exists, IsOtherMicrocode, and_comm]
    simp [hvendor]

theorem withoutUnselectedKernels_eq_filter (config : InstallerConfig) (packages : List String) :
    ∃ keep : String → Bool, withoutUnselectedKernels config packages = packages.filter keep ∧
      ∀ package, keep package ↔ ¬ IsUnselected config package := by
  refine ⟨_, rfl, fun package => ?_⟩
  simp only [List.contains_eq_mem, Bool.not_eq_true', decide_eq_false_iff_not, List.mem_append,
    List.mem_map, List.mem_filter, IsUnselected, not_iff_not]
  constructor
  · rintro (⟨⟨kernel, hkernel, rfl⟩, hunselected⟩ | ⟨_, ⟨⟨kernel, hkernel, rfl⟩, hunselected⟩, rfl⟩)
    · exact ⟨kernel, hkernel, hunselected, .inl rfl⟩
    · exact ⟨kernel, hkernel, hunselected, .inr rfl⟩
  · rintro ⟨kernel, hkernel, hunselected, rfl | rfl⟩
    · exact .inl ⟨⟨kernel, hkernel, rfl⟩, hunselected⟩
    · exact .inr ⟨_, ⟨⟨kernel, hkernel, rfl⟩, hunselected⟩, rfl⟩

/-- Both filters as one. -/
theorem exists_keep (config : InstallerConfig) (packages : List String) :
    ∃ keep : String → Bool,
      withoutUnselectedKernels config (withoutOtherMicrocode config packages) =
        packages.filter keep ∧
      ∀ package, keep package ↔ ¬ IsUnwanted config package := by
  obtain ⟨keep, hfilter, hkeep⟩ := withoutOtherMicrocode_eq_filter config packages
  obtain ⟨keep', hfilter', hkeep'⟩ :=
    withoutUnselectedKernels_eq_filter config (packages.filter keep)
  refine ⟨fun package => keep' package && keep package, ?_, fun package => ?_⟩
  · rw [hfilter, hfilter', List.filter_filter]
  · rw [Bool.and_eq_true, hkeep, hkeep', IsUnwanted, not_or]

theorem runs_desktopPackages_returned_iff {exchanges : Exchanges} {packages : List String} :
    Runs (desktopPackages config) exchanges (.returned packages) ↔
      exchanges = [] ∧ packages = desktopList config := by
  rw [desktopPackages, desktopList]
  cases config.packages.selectedDesktops.isEmpty <;> simp

theorem runs_collectPackages_returned_iff {exchanges : Exchanges} {packages : List String} :
    Runs (collectPackages config) exchanges (.returned packages) ↔
      exchanges = [] ∧ packages = collected config := by
  simp only [collectPackages, runs_bind_returned_iff, runs_desktopPackages_returned_iff,
    runs_pure_returned_iff, List.append_assoc, collected, baseList, addedList]
  grind

/-! ## The configuration and the list -/

theorem mem_collected {package : String} : package ∈ collected config ↔
    package ∈ baseList config ∧ ¬ IsUnwanted config package ∨ package ∈ addedList config := by
  obtain ⟨keep, hfilter, hkeep⟩ := exists_keep config (baseList config)
  rw [collected, hfilter, List.mem_eraseDups, List.mem_append, List.mem_filter, hkeep]

theorem mem_collected_of_listed {package : String} (hlisted : package ∈ listed config)
    (hwanted : ¬ IsUnwanted config package) : package ∈ collected config := by
  rw [listed, List.mem_append] at hlisted
  exact mem_collected.mpr (hlisted.imp_left fun hbase => ⟨hbase, hwanted⟩)

/-- Where nothing of the later lists is unwanted, all lists may be filtered alike. -/
theorem pairwise_collected (h : ∀ package ∈ addedList config, ¬ IsUnwanted config package) :
    (collected config).Pairwise fun package other =>
      (listed config).idxOf package < (listed config).idxOf other := by
  obtain ⟨keep, hfilter, hkeep⟩ := exists_keep config (baseList config)
  have hadded : (addedList config).filter keep = addedList config :=
    List.filter_eq_self.mpr fun package hpackage => (hkeep package).mpr (h package hpackage)
  have hall : collected config = ((listed config).filter keep).eraseDups := by
    rw [collected, hfilter, listed, List.filter_append, hadded]
  rw [hall]
  exact pairwise_idxOf_eraseDups (listed config) keep

theorem FollowsConfig.not_isUnwanted {packages : List String} (h : FollowsConfig config packages)
    {package : String} (hpackage : package ∈ packages) : ¬ IsUnwanted config package := by
  rintro (hunselected | hother)
  · exact h.noUnselected package hpackage hunselected
  · exact h.noOtherMicrocode package hpackage hother

/-- The list is what the configuration says exactly when the lists agree. -/
theorem followsConfig_iff_listsAgree (config : InstallerConfig) :
    (∃ packages, Runs (collectPackages config) [] (.returned packages) ∧
      FollowsConfig config packages) ↔ ListsAgree config := by
  simp only [runs_collectPackages_returned_iff, true_and, exists_eq_left]
  constructor
  · intro h
    refine ⟨fun kernel hkernel => ?_, fun kernel hkernel => ?_, fun package hpackage => ?_⟩
    · rw [listed, List.mem_append]
      exact (mem_collected.mp (h.kernels kernel hkernel)).imp_left And.left
    · exact h.not_isUnwanted (h.kernels kernel hkernel)
    · exact h.not_isUnwanted (mem_collected.mpr (.inr hpackage))
  · intro h
    have hwanted : ∀ package ∈ collected config, ¬ IsUnwanted config package :=
      fun package hpackage => (mem_collected.mp hpackage).elim And.right (h.addedWanted package)
    exact
      { nodup := nodup_eraseDups _
        kernels := fun kernel hkernel =>
          mem_collected_of_listed (h.kernelsListed kernel hkernel) (h.kernelsWanted kernel hkernel)
        noUnselected := fun package hpackage hunselected =>
          hwanted package hpackage (.inl hunselected)
        noOtherMicrocode := fun package hpackage hother => hwanted package hpackage (.inr hother)
        complete := fun package => mem_collected_of_listed
        inOrder := (pairwise_collected h.addedWanted).imp fun {a b} hlt _ _ => hlt }

/-- The LTS kernel is selected, but only the other one is among the packages. -/
def unlistedKernelConfig : InstallerConfig :=
  { sampleConfig with
    boot := { sampleBoot with
      kernels := [⟨"mainline", "linux"⟩, ⟨"lts", "linux-lts"⟩], selectedKernels := ["linux-lts"] } }

theorem not_followsConfig : ¬ ∀ config, installProblems config = [] →
    ∃ packages, Runs (collectPackages config) [] (.returned packages) ∧
      FollowsConfig config packages := by
  intro h
  obtain ⟨packages, hrun, hfollows⟩ := h unlistedKernelConfig (by decide)
  obtain ⟨-, rfl⟩ := runs_collectPackages_returned_iff.mp hrun
  exact absurd (hfollows.kernels "linux-lts" (by decide)) (by decide)

end ArchInstaller.PackagesStepExecutor
