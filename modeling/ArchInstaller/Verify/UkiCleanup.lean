import ArchInstaller.Files.Tree
import ArchInstaller.Interaction.Ending
import ArchInstaller.Scripts.SnapshotCleanup
import Mathlib.Logic.Function.Basic

/-! # Removing the snapshot UKIs

`((count++))` is the last command of the loop, and its value is 0 the first time: the script ends
there, with the first UKI removed and status 1. -/

namespace ArchInstaller.SnapshotEntries

open Files Interaction Shell VerifyInstall

/-! ## The claim -/

/-- What is in the UKI directory, at its path. -/
structure Directory where
  entries : List (String × Node String)
  nodup : (entries.map Prod.fst).Nodup

def Directory.contents (directory : Directory) : String → Option (Node String) :=
  fun path => directory.entries.lookup path

def isSnapshotUki (path : String) : Bool := glob snapshotUkis.toList path.toList

def Directory.expansion (directory : Directory) : List String :=
  (directory.entries.map Prod.fst).filter isSnapshotUki

/-- The pattern expands to the paths that it matches, in the order of the locale. -/
def Directory.Expands (directory : Directory) (ukis : List String) : Prop :=
  ukis.Perm directory.expansion

def IsFile (contents : String → Option (Node String)) (path : String) : Prop :=
  ∃ content, contents path = some (.file content)

/-- `rm` removes the file, or fails; `sbctl` keeps its database elsewhere. -/
def world : Machine Command Answer (String → Option (Node String)) := fun s command answer s' =>
  match command with
  | .testFile path => s' = s ∧ (answer.success ↔ IsFile s path)
  | .rm path => s' = if answer.success then Function.update s path none else s
  | .findSbctl | .grepSetupMode | .sbctlRemoveFile _ => s' = s

def Command.isRm : Command → Bool
  | .rm _ => true
  | _ => false

/-- No `rm` fails. -/
def Removes (exchanges : List (Command × Answer)) : Prop :=
  ∀ x ∈ exchanges, x.1.isRm → x.2.success

/-- Every run without a failing `rm` ends with status 0, and has removed the snapshot UKIs and
nothing else. -/
def CleansUp (euid : Nat) (directory : Directory) : Prop :=
  ∀ ukis exchanges outcome s', directory.Expands ukis → Runs (cleanup euid ukis) exchanges outcome →
    Replays world directory.contents exchanges s' → Removes exchanges → outcome ≠ .stopped →
      outcome = .returned () ∧ (∀ path, isSnapshotUki path → ¬ IsFile s' path) ∧
        ∀ path, ¬ (isSnapshotUki path ∧ IsFile directory.contents path) →
          s' path = directory.contents path

/-! ## The loop -/

variable {s s' : String → Option (Node String)} {ukis : List String}

theorem ends_testFile {uki : String} : Ends world s (succeeds (.testFile uki))
    fun _ outcome s' => s' = s ∧ ∃ file, outcome = .returned file ∧ (file ↔ IsFile s uki) :=
  ends_succeeds fun answer _ hstep => ⟨hstep.1, answer.success, rfl, hstep.2⟩

/-- What is no file is passed over. -/
theorem ends_removeUkis (h : ∀ uki ∈ ukis, ¬ IsFile s uki) (count : Nat) :
    Ends world s (removeUkis count ukis) fun _ outcome s' => outcome = .returned count ∧ s' = s := by
  induction ukis with
  | nil => exact ends_ret ⟨rfl, rfl⟩
  | cons uki ukis ih =>
    rw [List.forall_mem_cons] at h
    refine ends_testFile.bind (fun exchanges error mid hmid => ?_) fun first file mid hmid => ?_
    · obtain ⟨-, _, houtcome, -⟩ := hmid
      cases houtcome
    · obtain ⟨rfl, _, houtcome, hfile⟩ := hmid
      cases houtcome
      rw [if_neg fun hyes => h.1 (hfile.mp hyes)]
      exact (ih h.2).mono fun _ _ _ hs' => hs'

/-- The first file ends the script. -/
theorem exists_run_removeUkis (h : ∃ uki ∈ ukis, IsFile s uki) : ∃ exchanges s',
    Runs (removeUkis 0 ukis) exchanges (.raised ⟨1⟩) ∧ Replays world s exchanges s' ∧
      Removes exchanges := by
  induction ukis with
  | nil => simp at h
  | cons uki ukis ih =>
    by_cases hfile : IsFile s uki
    · refine ⟨[(.testFile uki, .ok), (.rm uki, .ok), (.findSbctl, .failed)],
        Function.update s uki none, ?_, ?_, ?_⟩
      · exact .request (.request (.request .raise))
      · exact .cons ⟨rfl, by simpa using hfile⟩ (.cons rfl (.cons rfl .nil))
      · simp [Removes, Command.isRm]
    · obtain ⟨exchanges, s', hrun, hreplay, hremoves⟩ := ih (by simpa [hfile] using h)
      refine ⟨(.testFile uki, .failed) :: exchanges, s', ?_, ?_, ?_⟩
      · exact .request hrun
      · exact .cons ⟨rfl, by simpa using hfile⟩ hreplay
      · simpa [Removes, Command.isRm] using hremoves

/-! ## The command -/

variable {directory : Directory}

theorem Directory.expands (directory : Directory) : directory.Expands directory.expansion :=
  List.Perm.refl _

theorem Directory.mem_expansion {path : String} (hexpands : directory.Expands ukis) :
    path ∈ ukis ↔ isSnapshotUki path ∧ directory.contents path ≠ none := by
  have hlookup : directory.contents path ≠ none ↔ path ∈ directory.entries.map Prod.fst := by
    rw [contents, ← Option.isSome_iff_ne_none, List.lookup_isSome_iff, List.mem_map]
    exact exists_congr fun entry => and_congr_right fun _ => by rw [beq_iff_eq, eq_comm]
  rw [hlookup, hexpands.mem_iff, expansion, List.mem_filter, and_comm]

/-- A snapshot UKI that is there makes the script fail. -/
theorem not_cleansUp {path : String} (huki : isSnapshotUki path)
    (hfile : IsFile directory.contents path) : ¬ CleansUp 0 directory := by
  intro h
  have hexpands := directory.expands
  have hnone : directory.contents path ≠ none := by
    obtain ⟨content, hcontent⟩ := hfile
    rw [hcontent]
    exact Option.some_ne_none _
  have hmem := (Directory.mem_expansion hexpands).mpr ⟨huki, hnone⟩
  obtain ⟨exchanges, s', hrun, hreplay, hremoves⟩ := exists_run_removeUkis ⟨path, hmem, hfile⟩
  have hrun' : Runs (do
      let count ← removeUkis 0 directory.expansion
      echo s!"Removed {count} snapshot UKIs.") exchanges (.raised ⟨1⟩) :=
    runs_bind_iff.mpr (.inr (.inl ⟨_, hrun, rfl⟩))
  have hreturned := (h _ exchanges _ s' hexpands (.log hrun') hreplay hremoves (by simp)).1
  cases hreturned

/-- It removes every snapshot UKI, with status 0, exactly when there is none to remove. -/
theorem cleansUp_iff (euid : Nat) (directory : Directory) : CleansUp euid directory ↔
    euid = 0 ∧ ∀ path, isSnapshotUki path → ¬ IsFile directory.contents path := by
  constructor
  · intro h
    have hroot : euid = 0 := by
      by_contra hne
      have hrefused : Runs (cleanup euid directory.expansion) [] (.raised ⟨1⟩) := by
        rw [cleanup, Program.onlyIf, if_pos (by simpa using hne)]
        exact .log .raise
      have hreturned := (h _ [] _ _ directory.expands hrefused .nil (by simp [Removes])
        (by simp)).1
      cases hreturned
    subst hroot
    exact ⟨rfl, fun path huki hfile => not_cleansUp huki hfile h⟩
  · rintro ⟨rfl, hnone⟩ ukis exchanges outcome s' hexpands hrun hreplay - hended
    have hukis : ∀ uki ∈ ukis, ¬ IsFile directory.contents uki := fun uki hmem =>
      hnone uki ((Directory.mem_expansion hexpands).mp hmem).1
    have hends : Ends world directory.contents (cleanup 0 ukis)
        fun _ outcome s' => outcome = .returned () ∧ s' = directory.contents := by
      refine ends_log.mpr ((ends_removeUkis hukis 0).bind ?_ ?_)
      · rintro _ _ _ ⟨houtcome, -⟩
        cases houtcome
      · rintro _ _ _ ⟨houtcome, rfl⟩
        exact ends_log.mpr (ends_ret ⟨rfl, rfl⟩)
    obtain ⟨rfl, rfl⟩ := hends exchanges outcome s' hrun hreplay hended
    exact ⟨rfl, hnone, fun _ _ => rfl⟩

/-- The UKI directory with the system's UKI and those of two snapshots. -/
def twoSnapshots : Directory where
  entries := [("/efi/EFI/Linux/arch-linux-default.efi", .file "system"),
    ("/efi/EFI/Linux/arch-snapshot-2-linux.efi", .file "second"),
    ("/efi/EFI/Linux/arch-snapshot-1-linux.efi", .file "first")]
  nodup := by decide

theorem not_cleansUp_twoSnapshots : ¬ ∀ directory, CleansUp 0 directory := by
  intro h
  have huki : isSnapshotUki "/efi/EFI/Linux/arch-snapshot-1-linux.efi" := by decide
  exact not_cleansUp huki ⟨"first", by decide⟩ (h twoSnapshots)

end ArchInstaller.SnapshotEntries
