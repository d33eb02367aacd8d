import ArchInstaller.Scripts.Shell
import ArchInstaller.Scripts.VerifyInstall

/-! # `cleanup_entries` of `manage_snapshot_entries.sh`

`manage-snapshot-ukis cleanup`, under `set -e`: an arithmetic command whose value is 0 fails. The
files that the pattern of the loop expands to are an argument of the model. -/

namespace ArchInstaller.SnapshotEntries

open Interaction Shell

inductive Command where
  /-- `[ -f path ]`. -/
  | testFile (path : String)
  /-- `rm -v path`. -/
  | rm (path : String)
  /-- `command -v sbctl`. -/
  | findSbctl
  /-- `sbctl status | grep -q "Setup Mode.*Disabled"`. -/
  | grepSetupMode
  /-- `sbctl remove-file path`. -/
  | sbctlRemoveFile (path : String)
  deriving DecidableEq

abbrev Script (α : Type) := Shell.Script Command α

/-- `UKI_DIR`. -/
def ukiDir : String := "/efi/EFI/Linux"

/-- `SNAPSHOT_UKI_PREFIX`. -/
def snapshotUkiPrefix : String := "arch-snapshot"

/-- The pattern of the snapshot UKIs. -/
def snapshotUkis : String := ukiDir ++ "/" ++ snapshotUkiPrefix ++ "*.efi"

/-- An arithmetic command of its own. -/
def arithmetic (value : Nat) : Script Unit := Program.onlyIf (value == 0) (Shell.exit 1)

def checkSecureBootSigning : Script Bool := do
  let found ← succeeds .findSbctl
  if found then succeeds .grepSetupMode else pure false

/-- The loop over the files, with `count`. -/
def removeUkis : Nat → List String → Script Nat
  | count, [] => pure count
  | count, uki :: ukis => do
    let file ← succeeds (.testFile uki)
    if file then do
      must (.rm uki)
      let signing ← checkSecureBootSigning
      Program.onlyIf signing do
        let _ ← ask (.sbctlRemoveFile uki)
      -- `((count++))` has the value that `count` had
      arithmetic count
      removeUkis (count + 1) ukis
    else removeUkis count ukis

def cleanupEntries (ukis : List String) : Script Unit := do
  echo "Cleaning up snapshot UKIs..."
  let count ← removeUkis 0 ukis
  echo s!"Removed {count} snapshot UKIs."

/-- `main cleanup`, for the user with the effective id `euid`. -/
def cleanup (euid : Nat) (ukis : List String) : Script Unit := do
  Program.onlyIf (euid != 0) do
    echo "Error: This script must be run with sudo or as root."
    Shell.exit 1
  cleanupEntries ukis

end ArchInstaller.SnapshotEntries
