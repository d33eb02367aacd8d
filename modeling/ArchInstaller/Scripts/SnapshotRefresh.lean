import ArchInstaller.Scripts.Shell
import ArchInstaller.Scripts.SnapshotCleanup
import ArchInstaller.Scripts.SnapshotEntries
import Mathlib.Data.List.Sort

/-! # `refresh_entries` of `manage_snapshot_entries.sh`

`manage-snapshot-ukis refresh` and `refresh-settled`, under `set -e`. The kernel command line that
the entries start from and the preferred kernel are arguments of the model; temporary files are
named by their texts, and the notifications are left out. -/

namespace ArchInstaller.SnapshotEntries.Refresh

open Interaction PyText

/-- What goes into a UKI. -/
structure Build where
  number : Nat
  kernel : String
  initrds : List String
  cmdline : String
  osRelease : String
  deriving DecidableEq

inductive Command where
  /-- `ls "$EFI_DIR/EFI"`. -/
  | lsEfi
  /-- `mkdir -p path`. -/
  | mkdir (path : String)
  | touch (path : String)
  /-- `rm -f path`. -/
  | rm (path : String)
  /-- What `"${UKI_DIR}/${SNAPSHOT_UKI_PREFIX}"*.efi` expands to. -/
  | expandUkis
  /-- The numbers in what `"$SNAPSHOTS_DIR"/*/snapshot` expands to. -/
  | expandSnapshots
  /-- What `/boot/vmlinuz-*` expands to. -/
  | expandKernels
  /-- What `/boot/*-ucode.img` expands to. -/
  | expandMicrocode
  | testDirectory (path : String)
  | testFile (path : String)
  /-- `uname -r`. -/
  | uname
  /-- `command -v program`. -/
  | find (program : String)
  /-- `sbctl status | grep -q "Setup Mode.*Disabled"`. -/
  | grepSetupMode
  /-- The text of a snapshot's `info.xml`; it fails where that is no file. -/
  | readInfo (number : Nat)
  /-- `btrfs property get path ro | grep -o "true\|false"`. -/
  | btrfsGet (path : String)
  /-- `btrfs property set path ro false`. -/
  | btrfsSet (path : String)
  /-- `date '+%Y-%m-%d %H:%M'`, of a date or of now. -/
  | date (text : Option String)
  /-- `cat` of these files into one. -/
  | cat (paths : List String)
  | ukify (build : Build)
  | objcopy (build : Build)
  /-- `sbctl sign -s path`. -/
  | sign (path : String)
  | sleep
  /-- `stat -c '%n %Y' "$SNAPSHOTS_DIR"/*/info.xml`. -/
  | statInfos
  /-- `stat -c '%n' "$SNAPSHOTS_DIR"/*/snapshot`. -/
  | statSnapshots
  deriving DecidableEq

/-- The status of a command and what it prints, with the lists that are made of it. -/
structure Reply where
  status : Nat
  output : String := ""
  paths : List String := []
  numbers : List Nat := []
  /-- Numbers of snapshots, with times of modification. -/
  times : List (Nat × Nat) := []
  deriving DecidableEq

def Reply.success (reply : Reply) : Bool := reply.status == 0

abbrev Script (α : Type) := Program Command Reply String Shell.Exit α

def ask (command : Command) : Script Reply := .request command .ret

/-- A command as a condition. -/
def succeeds (command : Command) : Script Bool := Reply.success <$> ask command

/-- A command of its own. -/
def must (command : Command) : Script Unit := do
  let reply ← ask command
  if reply.success then pure () else .raise ⟨reply.status⟩

def echo (message : String) : Script Unit := .log message (.ret ())

/-! ## Paths -/

/-- `REFRESH_PENDING_MARKER`. -/
def refreshPendingMarker : String := "/var/lib/manage-snapshot-ukis/refresh-pending"

/-- `SNAPSHOTS_DIR`. -/
def snapshotsDir : String := "/.snapshots"

def snapshotDirectory (number : Nat) : String := s!"{snapshotsDir}/{number}/snapshot"

def vmlinuz (kernel : String) : String := s!"/boot/vmlinuz-{kernel}"

def initramfs (kernel : String) : String := s!"/boot/initramfs-{kernel}.img"

/-- `uki_output`. -/
def snapshotUki (number : Nat) (kernel : String) : String :=
  s!"{ukiDir}/{snapshotUkiPrefix}-{number}-{kernel}.efi"

def Build.output (build : Build) : String := snapshotUki build.number build.kernel

/-- `stub`. -/
def efiStub : String := "/usr/lib/systemd/boot/efi/linuxx64.efi.stub"

/-! ## The kernel -/

/-- `get_running_kernel`, of what `uname -r` prints. -/
def runningKernel (release : String) : String :=
  if contains "-hardened" release then "linux-hardened"
  else if contains "-lts" release then "linux-lts"
  else if contains "-zen" release then "linux-zen"
  else if contains "-rt" release then "linux-rt"
  else "linux"

/-- `[ -f "/boot/vmlinuz-…" ] && [ -f "/boot/initramfs-….img" ]`. -/
def hasKernel (kernel : String) : Script Bool := do
  if ← succeeds (.testFile (vmlinuz kernel)) then succeeds (.testFile (initramfs kernel))
  else pure false

/-- `kernel_name`. -/
def kernelName (path : String) : String := removePrefix "/boot/vmlinuz-" path

/-- The conditions in the loop over the kernels. -/
def isInstalled (path : String) : Script Bool := do
  if ← succeeds (.testFile path) then succeeds (.testFile (initramfs (kernelName path)))
  else pure false

/-- The kernels of these files that have an initramfs. -/
def installedKernels : List String → Script (List String)
  | [] => pure []
  | path :: paths => do
    let installed ← isInstalled path
    let later ← installedKernels paths
    return if installed then kernelName path :: later else later

/-- `get_default_kernel`. -/
def getDefaultKernel (preferredKernel : String) : Script String := do
  let running := runningKernel (← ask .uname).output
  if ← hasKernel running then return running
  else
    match ← installedKernels (← ask .expandKernels).paths with
    | kernel :: _ => return kernel
    | [] => return if preferredKernel == "" then "linux" else preferredKernel

/-! ## Signing -/

def checkSecureBootSigning : Script Bool := do
  if ← succeeds (.find "sbctl") then succeeds .grepSetupMode else pure false

/-- `sign_file`, where its status does not matter. -/
def signFile (path : String) : Script Unit := do
  if ← checkSecureBootSigning then do
    echo s!"Signing {path} with sbctl..."
    let signed ← succeeds (.sign path)
    Program.onlyIf (!signed) (echo s!"Could not sign {path} - Secure Boot may reject it")
  else echo "sbctl not available or not configured - UKI will be unsigned"

/-! ## Snapshots -/

/-- `grep -oP '(?<=<tag>)[^<]*' | head -1`; it fails where no line has the tag. -/
def grepTag (tag text : String) : Option String :=
  let opening := s!"<{tag}>".toList
  let found := (split "\n" text).flatMap fun line =>
    (line.toList.tails.filter opening.isPrefixOf).map fun rest =>
      (rest.drop opening.length).takeWhile (· != '<')
  if found.isEmpty then none
  else some (String.ofList ((found.find? (!·.isEmpty)).getD []))

/-- `get_snapshot_info`, of the text of `info.xml`. -/
def snapshotInfo (number : Nat) (info : Option String) : String :=
  match info with
  | some text =>
    let description := (grepTag "description" text).getD s!"Snapshot {number}"
    let date := (grepTag "date" text).getD "Unknown"
    let type := (grepTag "type" text).getD "single"
    let shown := if description == "" then s!"Snapshot {number}" else description
    s!"{shown}|{date}|{type}"
  | none => s!"Snapshot {number}|Unknown|single"

def getSnapshotInfo (number : Nat) : Script String := do
  let info ← ask (.readInfo number)
  return snapshotInfo number (if info.success then some info.output else none)

/-- `cut -d'|' -f` of a line with delimiters. -/
def cut (field : Nat) (line : String) : String := (split "|" line).getD (field - 1) ""

/-- `formatted_date`. -/
def formatDate (date : String) : Script String := do
  if date == "Unknown" then return (← ask (.date none)).output
  else do
    let formatted ← ask (.date (some date))
    return if formatted.success then formatted.output else String.ofList (date.toList.take 16)

/-- The text of `create_snapshot_osrelease`. -/
def osRelease (number : Nat) (kernel formattedDate : String) : String :=
  let shortName := removePrefix "linux-" kernel
  let shortName := if shortName == "linux" then "mainline" else shortName
  unlines
    ["NAME=\"Arch Linux\"", s!"PRETTY_NAME=\"Snapshot #{number} [{shortName}] ({formattedDate})\"",
      "ID=arch", "BUILD_ID=rolling", s!"VERSION_ID={number}", "ANSI_COLOR=\"38;2;23;147;209\""]

/-! ## One UKI -/

/-- The microcode that `ukify` gets. -/
def microcode : Script (List String) := do
  let intel ← succeeds (.testFile "/boot/intel-ucode.img")
  let amd ← succeeds (.testFile "/boot/amd-ucode.img")
  return (if intel then ["/boot/intel-ucode.img"] else []) ++
    if amd then ["/boot/amd-ucode.img"] else []

def buildWithUkify (number : Nat) (kernel cmdline osRelease : String) : Script Bool := do
  let initrds := (← microcode) ++ [initramfs kernel]
  if ← succeeds (.ukify { number, kernel, initrds, cmdline, osRelease }) then pure true
  else do
    echo "ukify failed to build UKI"
    return false

def buildWithObjcopy (number : Nat) (kernel cmdline osRelease : String) : Script Bool := do
  if ← succeeds (.testFile efiStub) then do
    let ucode := (← ask .expandMicrocode).paths
    let combined ← succeeds (.cat (ucode ++ [initramfs kernel]))
    let initrds := if combined then ucode ++ [initramfs kernel] else [initramfs kernel]
    if ← succeeds (.objcopy { number, kernel, initrds, cmdline, osRelease }) then pure true
    else do
      echo "objcopy failed to build UKI"
      return false
  else do
    echo s!"EFI stub not found at {efiStub}"
    return false

def buildUki (number : Nat) (kernel cmdline osRelease : String) : Script Bool := do
  if ← succeeds (.find "ukify") then buildWithUkify number kernel cmdline osRelease
  else if ← succeeds (.find "objcopy") then buildWithObjcopy number kernel cmdline osRelease
  else do
    echo "Neither ukify nor objcopy available for UKI generation"
    return false

/-- `generate_snapshot_uki`, as a condition: no error ends the script in it. -/
def generateSnapshotUki (number : Nat) (kernel cmdline date : String) : Script Bool := do
  if !(← succeeds (.testFile (vmlinuz kernel))) then do
    echo s!"Kernel {vmlinuz kernel} not found"
    return false
  else if !(← succeeds (.testFile (initramfs kernel))) then do
    echo s!"Initramfs {initramfs kernel} not found - run: mkinitcpio -p {kernel}"
    return false
  else do
    let osRelease := osRelease number kernel (← formatDate date)
    echo s!"Building UKI for snapshot #{number} ({kernel})..."
    if ← buildUki number kernel cmdline osRelease then do
      signFile (snapshotUki number kernel)
      echo s!"Created: {snapshotUki number kernel}"
      return true
    else return false

/-! ## The refresh -/

/-- The loop that collects the numbers. -/
def existingSnapshots : List Nat → Script (List Nat)
  | [] => pure []
  | number :: numbers => do
    let isDirectory ← succeeds (.testDirectory (snapshotDirectory number))
    let later ← existingSnapshots numbers
    return if isDirectory then number :: later else later

/-- `sort -rn`. -/
def sortedNumbers (numbers : List Nat) : List Nat := numbers.insertionSort (· ≥ ·)

/-- Making a snapshot writable for its boot. -/
def makeWritable (number : Nat) : Script Unit := do
  let isReadonly ← ask (.btrfsGet (snapshotDirectory number))
  Program.onlyIf (isReadonly.success && isReadonly.output == "true") do
    echo s!"Making snapshot #{number} writable for boot..."
    let writable ← succeeds (.btrfsSet (snapshotDirectory number))
    Program.onlyIf (!writable)
      (echo s!"Could not make snapshot #{number} writable - boot may fail")

section

variable (sources : CmdlineSources) (kernel : String)

/-- What the loop does with a snapshot that is there. -/
def refreshSnapshot (number : Nat) : Script Bool := do
  makeWritable number
  let info ← getSnapshotInfo number
  echo s!"Generating UKI for snapshot #{number} ({cut 1 info})..."
  let cmdline := buildSnapshotCmdline sources (snapshotSubvolume number) "rw"
  let created ← generateSnapshotUki number kernel cmdline (cut 2 info)
  if created then echo s!"Successfully created UKI for snapshot #{number}"
  else echo s!"Failed to create UKI for snapshot #{number}"
  return created

/-- The loop over the snapshots, newest first, with `count` and `success`. -/
def refreshNewest (maxSnapshots : Nat) : Nat → Nat → List Nat → Script Nat
  | _, success, [] => pure success
  | count, success, number :: numbers =>
    if maxSnapshots ≤ count then pure success
    else do
      if ← succeeds (.testDirectory (snapshotDirectory number)) then do
        let created ← refreshSnapshot sources kernel number
        refreshNewest maxSnapshots (count + 1) (if created then success + 1 else success) numbers
      else refreshNewest maxSnapshots count success numbers

end

section

variable (sources : CmdlineSources) (preferredKernel : String) (maxSnapshots : Nat)

/-- `refresh_entries` from the list of the snapshots on. -/
def refreshSnapshots (kernel : String) : Script Unit := do
  let numbers ← existingSnapshots (← ask .expandSnapshots).numbers
  if numbers.isEmpty then echo s!"No snapshots found in {snapshotsDir}"
  else do
    let success ← refreshNewest sources kernel maxSnapshots 0 0 (sortedNumbers numbers)
    echo s!"Created {success} bootable snapshot UKIs in {ukiDir}"

/-- `rm -f "${UKI_DIR}/${SNAPSHOT_UKI_PREFIX}"*.efi || true`, one file after the other. -/
def removeUkis : Script Unit := do
  Program.forEach (← ask .expandUkis).paths fun path => do
    let _ ← ask (.rm path)

/-- `refresh_entries` where the ESP is not reachable. -/
def postponeRefresh : Script Unit := do
  echo ("/efi is not reachable (USB boot drive unplugged?), the snapshot UKIs are built when it " ++
    "is back")
  must (.mkdir "/var/lib/manage-snapshot-ukis")
  must (.touch refreshPendingMarker)

/-- `refresh_entries` from the removal of the UKIs on. -/
def rebuildUkis : Script Unit := do
  if !(← succeeds (.testDirectory snapshotsDir)) then
    echo s!"Snapshots directory {snapshotsDir} not found."
  else do
    let kernel ← getDefaultKernel preferredKernel
    echo s!"Using kernel: {kernel}"
    if ← checkSecureBootSigning then
      echo "Secure Boot signing available - UKIs will be signed"
    else do
      echo "Secure Boot signing not available - UKIs will be unsigned"
      echo "Boot may fail if Secure Boot is enabled in UEFI"
    refreshSnapshots sources maxSnapshots kernel

def refreshEntries : Script Unit := do
  echo s!"Refreshing snapshot UKIs (last {maxSnapshots})..."
  if !(← succeeds .lsEfi) then postponeRefresh
  else do
    must (.rm refreshPendingMarker)
    must (.mkdir ukiDir)
    removeUkis
    rebuildUkis sources preferredKernel maxSnapshots

/-! ## Until the snapshots are settled -/

/-- What `snapshots_fingerprint` prints. -/
structure Fingerprint where
  infos : List (Nat × Nat)
  snapshots : List Nat
  deriving DecidableEq

def snapshotsFingerprint : Script Fingerprint := do
  let infos := (← ask .statInfos).times
  let snapshots := (← ask .statSnapshots).numbers
  return { infos, snapshots }

/-- The loop of `wait_for_snapshots_to_settle`, with the attempts that are left. -/
def waitToSettle : Nat → Fingerprint → Script Unit
  | 0, _ => echo "Snapshots are still changing, refreshing anyway"
  | attempts + 1, previous => do
    must .sleep
    let current ← snapshotsFingerprint
    if current = previous then pure () else waitToSettle attempts current

def waitForSnapshotsToSettle : Script Unit := do
  waitToSettle 30 (← snapshotsFingerprint)

/-- `MAX_REFRESH_ROUNDS`. -/
def maxRefreshRounds : Nat := 5

/-- The loop of `refresh_entries_until_settled`, with the rounds that are left; it says whether the
snapshots are settled. -/
def refreshRounds : Nat → Script Bool
  | 0 => do
    echo (s!"Snapshots kept changing over {maxRefreshRounds} refreshes, the newest get a UKI on " ++
      "the next change")
    return false
  | rounds + 1 => do
    waitForSnapshotsToSettle
    let fingerprintBeforeRefresh ← snapshotsFingerprint
    refreshEntries sources preferredKernel maxSnapshots
    if (← snapshotsFingerprint) = fingerprintBeforeRefresh then return true
    else do
      echo "Snapshots changed during the refresh, refreshing again"
      refreshRounds rounds

def refreshEntriesUntilSettled : Script Bool :=
  refreshRounds sources preferredKernel maxSnapshots maxRefreshRounds

end

end ArchInstaller.SnapshotEntries.Refresh
