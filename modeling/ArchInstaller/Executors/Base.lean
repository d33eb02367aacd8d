import ArchInstaller.Core.Command

/-! # What the step executors share

The paths of the target system and the shell helpers of `executors/base.py`. -/

namespace ArchInstaller

open PyText Script

def targetRoot : String := "/mnt"

def targetEfi : String := s!"{targetRoot}/efi"

-- sbctl moved its data directory from /usr/share/secureboot to /var/lib/sbctl
def sbctlDirectory : String := "/var/lib/sbctl"

def sbctlLegacyDirectory : String := "/usr/share/secureboot"

def sbctlPkKey : String := s!"{sbctlDirectory}/keys/PK/PK.key"

def sbctlDbKey : String := s!"{sbctlDirectory}/keys/db/db.key"

/-- A command that is run for its exit code only. -/
def probe (command : Command) : Script Bool := do return (← tryRun command).success

/-- A command that is run for its output only. -/
def query (command : Command) : Script String := do return (← tryRun command).stdout

def isMountpoint (path : String) : Script Bool := probe (.mountpoint path)

def pathExists (path : String) : Script Bool := probe (.test .exists path)

def fileExists (path : String) : Script Bool := probe (.test .file path)

def directoryExists (path : String) : Script Bool := probe (.test .directory path)

/-- The content goes through stdin, so it never needs shell quoting. -/
def writeFile (path content : String) : Script Unit := do
  let _ ← runWithInput (.writeFile path) content

/-- The header holds the UUID, so this works for a header on the partition or detached from it. -/
def detectLuksUuid (luksHeaderDevice : String) : Script String := do
  let result ← tryRun (.cryptsetupLuksUuid luksHeaderDevice)
  return if result.success then strip result.stdout else ""

def partitionUuid (partition : String) : Script String := do
  let uuid := strip (← query (.blkidPartuuid partition))
  if uuid == "" then raise (.runtime s!"{partition} has no GPT partition UUID")
  else return uuid

/-- Hardware identifiers burnt into the device, unique worldwide. -/
def uniqueDiskIdentifierPrefixes : List String := ["wwn-", "nvme-eui."]

/-- The `/dev/disk/by-id` link of a disk, or `""`. -/
def stableDiskPath (disk : String) : Script String := do
  let links := fields (← query (.readlinkById disk))
  let unique := links.filter fun link =>
    uniqueDiskIdentifierPrefixes.any fun start => startsWith start (afterLastSlash link)
  return (sorted (if unique.isEmpty then links else unique)).headD ""

/-- Poll for a device node, asking the kernel to read the partition table again in between. -/
def waitForNode (device node : String) (error : InstallerError) : Nat → Script Unit
  | 0 => raise error
  | attempts + 1 => do
    if ← pathExists node then return ()
    else
      tryRun_ (.partprobe device)
      waitForNode device node error attempts

/-- `first, second = values`. -/
def unpackPair : List String → Except InstallerError (String × String)
  | [first, second] => .ok (first, second)
  | _ :: _ :: _ :: _ => .error (.value "too many values to unpack (expected 2)")
  | values => .error (.value s!"not enough values to unpack (expected 2, got {values.length})")

end ArchInstaller
