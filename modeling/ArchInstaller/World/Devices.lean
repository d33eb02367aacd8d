import ArchInstaller.Core.Command

/-! # The devices a command writes

Which block devices each command writes to, by the paths in the command. A volume that is open
under `/dev/mapper` is a device of its own. -/

namespace ArchInstaller.Command

/-- The devices whose partition table, headers or data the command erases or replaces. With a
detached header, formatting a LUKS volume writes the header's device only. -/
def erases : Command → List String
  | wipefs device | sgdiskZap device | sgdiskNew _ _ _ device | shred device | ddRandom device
  | blkdiscard device => [device]
  | cryptsetupLuksFormat _ header device => [header.getD device]
  | _ => []

/-- The block devices the command writes. -/
def writes : Command → List String
  | wipefs device | sgdiskZap device | sgdiskNew _ _ _ device | sgdiskMoveEnd device | shred device
  | ddRandom device | blkdiscard device | mkfsBtrfs _ device | mkfsVfat device
  | mkfsExt4 device => [device]
  | sgdiskReplicate _ spare => [spare]
  | ddCopy _ destination => [destination]
  | cryptsetupLuksFormat _ header device => [header.getD device]
  | _ => []

/-- The devices that get a partition or a file system. -/
def createsOn : Command → List String
  | sgdiskNew _ _ _ device | mkfsBtrfs _ device | mkfsVfat device | mkfsExt4 device => [device]
  | _ => []

/-- The devices whose labels or partition table the command overwrites with zeros. -/
def zeroes : Command → List String
  | wipefs device | sgdiskZap device => [device]
  | _ => []

/-- The devices that the command fills with random data from end to end. -/
def fills : Command → List String
  | shred disk | ddRandom disk => [disk]
  | _ => []

def formatsVolume : Command → Bool
  | cryptsetupLuksFormat .. => true
  | _ => false

/-- The commands that make, open or unlock a LUKS volume. -/
def usesVolume : Command → Bool
  | cryptsetupLuksFormat .. | cryptsetupOpen .. | cryptsetupTestPassphrase .. => true
  | _ => false

attribute [local simp] erases writes createsOn zeroes formatsVolume usesVolume in
theorem createsOn_subset_writes (command : Command) : command.createsOn ⊆ command.writes := by
  cases command <;> simp [createsOn, writes]

theorem zeroes_subset_writes (command : Command) : command.zeroes ⊆ command.writes := by
  cases command <;> simp [zeroes, writes]

theorem not_formatsVolume {command : Command} (h : command.usesVolume = false) :
    command.formatsVolume = false := by
  cases command <;> simp_all [formatsVolume, usesVolume]

theorem erases_subset_writes (command : Command) : command.erases ⊆ command.writes := by
  cases command <;> simp [erases, writes]

end ArchInstaller.Command
