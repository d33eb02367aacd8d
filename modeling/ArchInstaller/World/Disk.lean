import ArchInstaller.Executors.Base
import ArchInstaller.Interaction.Simulate

/-! # The disk, and what the storage commands do to it

A `DiskState` is the part of the machine that the storage step works on: what lies where on the
target disk, the open LUKS volume, the file systems, and what is mounted. `diskWorld` says which
answers a command may get and what it may do, so that its runs are those of every disk, tool
failure and old content. What a tool is assumed to do is stated here and nowhere else:

* `wipefs` and `sgdisk -Z` on the disk erase the partition table, not the data in partitions;
* a path names the same place again under partitions of the same sizes (`locate`);
* `shred` covers the disk when it succeeds; a fill or discard that fails covers any part of it;
* a probe that finds something found what is there, and may miss it; `mountpoint -q` is exact;
* a command that is not about the disk leaves it alone.

Volumes and file systems carry the number under which they were created, so what a run created is
what has a number from its start on. -/

namespace ArchInstaller

open Interaction PyText

/-- A place that can hold a LUKS header or a file system: a sector of the target disk, or
another device. -/
inductive Place where
  | sector (number : Nat)
  | device (path : String)
  deriving DecidableEq

def Place.onDisk : Place → Bool
  | sector _ => true
  | device _ => false

structure LuksVolume where
  id : Nat
  password : String
  parameters : LuksConfig

structure Mapping where
  device : String
  volume : LuksVolume

inductive Source where
  | btrfs (id : Nat) (subvolume : Option String)
  | fat (device : String) (id : Nat)
  | other
  deriving DecidableEq

structure Mount where
  path : String
  source : Source
  deriving DecidableEq

structure DiskState where
  /-- The sizes of the target disk's partitions. -/
  table : List PartitionSize
  luksAt : Place → Option LuksVolume
  fatAt : Place → Option Nat
  /-- The btrfs inside a LUKS volume. -/
  inside : Nat → Option Nat
  /-- The subvolumes of a btrfs. -/
  subvolumes : Nat → List String
  /-- The open volume `cryptroot`. -/
  cryptroot : Option Mapping
  /-- The newest mount comes first. -/
  mounts : List Mount
  /-- The number of the next volume or file system. -/
  clock : Nat

/-- `locate table path` is the place that a device path names when the disk has these partitions. -/
abbrev Locate := List PartitionSize → String → Place

def cryptrootPath : String := s!"/dev/mapper/{cryptrootMapperName}"

/-- `path` is `directory` or lies below it. -/
def atOrBelow (directory path : String) : Bool :=
  path == directory || startsWith s!"{directory}/" path

namespace DiskState

variable (s : DiskState)

def isMounted (path : String) : Bool := s.mounts.any (·.path == path)

/-- Lose what lies at the places where `gone` holds. -/
def erase (gone : Place → Bool) : DiskState :=
  { s with
    luksAt := fun place => if gone place then none else s.luksAt place
    fatAt := fun place => if gone place then none else s.fatAt place }

/-- The btrfs of the open volume. -/
def cryptrootBtrfs : Option Nat := s.cryptroot.bind fun mapping => s.inside mapping.volume.id

def addMount (path : String) (source : Source) : DiskState :=
  { s with mounts := ⟨path, source⟩ :: s.mounts }

/-- Lose the LUKS header and the file system at a place. -/
def clear (place : Place) : DiskState := s.erase (· = place)

/-- Lose the file system in a LUKS volume. -/
def clearInside (volume : Nat) : DiskState :=
  { s with inside := Function.update s.inside volume none }

def addSubvolume (fs : Nat) (name : String) : DiskState :=
  { s with subvolumes := Function.update s.subvolumes fs (name :: s.subvolumes fs) }

/-- A subvolume created below a mountpoint belongs to the file system whose top level is mounted
there. -/
def createSubvolume (root name : String) : DiskState :=
  match s.mounts.find? (·.path == root) with
  | some ⟨_, .btrfs fs none⟩ => s.addSubvolume fs name
  | _ => s

/-- What a new LUKS volume leaves: the header, and nothing inside. -/
def formatLuks (place : Place) (password : String) (luks : LuksConfig) : DiskState :=
  { s with
    luksAt := Function.update s.luksAt place (some ⟨s.clock, password, luks⟩)
    fatAt := Function.update s.fatAt place none
    inside := Function.update s.inside s.clock none
    clock := s.clock + 1 }

/-- A new btrfs in a LUKS volume, without subvolumes. -/
def formatBtrfs (volume : Nat) : DiskState :=
  { s with
    inside := Function.update s.inside volume (some s.clock)
    subvolumes := Function.update s.subvolumes s.clock []
    clock := s.clock + 1 }

def formatFat (place : Place) : DiskState :=
  { s with
    luksAt := Function.update s.luksAt place none
    fatAt := Function.update s.fatAt place (some s.clock)
    clock := s.clock + 1 }

section Formatted

variable {s} {place other : Place} {password : String} {luks : LuksConfig} {volume id : Nat}

@[simp, grind =] theorem formatLuks_luksAt : (s.formatLuks place password luks).luksAt other =
    if other = place then some ⟨s.clock, password, luks⟩ else s.luksAt other :=
  Function.update_apply ..

@[simp, grind =] theorem formatLuks_fatAt : (s.formatLuks place password luks).fatAt other =
    if other = place then none else s.fatAt other :=
  Function.update_apply ..

@[simp, grind =] theorem formatLuks_inside : (s.formatLuks place password luks).inside id =
    if id = s.clock then none else s.inside id :=
  Function.update_apply ..

@[simp, grind =] theorem formatFat_luksAt : (s.formatFat place).luksAt other =
    if other = place then none else s.luksAt other :=
  Function.update_apply ..

@[simp, grind =] theorem formatFat_fatAt : (s.formatFat place).fatAt other =
    if other = place then some s.clock else s.fatAt other :=
  Function.update_apply ..

@[simp, grind =] theorem formatBtrfs_inside : (s.formatBtrfs volume).inside id =
    if id = volume then some s.clock else s.inside id :=
  Function.update_apply ..

@[simp, grind =] theorem clearInside_inside : (s.clearInside volume).inside id =
    if id = volume then none else s.inside id :=
  Function.update_apply ..

end Formatted

end DiskState

section World

variable (disk : String) (locate : Locate)

/-- A command that overwrites data anywhere on the disk, its partition table included. -/
def Overwrites (s s' : DiskState) (gone : Place → Bool) : Prop :=
  (∀ place, gone place → place.onDisk) ∧ ∃ table, s' = { s.erase gone with table := table }

/-- The effect of the commands that change something: `ok` tells whether the command succeeded. -/
def DiskEffect (s : DiskState) (inputData : Option String) (ok : Bool) (s' : DiskState) :
    Command → Prop
  | .umountRecursive path => ∃ kept, s' = { s with mounts := kept } ∧ kept.Sublist s.mounts ∧
      (∀ mount ∈ s.mounts, atOrBelow path mount.path = false → mount ∈ kept)
  | .umount target =>
    s' = if ok then { s with mounts := s.mounts.eraseP (·.path == target) } else s
  | .cryptsetupClose name =>
    s' = if ok && name == cryptrootMapperName then { s with cryptroot := none } else s
  | .dmsetupRemoveAll => s' = s ∨ s' = { s with cryptroot := none }
  | .wipefs device =>
    s' = s ∨
      if device = disk then s' = { s with table := [] }
      else if device = cryptrootPath then
        ∃ mapping, s.cryptroot = some mapping ∧ s' = s.clearInside mapping.volume.id
      else s' = s.clear (locate s.table device)
  | .sgdiskZap device =>
    if device = disk then s' = { s with table := [] } ∨ (ok = false ∧ s' = s) else s' = s
  | .sgdiskNew _ size _ device =>
    s' = if ok && device == disk then { s with table := s.table ++ [size] } else s
  | .shred device =>
    if device = disk then ∃ gone, Overwrites s s' gone ∧ (ok → ∀ place, place.onDisk → gone place)
    else s' = s
  | .ddRandom device | .blkdiscard device =>
    if device = disk then ∃ gone, Overwrites s s' gone else s' = s
  | .cryptsetupLuksFormat luks header device =>
    let place := locate s.table (header.getD device)
    if ok then ∃ password, inputData = some password ∧ s' = s.formatLuks place password luks
    else s' = s ∨ s' = s.clear place
  | .cryptsetupOpen header device name =>
    if ok && name == cryptrootMapperName then
      ∃ volume, s.cryptroot = none ∧ s.luksAt (locate s.table (header.getD device)) = some volume ∧
        inputData = some volume.password ∧ s' = { s with cryptroot := some ⟨device, volume⟩ }
    else s' = s
  | .mkfsBtrfs _ device =>
    if device = cryptrootPath then
      if ok then ∃ mapping, s.cryptroot = some mapping ∧ s' = s.formatBtrfs mapping.volume.id
      else s' = s ∨ ∃ mapping, s.cryptroot = some mapping ∧ s' = s.clearInside mapping.volume.id
    else s' = s
  | .mkfsVfat device =>
    if ok then s' = s.formatFat (locate s.table device)
    else s' = s ∨ s' = s.clear (locate s.table device)
  | .subvolumeCreate root name => s' = if ok then s.createSubvolume root name else s
  | .mountBtrfs device directory =>
    if ok then ∃ fs, (device = cryptrootPath → s.cryptrootBtrfs = some fs) ∧
      s' = s.addMount directory (.btrfs fs none)
    else s' = s
  | .mountSubvolume name _ device directory =>
    if ok then ∃ fs, (device = cryptrootPath → s.cryptrootBtrfs = some fs) ∧
      name ∈ s.subvolumes fs ∧ s' = s.addMount directory (.btrfs fs (some name))
    else s' = s
  | .mountVfat device directory =>
    if ok then ∃ id, s.fatAt (locate s.table device) = some id ∧
      s' = s.addMount directory (.fat device id)
    else s' = s
  | _ => s' = s

/-- What an answer says about the state it was given in. -/
def DiskAnswer (s : DiskState) (inputData : Option String) (result : CommandExecutionResult) :
    Command → Prop
  | .mountpoint path => result.success = s.isMounted path
  | .cryptsetupStatus name =>
    result.success → name = cryptrootMapperName → s.cryptroot.isSome
  | .cryptsetupIsLuks device => result.success → (s.luksAt (locate s.table device)).isSome
  | .cryptsetupTestPassphrase header device => result.success →
    ∃ volume, s.luksAt (locate s.table (header.getD device)) = some volume ∧
      inputData = some volume.password
  | .blkid device =>
    (contains "TYPE=\"btrfs\"" result.stdout → device = cryptrootPath → s.cryptrootBtrfs.isSome) ∧
      (contains "TYPE=\"vfat\"" result.stdout → (s.fatAt (locate s.table device)).isSome)
  | _ => True

/-- The machine of the storage commands on `disk`. -/
def diskWorld : Machine Invocation CommandExecutionResult DiskState :=
  fun s invocation result s' =>
    DiskAnswer locate s invocation.inputData result invocation.command ∧
      DiskEffect disk locate s invocation.inputData result.success s' invocation.command

end World

/-! ## What a command leaves alone -/

namespace Command

/-- The commands that can change what lies on the disk. -/
def changesData : Command → Bool
  | wipefs _ | sgdiskZap _ | sgdiskNew .. | shred _ | ddRandom _ | blkdiscard _
  | cryptsetupLuksFormat .. | mkfsBtrfs .. | mkfsVfat _ | subvolumeCreate .. => true
  | _ => false

/-- The commands that make a LUKS volume or a file system. -/
def creates : Command → Bool
  | cryptsetupLuksFormat .. | mkfsBtrfs .. | mkfsVfat _ | mkfsExt4 _ => true
  | _ => false

/-- The commands whose answer tells what a volume or a partition holds. -/
def probesData : Command → Bool
  | cryptsetupStatus _ | cryptsetupIsLuks _ | cryptsetupTestPassphrase .. | blkid _ => true
  | _ => false

/-- The commands that can open or close a LUKS volume. -/
def changesMapping : Command → Bool
  | cryptsetupClose _ | dmsetupRemoveAll | cryptsetupOpen .. => true
  | _ => false

/-- The commands that can mount or unmount a file system. -/
def changesMounts : Command → Bool
  | umountRecursive _ | umount _ | mountBtrfs .. | mountSubvolume .. | mountVfat .. => true
  | _ => false

/-- The commands that change nothing in a `DiskState`. -/
def leavesDisk (command : Command) : Bool :=
  !command.changesData && !command.changesMapping && !command.changesMounts

end Command

namespace DiskState

/-- The same data lies on the disk. -/
structure SameData (s s' : DiskState) : Prop where
  table : s'.table = s.table
  luksAt : s'.luksAt = s.luksAt
  fatAt : s'.fatAt = s.fatAt
  inside : s'.inside = s.inside
  subvolumes : s'.subvolumes = s.subvolumes
  clock : s'.clock = s.clock

theorem SameData.refl (s : DiskState) : SameData s s := ⟨rfl, rfl, rfl, rfl, rfl, rfl⟩

theorem SameData.trans {s mid s' : DiskState} (h : SameData s mid) (h' : SameData mid s') :
    SameData s s' :=
  ⟨h'.table.trans h.table, h'.luksAt.trans h.luksAt, h'.fatAt.trans h.fatAt,
    h'.inside.trans h.inside, h'.subvolumes.trans h.subvolumes, h'.clock.trans h.clock⟩

end DiskState

section Frame

variable {disk : String} {locate : Locate} {s s' : DiskState} {invocation : Invocation}
  {result : CommandExecutionResult}

attribute [local simp] DiskEffect Command.changesData Command.changesMapping
  Command.changesMounts Command.leavesDisk in
theorem diskWorld_sameData (hstep : diskWorld disk locate s invocation result s')
    (h : invocation.command.changesData = false) : s.SameData s' := by
  obtain ⟨command, raises, inputData⟩ := invocation
  have heffect := hstep.2
  cases command <;> simp only [Command.changesData, Bool.true_eq_false] at h <;>
    simp only [DiskEffect] at heffect <;>
    grind [DiskState.SameData, DiskState.addMount]

theorem diskWorld_cryptroot (hstep : diskWorld disk locate s invocation result s')
    (h : invocation.command.changesMapping = false) : s'.cryptroot = s.cryptroot := by
  obtain ⟨command, raises, inputData⟩ := invocation
  have heffect := hstep.2
  cases command <;> simp only [Command.changesMapping, Bool.true_eq_false] at h <;>
    simp only [DiskEffect] at heffect <;>
    grind [Overwrites, DiskState.addMount, DiskState.erase, DiskState.clear,
      DiskState.clearInside, DiskState.formatLuks, DiskState.formatBtrfs, DiskState.formatFat,
      DiskState.createSubvolume, DiskState.addSubvolume]

theorem diskWorld_mounts (hstep : diskWorld disk locate s invocation result s')
    (h : invocation.command.changesMounts = false) : s'.mounts = s.mounts := by
  obtain ⟨command, raises, inputData⟩ := invocation
  have heffect := hstep.2
  cases command <;> simp only [Command.changesMounts, Bool.true_eq_false] at h <;>
    simp only [DiskEffect] at heffect <;>
    grind [Overwrites, DiskState.erase, DiskState.clear, DiskState.clearInside,
      DiskState.formatLuks, DiskState.formatBtrfs, DiskState.formatFat,
      DiskState.createSubvolume, DiskState.addSubvolume]

theorem diskWorld_eq (hstep : diskWorld disk locate s invocation result s')
    (h : invocation.command.leavesDisk) : s' = s := by
  obtain ⟨command, raises, inputData⟩ := invocation
  have heffect := hstep.2
  cases command <;>
    simp only [Command.leavesDisk, Command.changesData, Command.changesMapping,
      Command.changesMounts, Bool.not_true, Bool.and_false, Bool.false_and,
      Bool.false_eq_true] at h <;>
    exact heffect

theorem diskWorld_clock (hstep : diskWorld disk locate s invocation result s') :
    s.clock ≤ s'.clock := by
  obtain ⟨command, raises, inputData⟩ := invocation
  have heffect := hstep.2
  cases command <;> simp only [DiskEffect] at heffect <;>
    grind [Overwrites, DiskState.addMount, DiskState.erase, DiskState.clear,
      DiskState.clearInside, DiskState.formatLuks, DiskState.formatBtrfs, DiskState.formatFat,
      DiskState.createSubvolume, DiskState.addSubvolume]

/-- Only `luksFormat` makes a LUKS header. -/
theorem diskWorld_luksAt (hstep : diskWorld disk locate s invocation result s')
    (h : ∀ luks header device, invocation.command ≠ .cryptsetupLuksFormat luks header device)
    {place : Place} {volume : LuksVolume} (hvolume : s'.luksAt place = some volume) :
    s.luksAt place = some volume := by
  obtain ⟨command, raises, inputData⟩ := invocation
  have heffect := hstep.2
  cases command
  case cryptsetupLuksFormat luks header device => exact absurd rfl (h luks header device)
  all_goals
    simp only [DiskEffect] at heffect
    grind [Overwrites, DiskState.addMount, DiskState.erase, DiskState.clear,
      DiskState.clearInside, DiskState.formatBtrfs, DiskState.formatFat,
      DiskState.createSubvolume, DiskState.addSubvolume]

/-- Only `mkfs.vfat` makes a FAT file system. -/
theorem diskWorld_fatAt (hstep : diskWorld disk locate s invocation result s')
    (h : ∀ device, invocation.command ≠ .mkfsVfat device)
    {place : Place} {id : Nat} (hid : s'.fatAt place = some id) : s.fatAt place = some id := by
  obtain ⟨command, raises, inputData⟩ := invocation
  have heffect := hstep.2
  cases command
  case mkfsVfat device => exact absurd rfl (h device)
  all_goals
    simp only [DiskEffect] at heffect
    grind [Overwrites, DiskState.addMount, DiskState.erase, DiskState.clear,
      DiskState.clearInside, DiskState.formatLuks, DiskState.formatBtrfs,
      DiskState.createSubvolume, DiskState.addSubvolume]

/-! The same for whole runs. -/

theorem replays_clock {exchanges : Exchanges}
    (hreplay : Replays (diskWorld disk locate) s exchanges s') : s.clock ≤ s'.clock :=
  hreplay.preserves (P := fun state => s.clock ≤ state.clock)
    (fun _ _ _ _ hle hstep => hle.trans (diskWorld_clock hstep)) le_rfl

variable {α : Type} {allowed : Invocation → CommandExecutionResult → Prop} {p : Script α}
  {exchanges : Exchanges} {outcome : Outcome InstallerError α}

theorem replays_eq
    (h : IssuesGiven allowed (fun invocation => invocation.command.leavesDisk) p)
    (hallowed : AllAllowed allowed exchanges) (hrun : Runs p exchanges outcome)
    (hreplay : Replays (diskWorld disk locate) s exchanges s') : s' = s :=
  h.preserves (P := fun state => state = s) (fun _ _ _ _ hgood hs hstep =>
    (diskWorld_eq hstep hgood).trans hs) hallowed hrun hreplay rfl

theorem replays_sameData
    (h : IssuesGiven allowed (fun invocation => invocation.command.changesData = false) p)
    (hallowed : AllAllowed allowed exchanges) (hrun : Runs p exchanges outcome)
    (hreplay : Replays (diskWorld disk locate) s exchanges s') : s.SameData s' :=
  h.preserves (P := s.SameData) (fun _ _ _ _ hgood hs hstep =>
    hs.trans (diskWorld_sameData hstep hgood)) hallowed hrun hreplay (.refl s)

theorem replays_cryptroot
    (h : IssuesGiven allowed (fun invocation => invocation.command.changesMapping = false) p)
    (hallowed : AllAllowed allowed exchanges) (hrun : Runs p exchanges outcome)
    (hreplay : Replays (diskWorld disk locate) s exchanges s') : s'.cryptroot = s.cryptroot :=
  h.preserves (P := fun state => state.cryptroot = s.cryptroot) (fun _ _ _ _ hgood hs hstep =>
    (diskWorld_cryptroot hstep hgood).trans hs) hallowed hrun hreplay rfl

end Frame

/-! ## Simulated disks

Tools that do what they are asked to, for runs on concrete disks. -/

namespace DiskState

def done : CommandExecutionResult := ⟨0, "", ""⟩

def failed : CommandExecutionResult := ⟨1, "", ""⟩

def exitWith (ok : Bool) : CommandExecutionResult := if ok then done else failed

variable (disk : String) (locate : Locate)

def respond (s : DiskState) (invocation : Invocation) : CommandExecutionResult × DiskState :=
  match invocation.command with
  | .mountpoint path => (exitWith (s.isMounted path), s)
  | .umountRecursive path =>
    (exitWith (s.isMounted path),
      { s with mounts := s.mounts.filter fun mount => !atOrBelow path mount.path })
  | .umount target =>
    if s.isMounted target then
      (done, { s with mounts := s.mounts.eraseP (·.path == target) })
    else (failed, s)
  | .cryptsetupClose name =>
    if name == cryptrootMapperName && s.cryptroot.isSome then
      (done, { s with cryptroot := none })
    else (failed, s)
  | .wipefs device => (done, if device = disk then { s with table := [] } else s)
  | .sgdiskZap device => (done, if device = disk then { s with table := [] } else s)
  | .sgdiskNew _ size _ device =>
    (done, if device == disk then { s with table := s.table ++ [size] } else s)
  | .shred device | .blkdiscard device =>
    (done, if device = disk then { s.erase Place.onDisk with table := [] } else s)
  | .ddRandom device =>
    -- dd ends with an error once the disk is full
    (failed, if device = disk then { s.erase Place.onDisk with table := [] } else s)
  | .cryptsetupStatus name =>
    if name == cryptrootMapperName then
      match s.cryptroot with
      | some mapping => (⟨0, s!"{cryptrootPath} is active.\n  device:  {mapping.device}", ""⟩, s)
      | none => (failed, s)
    else (failed, s)
  | .cryptsetupIsLuks device => (exitWith (s.luksAt (locate s.table device)).isSome, s)
  | .cryptsetupTestPassphrase header device =>
    match s.luksAt (locate s.table (header.getD device)) with
    | some volume => (exitWith (invocation.inputData == some volume.password), s)
    | none => (failed, s)
  | .cryptsetupLuksFormat luks header device =>
    match invocation.inputData with
    | some password =>
      (done, s.formatLuks (locate s.table (header.getD device)) password luks)
    | none => (failed, s)
  | .cryptsetupOpen header device name =>
    match s.cryptroot, s.luksAt (locate s.table (header.getD device)) with
    | none, some volume =>
      if name == cryptrootMapperName && invocation.inputData == some volume.password then
        (done, { s with cryptroot := some ⟨device, volume⟩ })
      else (failed, s)
    | _, _ => (failed, s)
  | .blkid device =>
    if device = cryptrootPath then
      (⟨0, if s.cryptrootBtrfs.isSome then "TYPE=\"btrfs\"" else "", ""⟩, s)
    else
      (⟨0, if (s.fatAt (locate s.table device)).isSome then "TYPE=\"vfat\"" else "", ""⟩, s)
  | .mkfsBtrfs _ device =>
    match s.cryptroot with
    | some mapping =>
      if device = cryptrootPath then (done, s.formatBtrfs mapping.volume.id) else (failed, s)
    | none => (failed, s)
  | .mkfsVfat device => (done, s.formatFat (locate s.table device))
  | .subvolumeList _ =>
    match s.cryptrootBtrfs with
    | some fs =>
      (⟨0, unlines ((s.subvolumes fs).map fun name => s!"ID 256 gen 7 top level 5 path {name}"),
        ""⟩, s)
    | none => (failed, s)
  | .subvolumeCreate root name => (done, s.createSubvolume root name)
  | .mountBtrfs device directory =>
    match s.cryptrootBtrfs with
    | some fs =>
      if device = cryptrootPath then (done, s.addMount directory (.btrfs fs none)) else (failed, s)
    | none => (failed, s)
  | .mountSubvolume name _ device directory =>
    match s.cryptrootBtrfs with
    | some fs =>
      if device = cryptrootPath ∧ name ∈ s.subvolumes fs then
        (done, s.addMount directory (.btrfs fs (some name)))
      else (failed, s)
    | none => (failed, s)
  | .mountVfat device directory =>
    match s.fatAt (locate s.table device) with
    | some id => (done, s.addMount directory (.fat device id))
    | none => (failed, s)
  | _ => (done, s)

/-- The commands for which `faulty` holds fail and do nothing. -/
def respondWith (faulty : Command → Bool) (s : DiskState) (invocation : Invocation) :
    CommandExecutionResult × DiskState :=
  if faulty invocation.command then (failed, s) else respond disk locate s invocation

/-- Where the partitions of `/dev/sda` lie: the first one starts after a mebibyte. -/
def sdaPlaces : Locate
  | .mebibytes size :: _, path =>
    if path = "/dev/sda1" then .sector 2048
    else if path = "/dev/sda2" then .sector (2048 + 2048 * size.toNat)
    else .device path
  | _, path => .device path

/-- A disk without partitions. -/
def emptyDisk : DiskState where
  table := []
  luksAt _ := none
  fatAt _ := none
  inside _ := none
  subvolumes _ := []
  cryptroot := none
  mounts := []
  clock := 0

/-- `/dev/sda` after an installation under the given password, with nothing mounted. -/
def installedDisk (password : String) (luks : LuksConfig) (efiSizeMb : Int) : DiskState where
  table := [.mebibytes efiSizeMb, .rest]
  luksAt place :=
    if place = .sector (2048 + 2048 * efiSizeMb.toNat) then some ⟨0, password, luks⟩ else none
  fatAt place := if place = .sector 2048 then some 2 else none
  inside id := if id = 0 then some 1 else none
  subvolumes id := if id = 1 then ["@", "@home"] else []
  cryptroot := none
  mounts := []
  clock := 3

section Steps

variable {disk : String} {locate : Locate}

@[simp] theorem done_success : done.success = true := rfl

@[simp] theorem failed_success : failed.success = false := rfl

@[simp] theorem exitWith_success (ok : Bool) : (exitWith ok).success = ok := by
  cases ok <;> rfl

theorem respond_blkid (s : DiskState) (raises : Bool) (inputData : Option String)
    (device : String) :
    diskWorld disk locate s ⟨.blkid device, raises, inputData⟩
      (respond disk locate s ⟨.blkid device, raises, inputData⟩).1
      (respond disk locate s ⟨.blkid device, raises, inputData⟩).2 := by
  have hbtrfs : contains "TYPE=\"btrfs\"" "" = false := by decide
  have hvfat : contains "TYPE=\"vfat\"" "" = false := by decide
  have hmixed : contains "TYPE=\"vfat\"" "TYPE=\"btrfs\"" = false := by decide
  simp only [diskWorld, DiskAnswer, DiskEffect, respond]
  by_cases hdevice : device = cryptrootPath
  · cases s.cryptrootBtrfs <;> simp [hdevice, hbtrfs, hvfat, hmixed]
  · cases s.fatAt (locate s.table device) <;> simp [hdevice, hvfat]

/-- A simulated tool does what `diskWorld` allows. -/
theorem respond_step (s : DiskState) (invocation : Invocation) :
    diskWorld disk locate s invocation (respond disk locate s invocation).1
      (respond disk locate s invocation).2 := by
  obtain ⟨command, raises, inputData⟩ := invocation
  cases command
  case umountRecursive path =>
    refine ⟨trivial, _, rfl, List.filter_sublist, ?_⟩
    intro mount hmount hbelow
    exact List.mem_filter.mpr ⟨hmount, by simpa using hbelow⟩
  case shred device =>
    refine ⟨trivial, ?_⟩
    simp only [DiskEffect, respond]
    split
    · exact ⟨Place.onDisk, ⟨fun _ h => h, [], rfl⟩, fun _ _ h => h⟩
    · rfl
  case blkdiscard device | ddRandom device =>
    refine ⟨trivial, ?_⟩
    simp only [DiskEffect, respond]
    split
    · exact ⟨Place.onDisk, fun _ h => h, [], rfl⟩
    · rfl
  case blkid device => exact respond_blkid s raises inputData device
  case subvolumeList path =>
    simp only [diskWorld, DiskAnswer, DiskEffect, respond]
    cases s.cryptrootBtrfs <;> simp
  all_goals
    simp only [diskWorld, DiskAnswer, DiskEffect, respond, true_and] <;>
    grind [done_success, failed_success, exitWith_success]

/-- Every command but `mountpoint -q` may fail and do nothing. -/
theorem failed_step (s : DiskState) (invocation : Invocation)
    (h : ∀ path, invocation.command ≠ .mountpoint path) :
    diskWorld disk locate s invocation failed s := by
  obtain ⟨command, raises, inputData⟩ := invocation
  have herase : { s.erase (fun _ => false) with table := s.table } = s := by simp [erase]
  have hblkid : contains "TYPE=\"btrfs\"" "" = false ∧ contains "TYPE=\"vfat\"" "" = false := by
    decide
  cases command
  case mountpoint path => exact absurd rfl (h path)
  case umountRecursive path => exact ⟨trivial, s.mounts, rfl, .refl _, fun _ hm _ => hm⟩
  case shred device =>
    refine ⟨trivial, ?_⟩
    simp only [DiskEffect]
    split
    · exact ⟨fun _ => false, ⟨by simp, s.table, herase.symm⟩, by simp⟩
    · trivial
  case blkdiscard device | ddRandom device =>
    refine ⟨trivial, ?_⟩
    simp only [DiskEffect]
    split
    · exact ⟨fun _ => false, by simp, s.table, herase.symm⟩
    · trivial
  case blkid device => simp [diskWorld, DiskAnswer, DiskEffect, failed, hblkid]
  all_goals
    simp only [diskWorld, DiskAnswer, DiskEffect, true_and] <;> grind [failed_success]

theorem respondWith_step {faulty : Command → Bool} (h : ∀ path, faulty (.mountpoint path) = false)
    (s : DiskState) (invocation : Invocation) :
    diskWorld disk locate s invocation (respondWith disk locate faulty s invocation).1
      (respondWith disk locate faulty s invocation).2 := by
  unfold respondWith
  split
  · next hfaulty =>
    refine failed_step s invocation fun path hpath => ?_
    rw [hpath, h path] at hfaulty
    exact Bool.false_ne_true hfaulty
  · exact respond_step s invocation

end Steps

end DiskState

end ArchInstaller
