import ArchInstaller.Config.Models
import ArchInstaller.Interaction.Issues

/-! # Commands, and the runner that issues them

Every shell command of the installation is a value of `Command`, with the arguments that the
source puts into its f-string; `Command.text` is that f-string. A `Script` is a program whose
requests are calls of `CommandRunner.run` (`Invocation`) and whose answers are the exit code and
the captured output. -/

namespace ArchInstaller

open Interaction PyText

inductive TestFlag where
  | exists
  | file
  | directory
  deriving DecidableEq

def TestFlag.text : TestFlag → String
  | .exists => "-e"
  | .file => "-f"
  | .directory => "-d"

/-- The size of a new partition: so many MiB, or all the room that is left. -/
inductive PartitionSize where
  | mebibytes (size : Int)
  | rest
  deriving DecidableEq

def PartitionSize.text : PartitionSize → String
  | mebibytes size => s!"+{size}M"
  | rest => "0"

/-- The commands that run inside the new system through `run_as_chroot`. -/
inductive ChrootCommand where
  | systemctlEnable (unit : String)
  | systemctlMask (unit : String)
  | pacmanQuery (package : String)
  | pacmanInstall (packages : String)
  | pacmanUpdate (packages : String)
  | hwclock
  | localeGen
  | id (user : String)
  | idGroups (user : String)
  | useradd (groups user : String)
  | chpasswd
  | chown (owner path : String)
  | getentGroup (group : String)
  | groupadd (group : String)
  | usermod (group user : String)
  | sbctlStatus
  | sbctlCreateKeys
  | sbctlEnrollKeys (command : String)
  | sbctlSign (path : String)
  | readSetupMode
  | mkinitcpio
  | bootctlInstall (options : String)
  | ukify (linux : String) (initrds : List String) (cmdline output : String)
  | ufw (arguments : String)
  deriving DecidableEq

def ChrootCommand.text : ChrootCommand → String
  | systemctlEnable unit => s!"systemctl enable {unit}"
  | systemctlMask unit => s!"systemctl mask {unit}"
  | pacmanQuery package => s!"pacman -Q {package}"
  | pacmanInstall packages => s!"pacman -S --noconfirm {packages}"
  | pacmanUpdate packages => s!"pacman -Syu --noconfirm --needed {packages}"
  | hwclock => "hwclock --systohc"
  | localeGen => "locale-gen"
  | id user => s!"id {user}"
  | idGroups user => s!"id -nG {user}"
  | useradd groups user => s!"useradd -m -G {groups} -s /bin/bash {user}"
  | chpasswd => "chpasswd"
  | chown owner path => s!"chown {owner} {path}"
  | getentGroup group => s!"getent group {group}"
  | groupadd group => s!"groupadd {group}"
  | usermod group user => s!"usermod -aG {group} {user}"
  | sbctlStatus => "sbctl status"
  | sbctlCreateKeys => "sbctl create-keys"
  | sbctlEnrollKeys command => command
  | sbctlSign path => s!"sbctl sign -s {path}"
  | readSetupMode =>
    "cat /sys/firmware/efi/efivars/SetupMode-* 2>/dev/null | xxd -p | tail -c 3"
  | mkinitcpio => "mkinitcpio -P"
  | bootctlInstall options => s!"bootctl install --esp-path=/efi{options}"
  | ukify linux initrds cmdline output =>
    s!"ukify build --linux={linux} " ++ String.join (initrds.map fun initrd => s!"--initrd={initrd} ") ++
      s!"--cmdline='{cmdline}' --output={output}"
  | ufw arguments => s!"ufw {arguments}"

inductive Command where
  -- what is mounted, and the files below
  | mountpoint (path : String)
  | test (flag : TestFlag) (path : String)
  | findmntSource (path : String)
  | umount (target : String)
  | umountRecursive (path : String)
  | mountBtrfs (device directory : String)
  | mountTopLevel (device directory : String)
  | mountSubvolume (subvolume options device directory : String)
  | mountVfat (device directory : String)
  | mountExt4 (device directory : String)
  | mount (device directory : String)
  | mkdir (paths : String)
  | rmdir (path : String)
  | rmForce (path : String)
  | rmRecursive (path : String)
  | cp (source destination : String)
  | cpArchive (source destination : String)
  | rsyncDelete (source destination : String)
  | ls (path : String)
  | cat (path : String)
  | writeFile (path : String)
  | chmod (mode path : String)
  | chattrNocow (path : String)
  | installFile (source destination : String)
  | installDirectory (path : String)
  | linkForce (target link : String)
  | sedInPlace (script file : String)
  | grepEntries (file : String)
  | genfstab (root file : String)
  | pacstrap (root packages : String)
  | reflector (countries file : String)
  | diskUsage (path : String)
  | diskFree (path : String)
  -- block devices and partitions
  | lsblk (device : String)
  | lsblkNames (disk : String)
  | lsblkNodes (disk : String)
  | lsblkType (device : String)
  | lsblkMountpoints (device : String)
  | blkid (device : String)
  | blkidPartuuid (device : String)
  | blkidUuid (device : String)
  | readlinkById (disk : String)
  | blockdevSize (device : String)
  | blockdevFlush (disk : String)
  | blockdevReread (disk : String)
  | partprobe (disk : String)
  | udevadmSettle
  | losetupCapacity (disk : String)
  | mknod (node major minor : String)
  | wipefs (device : String)
  | sgdiskZap (device : String)
  | sgdiskNew (number : Nat) (size : PartitionSize) (type device : String)
  | sgdiskReplicate (source spare : String)
  | sgdiskMoveEnd (device : String)
  | shred (disk : String)
  | ddRandom (disk : String)
  | blkdiscard (disk : String)
  | ddCopy (source destination : String)
  | ddRead (source : String) (offset length : Nat) (formatCommand : String)
  | cmp (source spare : String)
  | sync
  | syncFilesystem (path : String)
  -- LUKS volumes
  | dmsetupRemoveAll
  | cryptsetupStatus (name : String)
  | cryptsetupClose (name : String)
  | cryptsetupIsLuks (device : String)
  | cryptsetupLuksUuid (device : String)
  | cryptsetupTestPassphrase (header : Option String) (device : String)
  | cryptsetupLuksFormat (luks : LuksConfig) (header : Option String) (device : String)
  | cryptsetupOpen (header : Option String) (device name : String)
  -- file systems
  | mkfsBtrfs (label device : String)
  | mkfsVfat (device : String)
  | mkfsExt4 (device : String)
  | subvolumeList (path : String)
  | subvolumeCreate (root name : String)
  | subvolumeShow (path : String)
  | subvolumeDelete (path : String)
  | disableCompression (path : String)
  -- the swapfile
  | swapoffAll
  | truncate (path : String)
  | fallocate (sizeMb : Int) (path : String)
  | ddZero (path : String) (count : Int)
  | mkswap (path : String)
  | swapon (path : String)
  | mapSwapfile (path : String)
  | filefrag (path : String)
  -- the recovery system
  | bsdtarList (source members : String)
  | bsdtarExtract (source directory member : String)
  | bsdtarNewc (archive directory members : String)
  | mkdirPrivate (path : String)
  | opensslRequest (key certificate : String) (days : Nat)
  | opensslSign (image certificate key : String)
  -- the running system
  | pacmanExplicit
  | date
  | hostname
  | chroot (command : ChrootCommand)
  deriving DecidableEq

/-- The option that names a detached LUKS header, with the blank that follows it. -/
def headerOption : Option String → String
  | none => ""
  | some header => s!"--header {header} "

/-- With a detached header the ciphertext starts at the disk's first byte. -/
def offsetOption : Option String → String
  | none => ""
  | some header => s!"--header {header} --offset 0 "

/-- The command line that is handed to the shell. -/
def Command.text : Command → String
  | mountpoint path => s!"mountpoint -q {path}"
  | test flag path => s!"test {flag.text} {path}"
  | findmntSource path => s!"findmnt -n -o SOURCE {path}"
  | umount target => s!"umount {target}"
  | umountRecursive path => s!"umount -R {path}"
  | mountBtrfs device directory => s!"mount -t btrfs {device} {directory}"
  | mountTopLevel device directory => s!"mount -t btrfs -o subvolid=5 {device} {directory}"
  | mountSubvolume subvolume options device directory =>
    s!"mount -t btrfs -o subvol={subvolume},{options} {device} {directory}"
  | mountVfat device directory => s!"mount -t vfat -o umask=0077 {device} {directory}"
  | mountExt4 device directory => s!"mount -t ext4 {device} {directory}"
  | mount device directory => s!"mount {device} {directory}"
  | mkdir paths => s!"mkdir -p {paths}"
  | rmdir path => s!"rmdir {path}"
  | rmForce path => s!"rm -f {path}"
  | rmRecursive path => s!"rm -rf {path}"
  | cp source destination => s!"cp {source} {destination}"
  | cpArchive source destination => s!"cp -a {source} {destination}"
  | rsyncDelete source destination => s!"rsync -a --delete {source}/ {destination}/"
  | ls path => s!"ls -A {path}"
  | cat path => s!"cat {path}"
  | writeFile path => s!"cat > {path}"
  | chmod mode path => s!"chmod {mode} {path}"
  | chattrNocow path => s!"chattr +C {path}"
  | installFile source destination => s!"install -m 755 {source} {destination}"
  | installDirectory path => s!"install -d -m 755 {path}"
  | linkForce target link => s!"ln -sf {target} {link}"
  | sedInPlace script file => s!"sed -i '{script}' {file}"
  | grepEntries file => s!"grep -q '^[^#]' {file}"
  | genfstab root file => s!"genfstab -U {root} >> {file}"
  | pacstrap root packages => s!"pacstrap -K {root} --noconfirm {packages}"
  | reflector countries file =>
    s!"reflector --country '{countries}' --protocol https --latest 20 --sort rate --save {file}"
  | diskUsage path => s!"du -sm {path}"
  | diskFree path => s!"df --output=avail -m {path}"
  | lsblk device => s!"lsblk {device}"
  | lsblkNames disk => s!"lsblk -ln -o NAME {disk}"
  | lsblkNodes disk => s!"lsblk -r -n -o NAME,MAJ:MIN,TYPE {disk}"
  | lsblkType device => s!"lsblk -dno TYPE {device}"
  | lsblkMountpoints device => s!"lsblk -nro MOUNTPOINT {device}"
  | blkid device => s!"blkid {device}"
  | blkidPartuuid device => s!"blkid -s PARTUUID -o value {device}"
  | blkidUuid device => s!"blkid -s UUID -o value {device}"
  | readlinkById disk =>
    s!"target=$(readlink -f {disk}); for link in /dev/disk/by-id/*; do " ++
      "[ \"$(readlink -f \"$link\")\" = \"$target\" ] && echo \"$link\"; done"
  | blockdevSize device => s!"blockdev --getsize64 {device}"
  | blockdevFlush disk => s!"blockdev --flushbufs {disk}"
  | blockdevReread disk => s!"blockdev --rereadpt {disk}"
  | partprobe disk => s!"partprobe {disk}"
  | udevadmSettle => "udevadm settle"
  | losetupCapacity disk => s!"losetup -c {disk}"
  | mknod node major minor => s!"mknod {node} b {major} {minor}"
  | wipefs device => s!"wipefs -af {device}"
  | sgdiskZap device => s!"sgdisk -Z {device}"
  | sgdiskNew number size type device =>
    s!"sgdisk -n{number}:0:{size.text} -t{number}:{type} {device}"
  | sgdiskReplicate source spare => s!"sgdisk --replicate={spare} {source}"
  | sgdiskMoveEnd device => s!"sgdisk -e {device}"
  | shred disk => s!"shred -v -n 1 {disk}"
  | ddRandom disk => s!"dd bs=4M if=/dev/urandom of={disk} conv=fsync status=progress"
  | blkdiscard disk => s!"blkdiscard -f {disk}"
  | ddCopy source destination =>
    s!"dd if={source} of={destination} bs=4M conv=fsync status=none"
  | ddRead source offset length formatCommand =>
    s!"dd if={source} bs=4096 skip={offset} count={length} " ++
      s!"iflag=skip_bytes,count_bytes status=none | {formatCommand}"
  | cmp source spare => s!"cmp {source} {spare}"
  | sync => "sync"
  | syncFilesystem path => s!"sync -f {path}"
  | dmsetupRemoveAll => "dmsetup remove_all"
  | cryptsetupStatus name => s!"cryptsetup status {name}"
  | cryptsetupClose name => s!"cryptsetup close {name}"
  | cryptsetupIsLuks device => s!"cryptsetup isLuks {device}"
  | cryptsetupLuksUuid device => s!"cryptsetup luksUUID {device}"
  | cryptsetupTestPassphrase header device =>
    s!"cryptsetup open --test-passphrase {headerOption header}{device}"
  | cryptsetupLuksFormat luks header device =>
    "cryptsetup luksFormat --batch-mode " ++
      s!"--type {luks.type} --cipher {luks.cipher} --key-size {luks.keySize} " ++
      s!"--hash {luks.hash} --pbkdf {luks.pbkdf} --pbkdf-memory {luks.pbkdfMemory} " ++
      s!"--pbkdf-parallel {luks.pbkdfParallel} --iter-time {luks.pbkdfTimeMs} " ++
      s!"{offsetOption header}--key-file - {device}"
  | cryptsetupOpen header device name =>
    s!"cryptsetup open {headerOption header}--key-file - {device} {name}"
  | mkfsBtrfs label device => s!"mkfs.btrfs -f -L \"{label}\" {device}"
  | mkfsVfat device => s!"mkfs.vfat -F32 -n EFI {device}"
  | mkfsExt4 device => s!"mkfs.ext4 -F -m 0 -L RECOVERY {device}"
  | subvolumeList path => s!"btrfs subvolume list {path}"
  | subvolumeCreate root name => s!"btrfs subvolume create {root}/{name}"
  | subvolumeShow path => s!"btrfs subvolume show {path}"
  | subvolumeDelete path => s!"btrfs subvolume delete {path}"
  | disableCompression path => s!"btrfs property set {path} compression none"
  | swapoffAll => "swapoff -a"
  | truncate path => s!"truncate -s 0 {path}"
  | fallocate sizeMb path => s!"fallocate -l {sizeMb}M {path}"
  | ddZero path count => s!"dd if=/dev/zero of={path} bs=1M count={count}"
  | mkswap path => s!"mkswap {path}"
  | swapon path => s!"swapon {path}"
  | mapSwapfile path => s!"btrfs inspect-internal map-swapfile -r {path}"
  | filefrag path => s!"filefrag -v {path}"
  | bsdtarList source members => s!"bsdtar -tf {source} {members}"
  | bsdtarExtract source directory member => s!"bsdtar -xf {source} -C {directory} {member}"
  | bsdtarNewc archive directory members =>
    s!"bsdtar --format newc -cf {archive} -C {directory} {members}"
  | mkdirPrivate path => s!"mkdir -p -m 700 {path}"
  | opensslRequest key certificate days =>
    "openssl req -x509 -newkey ec -pkeyopt ec_paramgen_curve:prime256v1 -nodes " ++
      s!"-keyout {key} -out {certificate} -days {days} -subj '/CN=DALI recovery system' " ++
      "-addext keyUsage=critical,digitalSignature " ++
      "-addext extendedKeyUsage=codeSigning,emailProtection"
  | opensslSign image certificate key =>
    s!"openssl cms -sign -binary -noattr -in {image} -signer {certificate} -inkey {key} " ++
      s!"-outform DER -out {image}.cms.sig"
  | pacmanExplicit => "pacman -Qqe"
  | date => "date -Iseconds"
  | hostname => "hostname"
  | chroot command => s!"arch-chroot /mnt {command.text}"

/-! ## The command runner -/

inductive LogLevel where
  | debug
  | info
  | warning
  deriving DecidableEq

structure LogRecord where
  level : LogLevel
  message : String
  deriving DecidableEq

/-- The exceptions of the installation: those of `errors.py`, and the built-in ones its code can
raise itself. -/
inductive InstallerError where
  | command (command : String) (exitCode : Int) (stdout stderr : String)
  | configuration (message : String)
  | migration (message : String)
  | usbBootDrive (message : String)
  | runtime (message : String)
  | value (message : String)
  | index (message : String)
  deriving DecidableEq

structure CommandExecutionResult where
  exitCode : Int
  stdout : String
  stderr : String
  deriving DecidableEq, Inhabited

def CommandExecutionResult.success (result : CommandExecutionResult) : Bool :=
  result.exitCode == 0

/-- One call of `CommandRunner.run`. -/
structure Invocation where
  command : Command
  raiseOnNonzeroExit : Bool
  inputData : Option String
  deriving DecidableEq

abbrev Script (α : Type) :=
  Program Invocation CommandExecutionResult LogRecord InstallerError α

abbrev Exchanges := List (Invocation × CommandExecutionResult)

namespace Script

def debug (message : String) : Script Unit := .log ⟨.debug, message⟩ (.ret ())

def info (message : String) : Script Unit := .log ⟨.info, message⟩ (.ret ())

def warning (message : String) : Script Unit := .log ⟨.warning, message⟩ (.ret ())

def raise {α : Type} (error : InstallerError) : Script α := Program.raise error

/-- `SystemCommandRunner.run`. Every command of the installation is a text, run by the shell, so
the `FileNotFoundError` of a missing program does not occur: the shell reports it by exit code. -/
def invoke (invocation : Invocation) : Script CommandExecutionResult := do
  -- stdin is never logged: it carries passwords and file contents
  debug s!"$ {invocation.command.text}"
  let result ← Program.request invocation .ret
  Program.onlyIf (result.stdout != "") (debug (rstrip result.stdout))
  Program.onlyIf (result.stderr != "") (debug s!"stderr: {rstrip result.stderr}")
  if invocation.raiseOnNonzeroExit && !result.success then
    raise (.command invocation.command.text result.exitCode result.stdout result.stderr)
  else
    return result

/-- `run(command)`. -/
def run (command : Command) : Script CommandExecutionResult := invoke ⟨command, true, none⟩

/-- `run(command, input_data=...)`. -/
def runWithInput (command : Command) (inputData : String) : Script CommandExecutionResult :=
  invoke ⟨command, true, some inputData⟩

/-- `run(command, raise_on_nonzero_exit=False)`. -/
def tryRun (command : Command) : Script CommandExecutionResult := invoke ⟨command, false, none⟩

/-- `run(command, input_data=..., raise_on_nonzero_exit=False)`. -/
def tryRunWithInput (command : Command) (inputData : String) : Script CommandExecutionResult :=
  invoke ⟨command, false, some inputData⟩

/-- `run_as_chroot(command)`. -/
def runAsChroot (command : ChrootCommand) : Script CommandExecutionResult := run (.chroot command)

/-- `run_as_chroot(command, raise_on_nonzero_exit=False)`. -/
def tryRunAsChroot (command : ChrootCommand) : Script CommandExecutionResult :=
  tryRun (.chroot command)

/-! Calls whose result is not used. -/

def run_ (command : Command) : Script Unit := do let _ ← run command

def tryRun_ (command : Command) : Script Unit := do let _ ← tryRun command

def runAsChroot_ (command : ChrootCommand) : Script Unit := run_ (.chroot command)

def tryRunAsChroot_ (command : ChrootCommand) : Script Unit := tryRun_ (.chroot command)

end Script

end ArchInstaller
