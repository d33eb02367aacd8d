import ArchInstaller.Scripts.LineEditing

/-! # `build_snapshot_cmdline` of `manage_snapshot_entries.sh`

The kernel command line of a snapshot is made from that of the system by editing its text. -/

namespace ArchInstaller.SnapshotEntries

open PyText LineEditing

/-- What the script finds on the system. -/
structure CmdlineSources where
  /-- The text of the first `/etc/kernel/cmdline-*-default`, or of the first `cmdline*`. -/
  generated : Option String
  /-- The text of `/etc/kernel/cmdline`. -/
  configured : Option String
  /-- The text of `/proc/cmdline`. -/
  running : Option String
  luksUuid : Option String

/-- `s/initrd=[^ ]*//g`; the flag says if a value is being left out. -/
def removeInitrd : Bool → Nat → List Char → List Char
  | _, _, [] => []
  | inValue, skip + 1, _ :: cs => removeInitrd inValue skip cs
  | inValue, 0, c :: cs =>
    if inValue && c != ' ' then removeInitrd true 0 cs
    else if "initrd=".toList.isPrefixOf (c :: cs) then removeInitrd true 6 cs
    else c :: removeInitrd false 0 cs

def baseCmdline (sources : CmdlineSources) : String :=
  match sources.generated, sources.configured, sources.running with
  | some text, _, _ => text
  | none, some text, _ => text
  | none, none, some text =>
    String.ofList (squeeze (eachLine (removeInitrd false 0) text).toList)
  | none, none, none =>
    match sources.luksUuid with
    | some uuid => s!"rd.luks.name={uuid}=cryptroot root=/dev/mapper/cryptroot rw quiet"
    | none => "rw quiet"

/-- `grep -q "rd.luks"`, where a dot is any character of a line. -/
def hasLuks : List Char → Bool
  | 'r' :: 'd' :: c :: 'l' :: 'u' :: 'k' :: 's' :: cs =>
    c != '\n' || hasLuks ('d' :: c :: 'l' :: 'u' :: 'k' :: 's' :: cs)
  | _ :: cs => hasLuks cs
  | [] => false

def withLuks (luksUuid : Option String) (base : String) : String :=
  if hasLuks base.toList then base
  else
    match luksUuid with
    | some uuid => s!"rd.luks.name={uuid}=cryptroot root=/dev/mapper/cryptroot {base}"
    | none => base

/-- `rootflags=`. -/
def rootflagsText : List Char := ['r', 'o', 'o', 't', 'f', 'l', 'a', 'g', 's', '=']

/-- `subvol=`. -/
def subvolText : List Char := ['s', 'u', 'b', 'v', 'o', 'l', '=']

/-- A text around the last `subvol=` in it. -/
def lastSubvol : List Char → Option (List Char × List Char)
  | [] => none
  | c :: cs =>
    match lastSubvol cs with
    | some (before, after) => some (c :: before, after)
    | none => if subvolText.isPrefixOf (c :: cs) then some ([], (c :: cs).drop 7) else none

/-- `s|rootflags=([^[:space:]]*)?subvol=[^,[:space:]]*|rootflags=\1subvol=…|` where it matches: the
first `rootflags=` that `subvol=` follows in its word, and the longest match, to the last of them. -/
def replaceSubvol (subvolume : List Char) : List Char → Option (List Char)
  | [] => none
  | c :: cs =>
    let later := (replaceSubvol subvolume cs).map (c :: ·)
    if rootflagsText.isPrefixOf (c :: cs) then
      let rest := (c :: cs).drop 10
      match lastSubvol (rest.takeWhile (!isBlank ·)) with
      | some (before, after) =>
        some (rootflagsText ++ before ++ subvolText ++ subvolume ++ after.dropWhile (· != ',') ++
          rest.dropWhile (!isBlank ·))
      | none => later
    else later

/-- `grep -q "rootflags="` and what follows. -/
def withSubvolume (subvolume base : String) : String :=
  if rootflagsText <:+: base.toList then
    eachLine (fun line => (replaceSubvol subvolume.toList line).getD line) base
  else base ++ " rootflags=subvol=" ++ subvolume

/-- `s/\brw\b//g; s/\bro\b//g` and `tr -s ' '`. -/
def withoutMode (base : String) : String :=
  String.ofList (squeeze
    (eachLine (fun line => removeWord 'r' 'o' false (removeWord 'r' 'w' false line)) base).toList)

def buildSnapshotCmdline (sources : CmdlineSources) (subvolume mode : String) : String :=
  let base := withLuks sources.luksUuid (baseCmdline sources)
  let base := withoutMode (withSubvolume subvolume base)
  if mode == "ro" then base ++ " ro" else base ++ " rw"

/-- The subvolume that an entry of a snapshot boots. -/
def snapshotSubvolume (number : Nat) : String := s!"@snapshots/{number}/snapshot"

end ArchInstaller.SnapshotEntries
