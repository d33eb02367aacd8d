import ArchInstaller.Core.Runs
import ArchInstaller.Executors.Boot
import ArchInstaller.World.Disk

/-! # Keys, certificates and what they get into

What the files of the machine hold as far as signing keys go, and what the commands of the recovery
step do to them. Keys are told apart by numbers; a certificate and a signature have the number of
their key. A command that fails may leave what was there, nothing, an unfinished file, or what it
was to make. `rm` is taken to succeed. -/

namespace ArchInstaller

open Interaction PyText

/-- What a file holds. A signature is one of the file it is named after. -/
inductive Content where
  | key (id : Nat)
  | certificate (id : Nat)
  | signature (id : Nat)
  | archive (members : List (String × Content))
  | uki (initrds : List Content)
  | other

namespace Content

/-- The private key lies in what the file holds. -/
inductive Holds : Content → Nat → Prop
  | key {id : Nat} : Holds (.key id) id
  | archive {id : Nat} : (name, content) ∈ members → Holds content id → Holds (.archive members) id
  | uki {id : Nat} : initrd ∈ initrds → Holds initrd id → Holds (.uki initrds) id

@[simp] theorem holds_key_iff {id id' : Nat} : (key id).Holds id' ↔ id' = id := by
  constructor
  · rintro ⟨⟩
    rfl
  · rintro rfl
    exact .key

@[simp] theorem not_holds_certificate {id id' : Nat} : ¬ (certificate id).Holds id' := nofun

@[simp] theorem not_holds_signature {id id' : Nat} : ¬ (signature id).Holds id' := nofun

@[simp] theorem not_holds_other {id : Nat} : ¬ other.Holds id := nofun

end Content

structure SigningState where
  /-- What is at a path now. -/
  file : String → Option Content
  /-- What a mount hides at a path; while nothing is mounted, what the other file system has. -/
  covered : String → Option Content
  /-- The keys made so far have the numbers below. -/
  made : Nat
  known : ∀ path content id, file path = some content ∨ covered path = some content →
    content.Holds id → id < made

namespace SigningState

variable (s : SigningState)

/-- Mount or unmount a file system at the directory. -/
def swap (directory : String) : SigningState where
  file path := if atOrBelow directory path then s.covered path else s.file path
  covered path := if atOrBelow directory path then s.file path else s.covered path
  made := s.made
  known path content id h := by
    refine s.known path content id ?_
    grind

def remove (gone : String → Bool) : SigningState where
  file path := if gone path then none else s.file path
  covered := s.covered
  made := s.made
  known path content id h := by
    refine s.known path content id ?_
    grind

/-- The signature of a file by this key is there, or hidden by a mount. -/
def Signed (image : String) (id : Nat) : Prop :=
  s.file s!"{image}.cms.sig" = some (.signature id) ∨
    s.covered s!"{image}.cms.sig" = some (.signature id)

end SigningState

/-- What may be at a path afterwards, where a command was to make what `Done` says. -/
def Leaves (ok : Bool) (before : Option Content) (Done : Content → Prop) (after : Option Content) :
    Prop :=
  if ok then ∃ content, after = some content ∧ Done content
  else after = before ∨ after = none ∨ after = some .other ∨
    ∃ content, after = some content ∧ Done content

/-- A command that makes one file. -/
structure Makes (s : SigningState) (ok : Bool) (s' : SigningState) (path : String)
    (Done : Content → Prop) : Prop where
  file : Leaves ok (s.file path) Done (s'.file path)
  others : ∀ path', path' ≠ path → s'.file path' = s.file path'
  covered : s'.covered = s.covered
  made : s'.made = s.made

/-- The file that `cp` makes; without a slash at its end the destination is no directory. -/
def copiedFile (source destination : String) : String :=
  if destination.toList.getLast? == some '/' then destination ++ afterLastSlash source
  else destination

/-- The members are files of the directory, under their names. -/
def Packed (s : SigningState) (directory : String) (members : List (String × Content)) : Prop :=
  ∀ x ∈ members, s.file s!"{directory}/{x.1}" = some x.2

/-- A new key and its certificate. -/
structure NewKey (s : SigningState) (ok : Bool) (s' : SigningState) (key certificate : String) :
    Prop where
  keyFile : Leaves ok (s.file key) (· = .key s.made) (s'.file key)
  certificateFile : Leaves ok (s.file certificate) (· = .certificate s.made) (s'.file certificate)
  others : ∀ path, path ≠ key → path ≠ certificate → s'.file path = s.file path
  covered : s'.covered = s.covered
  made : s.made ≤ s'.made

/-- What a command does to the files. -/
def SigningEffect (s : SigningState) (ok : Bool) (s' : SigningState) : Command → Prop
  | .blkidUuid _ | .cat _ | .test .. | .mkdir _ | .mkdirPrivate _ => s' = s
  | .mountExt4 _ directory | .umount directory => s' = if ok then s.swap directory else s
  | .rmForce path => ok ∧ s' = s.remove (· == path)
  | .rmRecursive path => ok ∧ s' = s.remove (atOrBelow path)
  | .cp source destination =>
    Makes s ok s' (copiedFile source destination) (s.file source = some ·)
  | .writeFile path => Makes s ok s' path (· = .other)
  | .bsdtarNewc archive directory members => Makes s ok s' archive fun content =>
      ∃ packed, content = .archive packed ∧ Packed s directory packed ∧
        (ok → packed.map (·.1) = split " " members) ∧ ∀ x ∈ packed, x.1 ∈ split " " members
  | .opensslRequest key certificate _ => NewKey s ok s' key certificate
  | .opensslSign image certificate key =>
    -- openssl refuses a certificate that is not the key's
    Makes s ok s' s!"{image}.cms.sig" fun content => ∃ id, content = .signature id ∧
      s.file key = some (.key id) ∧ s.file certificate = some (.certificate id)
  | .chroot (.ukify _ initrds _ output) => Makes s ok s' s!"{targetRoot}{output}" fun content =>
      ∃ images, content = .uki images ∧
        initrds.map (fun initrd => s.file s!"{targetRoot}{initrd}") = images.map some
  | .chroot (.sbctlSign path) =>
    if ok then s' = s else Makes s ok s' s!"{targetRoot}{path}" (· = .other)
  | _ => True

def signingWorld : Machine Invocation CommandExecutionResult SigningState :=
  fun s invocation answer s' => SigningEffect s answer.success s' invocation.command

/-- The paths at which a command may change what is there. -/
def Command.mayChange : Command → String → Bool
  | blkidUuid _, _ | cat _, _ | test .., _ | mkdir _, _ | mkdirPrivate _, _ => false
  | mountExt4 _ directory, path | umount directory, path => atOrBelow directory path
  | rmForce file, path | writeFile file, path => path == file
  | rmRecursive directory, path => atOrBelow directory path
  | cp source destination, path => path == copiedFile source destination
  | bsdtarNewc archive _ _, path => path == archive
  | opensslRequest key certificate _, path => path == key || path == certificate
  | opensslSign image _ _, path => path == s!"{image}.cms.sig"
  | chroot (.ukify _ _ _ output), path => path == s!"{targetRoot}{output}"
  | chroot (.sbctlSign file), path => path == s!"{targetRoot}{file}"
  | _, _ => true

theorem file_eq_of_mayChange {s s' : SigningState} {ok : Bool} {command : Command} {path : String}
    (hstep : SigningEffect s ok s' command) (h : command.mayChange path = false) :
    s'.file path = s.file path := by
  cases command with
  | blkidUuid | cat | test | mkdir | mkdirPrivate => rw [show s' = s from hstep]
  | mountExt4 _ directory | umount directory =>
    have hmount : s' = if ok then s.swap directory else s := hstep
    have hpath : atOrBelow directory path = false := h
    rw [hmount]
    cases ok <;> simp [SigningState.swap, hpath]
  | rmForce | rmRecursive =>
    rw [hstep.2]
    exact if_neg (by simpa [Command.mayChange] using h)
  | cp | writeFile | bsdtarNewc | opensslSign =>
    refine Makes.others hstep path ?_
    simpa [Command.mayChange] using h
  | opensslRequest =>
    simp only [Command.mayChange, Bool.or_eq_false_iff, beq_eq_false_iff_ne] at h
    exact NewKey.others hstep path h.1 h.2
  | chroot command =>
    cases command with
    | ukify =>
      refine Makes.others hstep path ?_
      simpa [Command.mayChange] using h
    | sbctlSign =>
      cases ok with
      | true => rw [show s' = s from hstep]
      | false =>
        refine Makes.others hstep path ?_
        simpa [Command.mayChange] using h
    | _ => simp [Command.mayChange] at h
  | _ => simp [Command.mayChange] at h

theorem covered_eq_of_mayChange {s s' : SigningState} {ok : Bool} {command : Command}
    {path : String} (hstep : SigningEffect s ok s' command)
    (h : command.mayChange path = false) : s'.covered path = s.covered path := by
  cases command with
  | blkidUuid | cat | test | mkdir | mkdirPrivate => rw [show s' = s from hstep]
  | mountExt4 _ directory | umount directory =>
    have hmount : s' = if ok then s.swap directory else s := hstep
    have hpath : atOrBelow directory path = false := h
    rw [hmount]
    cases ok <;> simp [SigningState.swap, hpath]
  | rmForce | rmRecursive => rw [hstep.2, SigningState.remove]
  | cp | writeFile | bsdtarNewc | opensslSign => rw [Makes.covered hstep]
  | opensslRequest => rw [NewKey.covered hstep]
  | chroot command =>
    cases command with
    | ukify => rw [Makes.covered hstep]
    | sbctlSign =>
      cases ok with
      | true => rw [show s' = s from hstep]
      | false => rw [Makes.covered hstep]
    | _ => simp [Command.mayChange] at h
  | _ => simp [Command.mayChange] at h

end ArchInstaller
