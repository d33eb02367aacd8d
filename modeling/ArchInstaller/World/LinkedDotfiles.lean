import ArchInstaller.Files.Links
import ArchInstaller.World.Dotfiles

/-! # `dotfiles-sync.sh` among symbolic links

The files of a machine with their symbolic links, for every spelling of a path: relative to the
directory that the script was started in, and through `.`, `..` and links. A copy writes through a
link that stands where it puts a file; `rm -rf` takes the link itself. What a command may change is
said from above; what it does where it goes well is said as far as the files that it was given. -/

namespace ArchInstaller.DotfilesSync

open Files Interaction PyText Shell

abbrev LinkedFiles := Volume String (Entry String String)

/-- `MAXSYMLINKS` of the kernel. -/
def maxLinks : Nat := 40

def partStep (part : String) : Option (Step String) :=
  if part == "" || part == "." then none
  else if part == ".." then some .up
  else some (.name part)

/-- The components of a path. -/
def wordSteps (word : String) : List (Step String) := (split "/" word).filterMap partStep

section Words

variable (workingDirectory : List String) (t : LinkedTree String String) (word : String)

/-- Where a path starts. -/
def wordStart : List String := if startsWith "/" word then [] else workingDirectory

/-- The way of a path, along all links. -/
def wordWalk : Walk String := t.resolve maxLinks (wordStart workingDirectory word) (wordSteps word)

def wordFound : Option (Node (Entry String String)) :=
  t.found maxLinks (wordStart workingDirectory word) (wordSteps word)

/-- The place that a path names, be it that of a link. -/
def wordEntry : Option (List String) :=
  match (wordSteps word).getLast? with
  | some (.name name) =>
    (t.resolve maxLinks (wordStart workingDirectory word) (wordSteps word).dropLast).place.map
      (· ++ [name])
  | _ => none

/-- What `test` finds. -/
def Looks (flag : TestFlag) : Prop :=
  word ≠ "" ∧ (wordWalk workingDirectory t word).sound ∧
    ∃ place, (wordWalk workingDirectory t word).place = some place ∧ Finds t word place flag

/-- Directories can be made on the way of a path. -/
def Makes (path : List String) : Prop :=
  path ∈ (wordWalk workingDirectory t word).visited ∧ t path = none

/-- What goes when a path is removed. -/
def Removes (path : List String) : Prop :=
  ∃ place, wordEntry workingDirectory t word = some place ∧ place <+: path

/-- What copying to a path may change. -/
inductive Overwrites : List String → Prop
  | reached {place path : List String} (h : (wordWalk workingDirectory t word).place = some place)
    (hbelow : place <+: path) : Overwrites path
  /-- A link below it leads there. -/
  | linked {place rest path : List String}
    (h : (wordWalk workingDirectory t word).place = some place)
    (hlink : (t.resolve maxLinks [] ((place ++ rest).map .name)).place = some path) :
    Overwrites path

end Words

def fileText (node : Option (Node (Entry String String))) : Option String :=
  match node with
  | some (.file (.content text)) => some text
  | _ => none

/-- What a command does, and which answers it can get. -/
def LinkedEffect (workingDirectory : List String) (s : LinkedFiles) (answer : Answer)
    (s' : LinkedFiles) : Command → Prop
  | .test flag word => s' = s ∧ (answer.success ↔ Looks workingDirectory s.tree word flag)
  | .mkdir word =>
    (∀ path, s'.tree path = s.tree path ∨
      Makes workingDirectory s.tree word path ∧ s'.tree path = some .directory) ∧
    (answer.success → ∀ place, (wordWalk workingDirectory s.tree word).place = some place →
      s'.tree place = some .directory)
  | .diff _ first second => s' = s ∧ ∀ text text',
      fileText (wordFound workingDirectory s.tree first) = some text →
        fileText (wordFound workingDirectory s.tree second) = some text' →
          answer.success → text = text'
  | .rm word =>
    (∀ path, ¬ Removes workingDirectory s.tree word path → s'.tree path = s.tree path) ∧
    (answer.success → ¬ endsInSlash word → ∀ place, wordEntry workingDirectory s.tree word = some place →
      s'.tree place = none)
  | .cp recursive source destination =>
    (∀ path, ¬ Overwrites workingDirectory s.tree destination path → s'.tree path = s.tree path) ∧
    (answer.success → ∀ text place,
      fileText (if recursive then (wordEntry workingDirectory s.tree source).bind s.tree
        else wordFound workingDirectory s.tree source) = some text →
      (wordWalk workingDirectory s.tree destination).place = some place →
      s.tree place ≠ some .directory → fileText (s'.tree place) = some text)
  | .write word text =>
    (∀ path, ¬ Overwrites workingDirectory s.tree word path → s'.tree path = s.tree path) ∧
    (answer.success → ∀ place, (wordWalk workingDirectory s.tree word).place = some place →
      fileText (s'.tree place) = some (text ++ "\n"))
  | .gitPull _ directory _ | .gitAdd directory | .gitCommit directory _ | .gitPush directory =>
    match (wordWalk workingDirectory s.tree directory).place with
    | none => s' = s
    | some place => OnlyBelow place s.tree s'.tree ∧ s'.tree place = s.tree place
  | .date format => s' = s ∧ (format = "+%s" → ∃ seconds : Nat, answer.output = toString seconds)
  | .testReadable _ | .testWritable _ | .printDiff .. | .cat _ | .acquireLock | .checkKeepassxc
  | .testGitConnection _ | .gitRemoteUrl _ | .gitStatus _ => s' = s

def linkedWorld (workingDirectory : List String) : Machine Command Answer LinkedFiles :=
  fun s command answer s' => LinkedEffect workingDirectory s answer s' command

/-! ## Paths without dots -/

variable {workingDirectory place : List String} {t : LinkedTree String String} {word : String}

theorem wordSteps_of_absolutePlace (h : absolutePlace word = some place) :
    (∀ workingDirectory, wordStart workingDirectory word = []) ∧
      wordSteps word = place.map .name := by
  obtain ⟨hstart, -, hup, rfl⟩ := absolutePlace_eq_some.mp h
  refine ⟨fun _ => if_pos hstart, ?_⟩
  rw [wordSteps, pathComponents]
  generalize split "/" word = parts at hup
  induction parts with
  | nil => rfl
  | cons part parts ih =>
    rw [List.mem_cons, not_or] at hup
    have hnext := ih hup.2
    by_cases hempty : (part == "" || part == ".") = true
    · have hfilter : (part != "" && part != ".") = false := by
        simpa [or_iff_not_imp_left] using hempty
      have hnone : partStep part = none := if_pos hempty
      rw [List.filterMap_cons_none hnone, hnext, List.filter_cons, hfilter]
      rfl
    · have hfilter : (part != "" && part != ".") = true := by simpa using hempty
      have hname : partStep part = some (.name part) := by
        rw [partStep, if_neg hempty, if_neg (by simpa using Ne.symm hup.1)]
      rw [List.filterMap_cons_some hname, hnext, List.filter_cons, hfilter]
      rfl

/-- Where no links stand on its way, such a path leads where it says. -/
theorem wordWalk_of_absolutePlace (h : absolutePlace word = some place)
    (hlinks : ∀ way, way <+: place → ∀ absolute steps,
      t way ≠ some (.file (.link absolute steps))) :
    (wordWalk workingDirectory t word).place = some place ∧
      (∀ path ∈ (wordWalk workingDirectory t word).visited, path <+: place) ∧
      wordFound workingDirectory t word = t place := by
  obtain ⟨hstart, hsteps⟩ := wordSteps_of_absolutePlace h
  rw [wordWalk, wordFound, Tree.found, hstart, hsteps]
  obtain ⟨hplace, hvisited⟩ := @Tree.resolve_names String String t [] maxLinks place hlinks
  rw [hplace]
  exact ⟨rfl, fun path hpath => (hvisited path hpath).2, rfl⟩

end ArchInstaller.DotfilesSync
