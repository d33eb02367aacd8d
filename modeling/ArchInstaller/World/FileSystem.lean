import ArchInstaller.Core.Runs
import ArchInstaller.Files.Tree
import ArchInstaller.Python.Paths

/-! # The files of the machine

The tree of all files and directories, and what the commands of the migration do to it: `cp -a`
copies into its destination where that already is a directory, and merges what it meets. Nothing
is said of a command that fails, nor of a word that the shell takes apart or that goes up. -/

namespace ArchInstaller

open Files Interaction PyText

/-- The path that a word of a command names. -/
def wordPlace (word : String) : Option (List String) :=
  if word.toList.all isShellSafe && !(split "/" word).contains "." &&
      !(split "/" word).contains ".." then some (pathComponents word)
  else none

def endsInSlash (word : String) : Bool := word.toList.getLast? == some '/'

variable {κ : Type}

/-- What `test` finds at the place of a word. -/
def Finds (t : Tree String κ) (word : String) (place : List String) : TestFlag → Prop
  | .exists => t place ≠ none ∧ (endsInSlash word → t place = some .directory)
  | .file => (∃ content, t place = some (.file content)) ∧ ¬ endsInSlash word
  | .directory => t place = some .directory

/-- Where `cp -a` puts what is at `source`. -/
def copyTarget (t : Tree String κ) (source destination : List String) : List String :=
  match t destination with
  | some .directory => destination ++ source.getLast?.toList
  | _ => destination

structure CopiedTo (t t' : Tree String κ) (source target : List String) : Prop where
  found : t source ≠ none
  accepted : t.Accepts (t.subtree source) target
  eq : t' = t.graft (t.subtree source) target

/-- A successful `cp -a`; `/.` after the source stands for what is in it. -/
structure Copied (t t' : Tree String κ) (source destination : String) : Prop where
  whole : ∀ place target, wordPlace source = some place → wordPlace destination = some target →
    CopiedTo t t' place (copyTarget t place target)
  contents : ∀ directory place target, source = directory ++ "/." →
    wordPlace directory = some place → wordPlace destination = some target →
      t target = some .directory ∧ CopiedTo t t' place target

/-- What a command does to the files, with the volume `old` on the encrypted partition. -/
def FileEffect (old : Tree String κ) (t : Tree String κ) (ok : Bool) (t' : Tree String κ) :
    Command → Prop
  | .test flag word => t' = t ∧ ∀ place, wordPlace word = some place →
      (ok ↔ Finds t word place flag)
  | .mkdir word => ok → ∀ place, wordPlace word = some place →
      t.CanMake place ∧ t' = t.mkdirs place
  | .cpArchive source destination => ok → Copied t t' source destination
  | .rmRecursive word => ok → ∀ place, wordPlace word = some place → t' = t.remove place
  | .mountTopLevel _ directory => ok → ∀ place, wordPlace directory = some place →
      t' = t.mount old place
  | .umount word | .rmdir word => ∀ place, wordPlace word = some place →
      ∀ path, ¬ place <+: path → t' path = t path
  | _ => t' = t

def fileWorld (old : Tree String κ) : Machine Invocation CommandExecutionResult (Tree String κ) :=
  fun t invocation answer t' => FileEffect old t answer.success t' invocation.command

/-- The commands that leave the files alone. -/
def Command.leavesFiles : Command → Bool
  | mkdir _ | cpArchive .. | rmRecursive _ | mountTopLevel .. | umount _ | rmdir _ => false
  | _ => true

theorem fileWorld_eq {old t t' : Tree String κ} {invocation : Invocation}
    {answer : CommandExecutionResult} (hstep : fileWorld old t invocation answer t')
    (h : invocation.command.leavesFiles) : t' = t := by
  obtain ⟨command, raises, inputData⟩ := invocation
  cases command <;> simp only [Command.leavesFiles, Bool.false_eq_true] at h <;>
    simp only [fileWorld, FileEffect] at hstep
  case test => exact hstep.1
  all_goals exact hstep

/-! ## Words and places -/

/-- Words that are put together with a slash name a path that is put together. -/
theorem wordPlace_slash {first second : String} {place rest : List String}
    (hfirst : wordPlace first = some place) (hsecond : wordPlace second = some rest) :
    wordPlace (first ++ "/" ++ second) = some (place ++ rest) := by
  unfold wordPlace at hfirst hsecond ⊢
  split at hfirst
  · rename_i hgood
    split at hsecond
    · rename_i hgood'
      have hslash : isShellSafe '/' = true := by decide
      rw [if_pos, pathComponents_slash, Option.some.inj hfirst, Option.some.inj hsecond]
      rw [split_slash]
      simp only [String.toList_append, List.all_append, List.contains_append, Bool.and_eq_true,
        Bool.not_eq_true', Bool.or_eq_false_iff] at hgood hgood' ⊢
      refine ⟨⟨⟨⟨hgood.1.1, ?_⟩, hgood'.1.1⟩, hgood.1.2, hgood'.1.2⟩, hgood.2, hgood'.2⟩
      simpa using hslash
    · cases hsecond
  · cases hfirst

theorem wordPlace_slash_eq_none {first second : String} (h : wordPlace second = none) :
    wordPlace (first ++ "/" ++ second) = none := by
  have hsecond : (second.toList.all isShellSafe && !(split "/" second).contains "." &&
      !(split "/" second).contains "..") = false := by
    by_contra hgood
    rw [wordPlace, if_pos (by simpa [and_assoc] using hgood)] at h
    cases h
  rw [wordPlace, if_neg]
  simp only [split_slash, String.toList_append, List.all_append, List.contains_append] at hsecond ⊢
  grind

/-- Leading slashes do not change what a word names. -/
theorem wordPlace_lstripSlash (path : String) : wordPlace (lstripSlash path) = wordPlace path := by
  have hslash : isShellSafe '/' = true := by decide
  have hsafe : (lstripSlash path).toList.all isShellSafe = path.toList.all isShellSafe := by
    rw [lstripSlash, String.toList_ofList]
    induction path.toList with
    | nil => rfl
    | cons c cs ih =>
      by_cases hc : c = '/'
      · rw [List.dropWhile_cons_of_pos (by simpa using hc), ih, hc, List.all_cons, hslash,
          Bool.true_and]
      · rw [List.dropWhile_cons_of_neg (by simpa using hc)]
  have hcontains : ∀ part : String, part ≠ "" →
      (split "/" (lstripSlash path)).contains part = (split "/" path).contains part := by
    intro part hpart
    have hslash : "/".toList = ['/'] := rfl
    simp only [split, lstripSlash, hslash, String.toList_ofList]
    induction path.toList with
    | nil => rfl
    | cons c cs ih =>
      by_cases hc : c = '/'
      · subst hc
        have hcons := splitAux_separator '/' [] cs []
        rw [List.nil_append] at hcons
        rw [List.dropWhile_cons_of_pos (by simp), ih, hcons]
        simp [splitAux, hpart]
      · rw [List.dropWhile_cons_of_neg (by simpa using hc)]
  unfold wordPlace
  rw [hsafe, hcontains "." (by decide), hcontains ".." (by decide), pathComponents_lstripSlash]

theorem wordPlace_eq {word : String} {place : List String} (h : wordPlace word = some place) :
    place = pathComponents word := by
  unfold wordPlace at h
  split at h
  · exact (Option.some.inj h).symm
  · cases h

/-- A name along the path of a word is a word of its own. -/
theorem wordPlace_of_mem {word name : String} {place : List String}
    (h : wordPlace word = some place) (hname : name ∈ place) : wordPlace name = some [name] := by
  have hslash : "/".toList = ['/'] := rfl
  obtain rfl := wordPlace_eq h
  rw [pathComponents, List.mem_filter] at hname
  obtain ⟨hmem, hproper⟩ := hname
  unfold wordPlace at h
  split at h
  · rename_i hgood
    simp only [Bool.and_eq_true, Bool.not_eq_true', List.contains_eq_mem, decide_eq_false_iff_not]
      at hgood
    obtain ⟨⟨hsafe, -⟩, hup⟩ := hgood
    have hup' : name ≠ ".." := fun heq => hup (heq ▸ hmem)
    rw [split, hslash, List.mem_map] at hmem
    obtain ⟨part, hpart, rfl⟩ := hmem
    obtain ⟨hseparator, hchars⟩ := mem_splitAux List.not_mem_nil hpart
    have hsplit : split "/" (String.ofList part) = [String.ofList part] := by
      simp [split, hslash, splitAux_of_not_mem hseparator]
    have hsafe' : part.all isShellSafe = true := by
      rw [List.all_eq_true] at hsafe ⊢
      exact fun c hc => hsafe c (by simpa using hchars c hc)
    simp only [Bool.and_eq_true, bne_iff_ne, ne_eq] at hproper
    rw [wordPlace, pathComponents, hsplit]
    simp [hsafe', hproper, Ne.symm hproper.2, Ne.symm hup']
  · cases h

theorem exists_splitAux_eq (separator : Char) (cs current : List Char) :
    ∃ rest parts, splitAux [separator] cs 0 current = (current.reverse ++ rest) :: parts := by
  induction cs generalizing current with
  | nil => exact ⟨[], [], by simp [splitAux]⟩
  | cons c cs ih =>
    by_cases hc : separator = c
    · exact ⟨[], _, by rw [splitAux, if_pos (by simpa using hc), List.append_nil]⟩
    · obtain ⟨rest, parts, hparts⟩ := ih (c :: current)
      refine ⟨c :: rest, parts, ?_⟩
      rw [splitAux, if_neg (by simpa using hc), hparts]
      simp

/-- A word without names is made of slashes. -/
theorem lstripSlash_eq_empty {word : String} (h : wordPlace word = some (pathComponents word))
    (hnames : pathComponents word = []) : lstripSlash word = "" := by
  have hslash : "/".toList = ['/'] := rfl
  have hplace : wordPlace (lstripSlash word) = some [] := by
    rw [wordPlace_lstripSlash, h, hnames]
  rw [← pathComponents_lstripSlash] at hnames
  cases hchars : (lstripSlash word).toList with
  | nil => exact String.toList_eq_nil_iff.mp hchars
  | cons c cs =>
    have hc : c ≠ '/' := by
      rintro rfl
      rw [lstripSlash, String.toList_ofList] at hchars
      simpa [hchars] using List.head?_dropWhile_not (· == '/') word.toList
    obtain ⟨rest, parts, hparts⟩ := exists_splitAux_eq '/' cs [c]
    have hsplit : split "/" (lstripSlash word) =
        String.ofList (c :: rest) :: parts.map String.ofList := by
      rw [split, hslash, hchars, splitAux, if_neg (by simpa using hc.symm), hparts]
      rfl
    have hdot : String.ofList (c :: rest) = "." := by
      rw [pathComponents, hsplit, List.filter_eq_nil_iff] at hnames
      have hfirst := hnames _ List.mem_cons_self
      simpa using hfirst
    rw [wordPlace, hsplit, hdot] at hplace
    simp at hplace

/-- A path that is put together from such names. -/
theorem wordPlace_join {names : List String}
    (h : ∀ name ∈ names, wordPlace name = some [name]) :
    wordPlace ("/" ++ join "/" names) = some names := by
  have hempty : wordPlace "" = some [] := by decide
  have hjoin : wordPlace (join "/" names) = some names := by
    induction names with
    | nil => exact hempty
    | cons name names ih =>
      rw [List.forall_mem_cons] at h
      cases names with
      | nil => exact h.1
      | cons name' names => exact wordPlace_slash h.1 (ih h.2)
  have hslash : wordPlace ("" ++ "/" ++ join "/" names) = some ([] ++ names) :=
    wordPlace_slash hempty hjoin
  rwa [String.empty_append, List.nil_append] at hslash

/-- The contents of a directory are no word of their own. -/
theorem wordPlace_contents (directory : String) : wordPlace (directory ++ "/.") = none := by
  have hword : directory ++ "/." = directory ++ "/" ++ "." := by
    rw [String.append_assoc]
    rfl
  have hdot : (split "/" (directory ++ "/" ++ ".")).contains "." = true := by
    rw [split_slash]
    simp only [List.contains_append, Bool.or_eq_true]
    right
    decide
  rw [hword, wordPlace, hdot]
  simp

end ArchInstaller
