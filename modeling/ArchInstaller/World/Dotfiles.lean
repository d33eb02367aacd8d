import ArchInstaller.Scripts.DotfilesSync
import ArchInstaller.World.FileSystem

/-! # The files and the repositories around `dotfiles-sync.sh`

The files of the user, among them the clone of the dotfiles repository, with the history of its
branch and that of the remote branch. A commit holds the files of the clone, but for those that an
ignore pattern covers and that were not in the commit before. Nothing is said of a path that is
relative or goes through a dot. -/

namespace ArchInstaller.DotfilesSync

open Files Interaction PyText Shell

/-- The path that a word between quotes names. -/
def absolutePlace (word : String) : Option (List String) :=
  if startsWith "/" word && !(split "/" word).contains "." && !(split "/" word).contains ".." then
    some (pathComponents word)
  else none

/-- The files of a commit. -/
abbrev Snapshot := List String → Option String

structure State where
  files : Volume String String
  mayRead : List String → Bool
  mayWrite : List String → Bool
  /-- The history of the branch of the clone, with the newest commit first. -/
  commits : List (Snapshot)
  /-- The history of the remote branch. -/
  remote : List (Snapshot)

def fileAt (t : Tree String String) (path : List String) : Option String :=
  match t path with
  | some (.file content) => some content
  | _ => none

/-- The files of the clone. -/
def workTree (t : Tree String String) (clone : List String) : Snapshot :=
  fun path => if [".git"] <+: path then none else fileAt t (clone ++ path)

/-- The files of the newest commit. -/
def tip (commits : List (Snapshot)) : Snapshot := commits.headD fun _ => none

/-- What `git add -A` puts into the next commit. -/
def added (ignored : List String → Bool) (work head : Snapshot) : Snapshot :=
  fun path => if ignored path && (head path).isNone then none else work path

/-- A `git` command in a directory changes files below it, and the histories when it is the one of
the clone. -/
structure GitEffect (clone : List String) (directory : String) (within : List String)
    (s s' : State) (inClone : Prop) : Prop where
  mayRead : s'.mayRead = s.mayRead
  mayWrite : s'.mayWrite = s.mayWrite
  below : ∀ place, absolutePlace directory = some place →
    OnlyBelow (place ++ within) s.files.tree s'.files.tree
  elsewhere : ∀ place, absolutePlace directory = some place → place ≠ clone →
    s'.commits = s.commits ∧ s'.remote = s.remote
  inClone : absolutePlace directory = some clone → inClone

/-- Directories are made where there was nothing. -/
def MadeAlong (place : List String) (t t' : Tree String String) : Prop :=
  ∀ path, t' path = t path ∨ path <+: place ∧ t path = none ∧ t' path = some .directory

/-- What a command does, and which answers it can get. `diff` also fails on what it cannot read;
`cp` refuses to copy something into or onto itself, or a file to a word that ends in a slash and
names no directory, which `rm -rf` passes over. -/
def Effect (ignored : List String → Bool) (clone : List String) (s : State) (answer : Answer)
    (s' : State) : Command → Prop
  | .test flag word => s' = s ∧ ∀ place, absolutePlace word = some place →
      (answer.success ↔ Finds s.files.tree word place flag)
  | .testReadable word => s' = s ∧ ∀ place, absolutePlace word = some place →
      (answer.success ↔ s.files.tree place ≠ none ∧ s.mayRead place)
  | .testWritable word => s' = s ∧ ∀ place, absolutePlace word = some place →
      (answer.success ↔ s.files.tree place ≠ none ∧ s.mayWrite place)
  | .mkdir word => ∃ files, s' = { s with files } ∧ ∀ place, absolutePlace word = some place →
      MadeAlong place s.files.tree files.tree ∧
        (answer.success → files.tree = s.files.tree.mkdirs place)
  | .diff _ first second => s' = s ∧ ∀ place place', absolutePlace first = some place →
      absolutePlace second = some place' →
        (answer.success → s.files.tree.subtree place = s.files.tree.subtree place') ∧
        (¬ answer.success → s.files.tree.subtree place ≠ s.files.tree.subtree place' ∨
          ∃ rest, ¬ s.mayRead (place ++ rest) ∨ ¬ s.mayRead (place' ++ rest))
  | .rm word => ∃ files, s' = { s with files } ∧ ∀ place, absolutePlace word = some place →
      OnlyBelow place s.files.tree files.tree ∧ (answer.success → files.tree =
        if endsInSlash word ∧ s.files.tree place ≠ some .directory then s.files.tree
        else s.files.tree.remove place)
  | .cp _ source destination => ∃ files, s' = { s with files } ∧ ∀ place target,
      absolutePlace source = some place → absolutePlace destination = some target →
        OnlyBelow (copyTarget s.files.tree place target) s.files.tree files.tree ∧
          (answer.success → ¬ place <+: copyTarget s.files.tree place target ∧
            CopiedTo s.files.tree files.tree place (copyTarget s.files.tree place target) ∧
            (endsInSlash destination → s.files.tree place = some .directory ∨
              s.files.tree target = some .directory))
  | .write word text => ∃ files, s' = { s with files } ∧ ∀ place, absolutePlace word = some place →
      (∀ path, path ≠ place → files.tree path = s.files.tree path) ∧
        (answer.success → files.tree place = some (.file (text ++ "\n")))
  | .gitPull _ directory _ => GitEffect clone directory [] s s' (s'.remote = s.remote ∧
      (s.remote <:+ s.commits → s'.commits = s.commits ∧
        OnlyBelow (clone ++ [".git"]) s.files.tree s'.files.tree))
  | .gitAdd directory => GitEffect clone directory [".git"] s s'
      (s'.commits = s.commits ∧ s'.remote = s.remote)
  | .gitCommit directory _ => GitEffect clone directory [".git"] s s' (s'.remote = s.remote ∧
      let snapshot := added ignored (workTree s.files.tree clone) (tip s.commits)
      if answer.success then snapshot ≠ tip s.commits ∧ s'.commits = snapshot :: s.commits
      else s'.commits = s.commits)
  | .gitPush directory => GitEffect clone directory [".git"] s s' (s'.commits = s.commits ∧
      (s'.remote = s.remote ∨ s.remote <:+ s.commits ∧ s'.remote = s.commits) ∧
        (answer.success → s'.remote = s.commits))
  | .date format => s' = s ∧ (format = "+%s" → ∃ seconds : Nat, answer.output = toString seconds)
  | .cat word => s' = s ∧ (answer.success → ∀ place, absolutePlace word = some place →
      s.files.tree place = some (.file (answer.output ++ "\n")) ∨
        s.files.tree place = some (.file answer.output))
  | .acquireLock | .checkKeepassxc | .testGitConnection _ | .gitRemoteUrl _ | .gitStatus _
  | .printDiff .. => s' = s

def world (ignored : List String → Bool) (clone : List String) :
    Machine Command Answer (State) :=
  fun s command answer s' => Effect ignored clone s answer s' command

/-! ## Words and places -/

/-- A name that a path without dots can have. -/
structure IsName (name : String) : Prop where
  nonempty : name ≠ ""
  noDot : name ≠ "."
  notUp : name ≠ ".."
  noSlash : '/' ∉ name.toList

/-- A path that is put together from names. -/
theorem absolutePlace_join {names : List String} (h : ∀ name ∈ names, IsName name) :
    absolutePlace ("/" ++ join "/" names) = some names := by
  cases names with
  | nil => decide
  | cons name names =>
    have hjoin : "/" ++ join "/" (name :: names) = join "/" ("" :: name :: names) := by
      have hcons : join "/" ("" :: name :: names) = "" ++ "/" ++ join "/" (name :: names) := rfl
      rw [hcons, String.empty_append]
    have hsplit : split "/" (join "/" ("" :: name :: names)) = "" :: name :: names := by
      refine split_join '/' (List.cons_ne_nil _ _) fun part hpart => ?_
      rw [List.mem_cons] at hpart
      rcases hpart with rfl | hpart
      · decide
      · exact (h part hpart).noSlash
    have hstart : startsWith "/" (join "/" ("" :: name :: names)) := by
      rw [← hjoin, startsWith, String.toList_append]
      exact List.isPrefixOf_iff_prefix.mpr (List.prefix_append _ _)
    have hcomponents : pathComponents (join "/" ("" :: name :: names)) = name :: names := by
      rw [pathComponents, hsplit, List.filter_cons_of_neg (by decide), List.filter_eq_self]
      intro part hpart
      simpa using ⟨(h part hpart).nonempty, (h part hpart).noDot⟩
    rw [hjoin, absolutePlace, hsplit, hstart, hcomponents, if_pos]
    simp only [Bool.true_and, Bool.and_eq_true, Bool.not_eq_true', List.contains_eq_mem,
      decide_eq_false_iff_not]
    constructor
    · intro hdot
      rw [List.mem_cons] at hdot
      exact hdot.elim (by decide) fun hdot => (h "." hdot).noDot rfl
    · intro hup
      rw [List.mem_cons] at hup
      exact hup.elim (by decide) fun hup => (h ".." hup).notUp rfl

theorem exists_slashes (cs : List Char) : ∃ n, cs = dropSlashes cs ++ List.replicate n '/' := by
  have hslashes := List.eq_replicate_of_mem (l := cs.rtakeWhile (· == '/')) (a := '/')
    fun c hc => by simpa using List.mem_rtakeWhile_imp hc
  refine ⟨(cs.rtakeWhile (· == '/')).length, ?_⟩
  rw [← hslashes]
  exact List.rdropWhile_append_rtakeWhile.symm

theorem exists_lastName (cs : List Char) :
    ∃ name, dropSlashes cs = beforeName cs ++ name ∧ '/' ∉ name :=
  ⟨(dropSlashes cs).rtakeWhile (· != '/'), List.rdropWhile_append_rtakeWhile.symm, fun hmem => by
    simpa using List.mem_rtakeWhile_imp hmem⟩

/-- Slashes only separate empty parts. -/
theorem splitAux_slashes (n : Nat) (rest : List Char) :
    splitAux ['/'] (List.replicate n '/' ++ rest) 0 [] =
      List.replicate n [] ++ splitAux ['/'] rest 0 [] := by
  induction n with
  | zero => rfl
  | succ n ih =>
    rw [List.replicate_succ, List.replicate_succ, List.cons_append, List.cons_append, ← ih]
    exact splitAux_separator '/' [] (List.replicate n '/' ++ rest) []

theorem splitAux_name {name : List Char} (h : '/' ∉ name) (n : Nat) :
    splitAux ['/'] (name ++ List.replicate n '/') 0 [] = name :: List.replicate n [] := by
  cases n with
  | zero => rw [List.replicate_zero, List.append_nil, splitAux_of_not_mem h]; rfl
  | succ n =>
    have hslashes := splitAux_slashes n []
    have hnil : splitAux ['/'] [] 0 [] = [[]] := rfl
    rw [List.append_nil, hnil, ← List.replicate_succ'] at hslashes
    rw [List.replicate_succ, splitAux_separator, splitAux_of_not_mem h, hslashes]
    rfl

theorem absolutePlace_eq_some {word : String} {place : List String} :
    absolutePlace word = some place ↔ startsWith "/" word ∧ "." ∉ split "/" word ∧
      ".." ∉ split "/" word ∧ pathComponents word = place := by
  rw [absolutePlace]
  split
  · next h => simp_all
  · next h =>
    simp only [reduceCtorEq, false_iff]
    rintro ⟨hstart, hdot, hup, -⟩
    exact h (by simp [hstart, hdot, hup])

/-- Empty parts are no components. -/
theorem filter_replicate_empty (n : Nat) :
    (List.replicate n "").filter (fun part => part != "" && part != ".") = [] := by
  rw [List.filter_eq_nil_iff]
  intro part hpart
  rw [List.eq_of_mem_replicate hpart]
  decide

theorem getLast?_dropSlashes {cs : List Char} : (dropSlashes cs).getLast? ≠ some '/' := by
  intro h
  have hne : cs.rdropWhile (· == '/') ≠ [] := by
    intro heq
    rw [dropSlashes, heq] at h
    cases h
  have hnot := List.rdropWhile_last_not (· == '/') cs hne
  rw [dropSlashes, List.getLast?_eq_some_getLast hne] at h
  exact hnot (by simpa using h)

theorem getLast?_beforeName {cs : List Char} (h : beforeName cs ≠ []) :
    (beforeName cs).getLast? = some '/' := by
  have hlast := List.rdropWhile_last_not (· != '/') (dropSlashes cs) h
  rw [beforeName] at h ⊢
  rw [List.getLast?_eq_some_getLast h]
  simpa using hlast

theorem absolutePlace_dirname {word : String} {place : List String}
    (h : absolutePlace word = some place) : absolutePlace (dirname word) = some place.dropLast := by
  have hslash : "/".toList = ['/'] := rfl
  obtain ⟨hstart, hdot, hup, rfl⟩ := absolutePlace_eq_some.mp h
  obtain ⟨n, hn⟩ := exists_slashes word.toList
  obtain ⟨name, hname, hnot⟩ := exists_lastName word.toList
  obtain ⟨m, hm⟩ := exists_slashes (beforeName word.toList)
  have hword : word.toList = dropSlashes (beforeName word.toList) ++
      (List.replicate m '/' ++ (name ++ List.replicate n '/')) := by
    rw [← List.append_assoc, ← hm, ← List.append_assoc, ← hname]
    exact hn
  rw [dirname]
  by_cases hparent : dropSlashes (beforeName word.toList) = []
  · have hparts : split "/" word = List.replicate m "" ++ String.ofList name :: List.replicate n "" := by
      rw [split, hslash, hword, hparent, List.nil_append, splitAux_slashes, splitAux_name hnot]
      simp
    have hplace : (pathComponents word).dropLast = [] := by
      rw [pathComponents, hparts, List.filter_append, filter_replicate_empty, List.filter_cons,
        filter_replicate_empty]
      split <;> rfl
    rw [hparent, hplace]
    simp only [List.isEmpty_nil, Bool.not_true, Bool.false_eq_true, if_false, hstart, if_true]
    decide
  have hbefore : beforeName word.toList ≠ [] := by
    intro hnil
    rw [hnil] at hparent
    exact hparent rfl
  have hm' : m ≠ 0 := by
    rintro rfl
    rw [List.replicate_zero, List.append_nil] at hm
    have hlast := getLast?_beforeName hbefore
    rw [hm] at hlast
    exact getLast?_dropSlashes hlast
  obtain ⟨k, rfl⟩ := Nat.exists_eq_succ_of_ne_zero hm'
  have hparts : split "/" word = split "/" (String.ofList (dropSlashes (beforeName word.toList))) ++
      (List.replicate k "" ++ String.ofList name :: List.replicate n "") := by
    rw [split, split, hslash, String.toList_ofList]
    conv_lhs => rw [hword]
    rw [List.replicate_succ, List.cons_append, splitAux_separator, splitAux_slashes,
      splitAux_name hnot]
    simp
  have hnonempty : name ≠ [] := by
    rintro rfl
    rw [List.append_nil] at hname
    have hlast := getLast?_beforeName hbefore
    rw [← hname] at hlast
    exact getLast?_dropSlashes hlast
  rw [hparts] at hdot hup
  simp only [List.mem_append, List.mem_cons, not_or] at hdot hup
  have hproper : (String.ofList name != "" && String.ofList name != ".") = true := by
    have hempty : String.ofList name ≠ "" := fun heq => hnonempty (by simpa using heq)
    simp [hempty, Ne.symm hdot.2.2.1]
  have hplace : (pathComponents word).dropLast =
      pathComponents (String.ofList (dropSlashes (beforeName word.toList))) := by
    rw [pathComponents, pathComponents, hparts, List.filter_append, List.filter_append,
      filter_replicate_empty, List.filter_cons, if_pos hproper, filter_replicate_empty,
      List.nil_append, List.dropLast_concat]
  have hstart' : startsWith "/" (String.ofList (dropSlashes (beforeName word.toList))) := by
    rw [startsWith, hword, hslash] at hstart
    rw [startsWith, hslash, String.toList_ofList]
    cases hcs : dropSlashes (beforeName word.toList) with
    | nil => exact absurd hcs hparent
    | cons c cs =>
      rw [hcs] at hstart
      simpa using hstart
  rw [if_pos (by simpa using hparent), hplace]
  exact absolutePlace_eq_some.mpr ⟨hstart', hdot.1, hup.1, rfl⟩

/-- A suffix without a slash goes to the last name of a path, or becomes a name below it. -/
theorem absolutePlace_append {word suffix : String} {place : List String}
    (h : absolutePlace word = some place) (hslash : '/' ∉ suffix.toList)
    (hname : ∃ c ∈ suffix.toList, c ≠ '.') :
    ∃ parent name, absolutePlace (word ++ suffix) = some (parent ++ [name ++ suffix]) ∧
      (parent = place.dropLast ∨ parent = place) := by
  have hseparator : "/".toList = ['/'] := rfl
  obtain ⟨parts, last, hparts, happend⟩ := exists_splitAux_append '/' word.toList []
  have hsplit : split "/" word = parts.map String.ofList ++ [String.ofList last] := by
    rw [split, hseparator, hparts, List.map_append]
    rfl
  have hsplit' : split "/" (word ++ suffix) =
      parts.map String.ofList ++ [String.ofList last ++ suffix] := by
    rw [split, hseparator, String.toList_append, happend _ hslash, List.map_append,
      List.map_singleton, String.ofList_append, String.ofList_toList]
  have hlast : ∀ name : String, (∀ c ∈ name.toList, c = '.') →
      String.ofList last ++ suffix ≠ name := by
    obtain ⟨c, hc, hne⟩ := hname
    rintro _ hdots rfl
    exact hne (hdots c (by simp [hc]))
  have hempty := hlast "" (forall_mem_of_all (by decide))
  have hdot' := hlast "." (forall_mem_of_all (by decide))
  have hup' := hlast ".." (forall_mem_of_all (by decide))
  obtain ⟨hstart, hdot, hup, rfl⟩ := absolutePlace_eq_some.mp h
  have hstart' : startsWith "/" (word ++ suffix) := by
    rw [startsWith, String.toList_append]
    exact List.isPrefixOf_iff_prefix.mpr
      ((List.isPrefixOf_iff_prefix.mp hstart).trans (List.prefix_append _ _))
  rw [hsplit] at hdot hup
  simp only [List.mem_append, List.mem_singleton, not_or] at hdot hup
  refine ⟨(parts.map String.ofList).filter fun component => component != "" && component != ".",
    String.ofList last, absolutePlace_eq_some.mpr ⟨hstart', ?_, ?_, ?_⟩, ?_⟩
  · simpa [hsplit'] using ⟨by simpa using hdot.1, hdot'.symm⟩
  · simpa [hsplit'] using ⟨by simpa using hup.1, hup'.symm⟩
  · rw [pathComponents, hsplit', List.filter_append, List.filter_cons_of_pos ?_, List.filter_nil]
    rw [Bool.and_eq_true, bne_iff_ne, bne_iff_ne]
    exact ⟨hempty, hdot'⟩
  · rw [pathComponents, hsplit, List.filter_append, List.filter_cons, List.filter_nil]
    split
    · exact .inl (List.dropLast_concat).symm
    · exact .inr (List.append_nil _).symm

end ArchInstaller.DotfilesSync
