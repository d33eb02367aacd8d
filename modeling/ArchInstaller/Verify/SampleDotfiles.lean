import ArchInstaller.Verify.DotfilesPush
import ArchInstaller.World.DotfileWords

/-! # A user with one dotfile

The places of the default mappings for one home directory. -/

namespace ArchInstaller.DotfilesSync

open Files Interaction PyText Shell

/-- A user with one dotfile. -/
def oneDotfile : Environment := ⟨"/home/user", "/home/user/.dotfiles-repo", none, true⟩

def oneClone : List String := ["home", "user", ".dotfiles-repo"]

/-- A file of the user, and one in the clone. -/
def userFiles (copy own : String) : Volume String String :=
  ((Volume.along String (oneClone ++ ["zsh"])).withFile (oneClone ++ ["zsh"]) ".zshrc" copy
    (by decide) (by decide)).withFile ["home", "user"] ".zshrc" own
      (by simp [Volume.withFile, Volume.along, oneClone])
      (by simp [Volume.withFile, Volume.along, oneClone])

/-- The places of a mapping in characters are apart from what the user has. -/
def strayPlaces (mapping : List Char) : Bool :=
  let clone := oneClone.map String.toList
  match charPlace (sourceChars oneDotfile.home.toList mapping),
    charPlace (targetChars (repository oneDotfile).toList mapping) with
  | some source, some target =>
    !clone.isPrefixOf source && !source.isPrefixOf clone &&
      source != ["home".toList, "user".toList, ".zshrc".toList] &&
      clone.isPrefixOf target && !target.isPrefixOf (clone ++ [".version".toList]) &&
      !target.isPrefixOf (clone ++ ["zsh".toList, ".zshrc".toList])
  | _, _ => false

theorem strayPlaces_default : (fileMappings oneDotfile).tail.all (strayPlaces ·.toList) := by
  have hhome : "/home/user".toList = ['/', 'h', 'o', 'm', 'e', '/', 'u', 's', 'e', 'r'] := rfl
  simp only [fileMappings, defaultFileMappings, List.tail_cons, List.append_nil, List.all_cons,
    List.all_nil, String.toList_append, oneDotfile, hhome]
  repeat rw [String.toList_ofList]
  decide

/-- Where a mapping leads that has nothing to do with what the user has. -/
structure Stray (source target : List String) : Prop where
  notBelow : ¬ oneClone <+: source
  notAbove : ¬ source <+: oneClone
  notFile : source ≠ ["home", "user", ".zshrc"]
  notVersion : ¬ target <+: [".version"]
  notCopy : ¬ target <+: ["zsh", ".zshrc"]

theorem exists_stray {mapping : String} (h : mapping ∈ (fileMappings oneDotfile).tail) :
    ∃ source target, absolutePlace (expandedSourcePath oneDotfile mapping) = some source ∧
      absolutePlace (repositoryFile oneDotfile mapping) = some (oneClone ++ target) ∧
        Stray source target := by
  have hofList : ∀ names : List String, (names.map String.toList).map String.ofList = names := by
    simp [List.map_map, Function.comp_def]
  have hpre : ∀ (names : List String) (parts : List (List Char)),
      (names.map String.toList).isPrefixOf parts = true ↔ names <+: parts.map String.ofList := by
    intro names parts
    rw [List.isPrefixOf_iff_prefix, ← List.prefix_map_iff_of_injective ofList_injective, hofList]
  have hpre' : ∀ (names : List String) (parts : List (List Char)),
      parts.isPrefixOf (names.map String.toList) = true ↔ parts.map String.ofList <+: names := by
    intro names parts
    rw [List.isPrefixOf_iff_prefix, ← List.prefix_map_iff_of_injective ofList_injective, hofList]
  have hstray := List.all_eq_true.mp strayPlaces_default mapping h
  unfold strayPlaces at hstray
  rw [expandedSourcePath_eq, repositoryFile_eq, absolutePlace_ofList, absolutePlace_ofList]
  split at hstray
  · next source target hsource htarget =>
    simp only [Bool.and_eq_true, Bool.not_eq_true', bne_iff_ne] at hstray
    obtain ⟨⟨⟨⟨⟨hbelow, habove⟩, hfile⟩, hclone⟩, hversion⟩, hcopy⟩ := hstray
    obtain ⟨rest, hrest⟩ := (hpre oneClone target).mp hclone
    rw [← Bool.not_eq_true] at hversion hcopy
    have hversion' := (hpre' (oneClone ++ [".version"]) target).not.mp hversion
    have hcopy' := (hpre' (oneClone ++ ["zsh", ".zshrc"]) target).not.mp hcopy
    rw [← hrest, List.prefix_append_right_inj] at hversion' hcopy'
    refine ⟨source.map String.ofList, rest, by rw [hsource, Option.map_some],
      by rw [htarget, Option.map_some, hrest], (hpre oneClone source).not.mp (by simp [hbelow]),
      (hpre' oneClone source).not.mp (by simp [habove]), fun heq => hfile ?_, hversion', hcopy'⟩
    have hmap := congrArg (List.map String.toList) heq
    simpa [List.map_map, Function.comp_def] using hmap
  · cases hstray

variable {source target : List String} {copy own : String}

theorem userFiles_tree (path : List String) : (userFiles copy own).tree path =
    if path = ["home", "user", ".zshrc"] then some (.file own)
    else if path = oneClone ++ ["zsh", ".zshrc"] then some (.file copy)
    else if path <+: oneClone ++ ["zsh"] then some .directory else none := rfl

theorem Stray.source_absent (h : Stray source target) :
    (userFiles copy own).tree source = none := by
  have hcopy : source ≠ oneClone ++ ["zsh", ".zshrc"] := by
    rintro rfl
    exact h.notBelow (by decide)
  have halong : ¬ source <+: oneClone ++ ["zsh"] := fun hpre =>
    (List.prefix_or_prefix_of_prefix hpre (List.prefix_append _ _)).elim h.notAbove h.notBelow
  rw [userFiles_tree, if_neg h.notFile, if_neg hcopy, if_neg halong]

theorem Stray.target_absent (h : Stray source target) :
    (userFiles copy own).tree (oneClone ++ target) = none := by
  have hfile : oneClone ++ target ≠ ["home", "user", ".zshrc"] := by simp [oneClone]
  have hcopy : oneClone ++ target ≠ oneClone ++ ["zsh", ".zshrc"] := fun heq =>
    h.notCopy ((List.append_cancel_left heq) ▸ List.prefix_refl _)
  have halong : ¬ oneClone ++ target <+: oneClone ++ ["zsh"] := by
    rw [List.prefix_append_right_inj]
    exact fun hpre => h.notCopy (hpre.trans (by decide))
  rw [userFiles_tree, if_neg hfile, if_neg hcopy, if_neg halong]

end ArchInstaller.DotfilesSync
