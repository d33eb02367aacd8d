import ArchInstaller.World.Dotfiles

/-! # Mappings on characters

The places of mappings, found on lists of characters. -/

namespace ArchInstaller.DotfilesSync

open PyText

/-- `absolutePlace` on characters. -/
def charPlace (cs : List Char) : Option (List (List Char)) :=
  let parts := splitAux ['/'] cs 0 []
  if ['/'].isPrefixOf cs && !parts.contains ['.'] && !parts.contains ['.', '.'] then
    some (parts.filter fun part => part != [] && part != ['.'])
  else none

theorem ofList_injective : Function.Injective String.ofList := fun _ _ => String.ofList_injective

theorem contains_map_ofList (parts : List (List Char)) (part : List Char) :
    (parts.map String.ofList).contains (String.ofList part) = parts.contains part := by
  rw [Bool.eq_iff_iff]
  simp only [List.contains_eq_mem, decide_eq_true_eq]
  exact List.mem_map_of_injective ofList_injective

theorem absolutePlace_ofList (cs : List Char) :
    absolutePlace (String.ofList cs) = (charPlace cs).map (List.map String.ofList) := by
  have hslash : "/".toList = ['/'] := rfl
  have hdot : "." = String.ofList ['.'] := rfl
  have hup : ".." = String.ofList ['.', '.'] := rfl
  have hempty : "" = String.ofList [] := rfl
  have hfilter : ((fun component => component != String.ofList [] &&
      component != String.ofList ['.']) ∘ String.ofList) =
        fun part => part != [] && part != ['.'] := by
    funext part
    rw [Function.comp_apply, Bool.eq_iff_iff]
    simp only [Bool.and_eq_true, bne_iff_ne, ne_eq, ofList_injective.eq_iff]
  simp only [absolutePlace, startsWith, pathComponents, split, String.toList_ofList, hslash,
    charPlace]
  rw [hdot, hup, hempty, contains_map_ofList, contains_map_ofList, List.filter_map, hfilter]
  split
  · rfl
  · rfl

def sourceChars (home mapping : List Char) : List Char :=
  let source := mapping.takeWhile (· != ':')
  if ['~'].isPrefixOf source then home ++ source.drop 1 else source

def targetChars (repository mapping : List Char) : List Char :=
  repository ++ '/' :: if mapping.contains ':' then (mapping.dropWhile (· != ':')).drop 1
    else mapping

theorem expandedSourcePath_eq (env : Environment) (mapping : String) :
    expandedSourcePath env mapping =
      String.ofList (sourceChars env.home.toList mapping.toList) := by
  have htilde : "~".toList = ['~'] := rfl
  rw [expandedSourcePath, expandHome, sourcePath, sourceChars]
  simp only [startsWith, removePrefix, String.toList_ofList, htilde]
  split
  · rw [String.ofList_append, String.ofList_toList]
    rfl
  · rfl

theorem repositoryFile_eq (env : Environment) (mapping : String) :
    repositoryFile env mapping =
      String.ofList (targetChars (repository env).toList mapping.toList) := by
  have hcons : ∀ rest : List Char, String.ofList ('/' :: rest) = "/" ++ String.ofList rest :=
    fun rest => (String.ofList_append : String.ofList (['/'] ++ rest) = _)
  rw [repositoryFile, destinationPath, targetChars, String.ofList_append, String.ofList_toList,
    String.append_assoc, hcons]
  split
  · rfl
  · rw [String.ofList_toList]

end ArchInstaller.DotfilesSync
