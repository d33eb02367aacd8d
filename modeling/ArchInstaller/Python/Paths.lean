import ArchInstaller.Python.Text

/-! # Paths by their components

`pathComponents` of texts that are put together with slashes. -/

namespace PyText

attribute [local simp] split splitAux in
theorem splitAux_ne_nil {separator cs current : List Char} {skip : Nat} :
    splitAux separator cs skip current ≠ [] := by
  induction cs generalizing skip current with
  | nil => simp [splitAux]
  | cons c cs ih =>
    cases skip with
    | zero =>
      rw [splitAux]
      split
      · exact List.cons_ne_nil _ _
      · exact ih
    | succ skip => exact ih

theorem split_ne_nil {separator s : String} : split separator s ≠ [] := by
  simp [split, splitAux_ne_nil]

/-- A separator of one character starts a new part. -/
theorem splitAux_separator (separator : Char) (first second current : List Char) :
    splitAux [separator] (first ++ separator :: second) 0 current =
      splitAux [separator] first 0 current ++ splitAux [separator] second 0 [] := by
  induction first generalizing current with
  | nil => simp [splitAux]
  | cons c first ih =>
    rw [List.cons_append, splitAux, splitAux]
    by_cases hc : separator = c
    · rw [if_pos (by simpa using hc), if_pos (by simpa using hc), List.cons_append]
      exact congrArg _ (ih [])
    · rw [if_neg (by simpa using hc), if_neg (by simpa using hc)]
      exact ih (c :: current)

theorem splitAux_of_not_mem {separator : Char} {cs current : List Char} (h : separator ∉ cs) :
    splitAux [separator] cs 0 current = [current.reverse ++ cs] := by
  induction cs generalizing current with
  | nil => simp [splitAux]
  | cons c cs ih =>
    rw [List.mem_cons, not_or] at h
    rw [splitAux, if_neg (by simpa using h.1), ih h.2]
    simp

/-- What is written behind a text without a separator goes to its last part. -/
theorem exists_splitAux_append (separator : Char) (cs current : List Char) :
    ∃ parts last, splitAux [separator] cs 0 current = parts ++ [last] ∧
      ∀ rest, separator ∉ rest →
        splitAux [separator] (cs ++ rest) 0 current = parts ++ [last ++ rest] := by
  induction cs generalizing current with
  | nil =>
    refine ⟨[], current.reverse, by simp [splitAux], fun rest hrest => ?_⟩
    rw [List.nil_append, splitAux_of_not_mem hrest, List.nil_append]
  | cons c cs ih =>
    by_cases hc : separator = c
    · obtain ⟨parts, last, hparts, happend⟩ := ih []
      refine ⟨current.reverse :: parts, last, ?_, fun rest hrest => ?_⟩
      · rw [splitAux, if_pos (by simpa using hc)]
        exact congrArg _ hparts
      · rw [List.cons_append, splitAux, if_pos (by simpa using hc)]
        exact congrArg _ (happend rest hrest)
    · obtain ⟨parts, last, hparts, happend⟩ := ih (c :: current)
      refine ⟨parts, last, ?_, fun rest hrest => ?_⟩
      · rw [splitAux, if_neg (by simpa using hc), hparts]
      · rw [List.cons_append, splitAux, if_neg (by simpa using hc), happend rest hrest]

/-- The parts with separators between them are the text. -/
theorem intercalate_splitAux (separator : Char) (cs current : List Char) :
    [separator].intercalate (splitAux [separator] cs 0 current) = current.reverse ++ cs := by
  induction cs generalizing current with
  | nil => simp [splitAux]
  | cons c cs ih =>
    rw [splitAux]
    by_cases hc : separator = c
    · rw [if_pos (by simpa using hc), List.intercalate_cons_of_ne_nil splitAux_ne_nil]
      have hrest : [separator].intercalate (splitAux [separator] cs ([separator].length - 1) []) = cs :=
        ih []
      rw [hrest, ← hc, List.append_assoc, List.singleton_append]
    · rw [if_neg (by simpa using hc), ih]
      simp

theorem split_injective {separator : String} {c : Char} (hseparator : separator.toList = [c]) :
    Function.Injective (split separator) := by
  intro s s' h
  have hparts : splitAux [c] s.toList 0 [] = splitAux [c] s'.toList 0 [] := by
    rw [split, split, hseparator] at h
    exact List.map_injective_iff.mpr (fun _ _ => String.ofList_injective) h
  have hchars := congrArg [c].intercalate hparts
  rw [intercalate_splitAux, intercalate_splitAux] at hchars
  exact String.toList_injective hchars

/-- A part has the characters between two separators. -/
theorem mem_splitAux {separator : Char} {cs current part : List Char}
    (hcurrent : separator ∉ current) (h : part ∈ splitAux [separator] cs 0 current) :
    separator ∉ part ∧ ∀ c ∈ part, c ∈ current ∨ c ∈ cs := by
  induction cs generalizing current with
  | nil =>
    obtain rfl : part = current.reverse := by simpa [splitAux] using h
    exact ⟨by simpa using hcurrent, fun c hc => .inl (by simpa using hc)⟩
  | cons c cs ih =>
    rw [splitAux] at h
    by_cases hc : separator = c
    · rw [if_pos (by simpa using hc), List.mem_cons] at h
      rcases h with rfl | h
      · exact ⟨by simpa using hcurrent, fun c hc => .inl (by simpa using hc)⟩
      · obtain ⟨hpart, hmem⟩ := ih List.not_mem_nil h
        refine ⟨hpart, fun d hd => .inr (List.mem_cons_of_mem c ?_)⟩
        simpa using hmem d hd
    · rw [if_neg (by simpa using hc)] at h
      obtain ⟨hpart, hmem⟩ := ih (by simp [hc, hcurrent]) h
      refine ⟨hpart, fun d hd => ?_⟩
      have hd' := hmem d hd
      grind

/-- Parts without the separator are found again. -/
theorem split_join (separator : Char) {parts : List String} (hparts : parts ≠ [])
    (h : ∀ part ∈ parts, separator ∉ part.toList) :
    split (String.singleton separator) (join (String.singleton separator) parts) = parts := by
  have hseparator : (String.singleton separator).toList = [separator] :=
    String.toList_singleton separator
  induction parts with
  | nil => exact absurd rfl hparts
  | cons part parts ih =>
    rw [List.forall_mem_cons] at h
    cases parts with
    | nil => simp [join, split, hseparator, splitAux_of_not_mem h.1]
    | cons part' parts =>
      rw [join, split, String.toList_append, String.toList_append, hseparator, List.append_assoc,
        List.singleton_append, splitAux_separator, splitAux_of_not_mem h.1, List.map_append]
      · have hrest := ih (List.cons_ne_nil _ _) h.2
        rw [split, hseparator] at hrest
        rw [hrest]
        simp
      · simp

/-- What is put together with a separator is split apart there. -/
theorem split_append (separator : Char) (first second : String) :
    split (String.singleton separator) (first ++ String.singleton separator ++ second) =
      split (String.singleton separator) first ++ split (String.singleton separator) second := by
  have hseparator : (String.singleton separator).toList = [separator] :=
    String.toList_singleton separator
  simp only [split, String.toList_append, hseparator, List.append_assoc, List.singleton_append,
    splitAux_separator, List.map_append]

theorem split_slash (first second : String) :
    split "/" (first ++ "/" ++ second) = split "/" first ++ split "/" second :=
  split_append '/' first second

theorem pathComponents_slash (first second : String) :
    pathComponents (first ++ "/" ++ second) = pathComponents first ++ pathComponents second := by
  have hslash : "/".toList = ['/'] := rfl
  simp only [pathComponents, split, String.toList_append, hslash, List.append_assoc,
    List.singleton_append, splitAux_separator, List.map_append, List.filter_append]

/-- Leading slashes name no component. -/
theorem pathComponents_lstripSlash (path : String) :
    pathComponents (lstripSlash path) = pathComponents path := by
  have hslash : "/".toList = ['/'] := rfl
  simp only [pathComponents, split, lstripSlash, hslash, String.toList_ofList]
  induction path.toList with
  | nil => rfl
  | cons c cs ih =>
    by_cases hc : c = '/'
    · subst hc
      have hcons := splitAux_separator '/' [] cs []
      rw [List.nil_append] at hcons
      rw [List.dropWhile_cons_of_pos (by simp), ih, hcons]
      simp [splitAux]
    · rw [List.dropWhile_cons_of_neg (by simpa using hc)]

/-- The path that is left below a directory. -/
def below : List String → List String → Option (List String)
  | [], path => some path
  | _ :: _, [] => none
  | name :: names, name' :: path => if name = name' then below names path else none

@[simp] theorem below_append (directory path : List String) :
    below directory (directory ++ path) = some path := by
  induction directory with
  | nil => rfl
  | cons name directory ih => simpa [below] using ih

theorem eq_append_of_below {directory path rest : List String} (h : below directory path = some rest) :
    path = directory ++ rest := by
  induction directory generalizing path with
  | nil => simpa [below] using h
  | cons name directory ih =>
    cases path with
    | nil => simp [below] at h
    | cons name' path =>
      rw [below] at h
      split at h
      · rename_i hname
        rw [hname, ih h, List.cons_append]
      · cases h

/-- A word that the shell takes as it stands, and that goes up nowhere. -/
def isPlainWord (word : String) : Bool :=
  word.toList.all isShellSafe && !(pathComponents word).contains ".."

theorem isPlainWord_slash {first second : String} :
    isPlainWord (first ++ "/" ++ second) = (isPlainWord first && isPlainWord second) := by
  have hslash : isShellSafe '/' = true := by decide
  simp only [isPlainWord, pathComponents_slash, String.toList_append, List.all_append,
    List.contains_append, Bool.not_or]
  grind

end PyText
