import ArchInstaller.Python.Fields

/-! # The lines of a text

`str.splitlines()` takes apart what was put together of lines, and what it finds in a text whose only
line separator is the newline are the lines of that text. -/

namespace PyText

/-- A text without a line boundary. -/
def IsLine (line : List Char) : Prop := ∀ c ∈ line, isLineBreak c = false

instance {line : List Char} : Decidable (IsLine line) := List.decidableBAll _ _

/-- The only line separator of a text is the newline. -/
def NewlineOnly (text : List Char) : Prop := ∀ c ∈ text, isLineBreak c = true → c = '\n'

instance {text : List Char} : Decidable (NewlineOnly text) := List.decidableBAll _ _

/-- Every line boundary is white space. -/
theorem isLineBreak_of_isSpace {c : Char} (h : isSpace c = false) : isLineBreak c = false := by
  simp only [isSpace, Bool.or_eq_false_iff, Bool.and_eq_false_iff, decide_eq_false_iff_not,
    beq_eq_false_iff_ne] at h
  simp only [isLineBreak, Bool.or_eq_false_iff, Bool.and_eq_false_iff, decide_eq_false_iff_not,
    beq_eq_false_iff_ne]
  omega

theorem isLine_nil : IsLine [] := fun _ hc => nomatch hc

theorem isLine_append {line line' : List Char} (h : IsLine line) (h' : IsLine line') :
    IsLine (line ++ line') := by
  intro c hc
  exact (List.mem_append.mp hc).elim (h c) (h' c)

theorem IsWord.isLine {word : List Char} (h : IsWord word) : IsLine word :=
  fun c hc => isLineBreak_of_isSpace (h c hc)

theorem splitlinesAux_line {line : List Char} (hline : IsLine line) (cs current : List Char) :
    splitlinesAux (line ++ '\n' :: cs) false current =
      (current.reverse ++ line) :: splitlinesAux cs false [] := by
  induction line generalizing current with
  | nil =>
    rw [List.nil_append, List.append_nil, splitlinesAux, Bool.false_and, if_neg Bool.false_ne_true,
      if_pos (by decide)]
    rfl
  | cons c line ih =>
    obtain ⟨hc, hrest⟩ := List.forall_mem_cons.mp hline
    rw [List.cons_append, splitlinesAux, Bool.false_and, if_neg Bool.false_ne_true, hc,
      if_neg Bool.false_ne_true, ih hrest, List.reverse_cons, List.append_assoc,
      List.singleton_append]

theorem isLine_of_mem_splitlinesAux {cs current : List Char} {afterReturn : Bool}
    (hcurrent : IsLine current) : ∀ line ∈ splitlinesAux cs afterReturn current, IsLine line := by
  have hreverse {current : List Char} (h : IsLine current) : IsLine current.reverse :=
    fun c hc => h c (List.mem_reverse.mp hc)
  induction cs generalizing current afterReturn with
  | nil =>
    intro line hline
    rw [splitlinesAux] at hline
    split at hline
    · cases hline
    · rw [List.mem_singleton.mp hline]
      exact hreverse hcurrent
  | cons c cs ih =>
    intro line hline
    rw [splitlinesAux] at hline
    split at hline
    · exact ih hcurrent line hline
    · split at hline
      · rcases List.mem_cons.mp hline with rfl | hline
        · exact hreverse hcurrent
        · exact ih isLine_nil line hline
      · next hbreak =>
        have hc : IsLine (c :: current) :=
          List.forall_mem_cons.mpr ⟨Bool.eq_false_iff.mpr hbreak, hcurrent⟩
        exact ih hc line hline

/-- What a text lacks at its end to be a sequence of lines, each with its newline. -/
def missingNewline (text : List Char) : List Char :=
  if text.getLast?.all (· == '\n') then [] else ['\n']

theorem missingNewline_append_newline (cs cs' : List Char) :
    missingNewline (cs ++ '\n' :: cs') = missingNewline cs' := by
  cases cs' with
  | nil => simp [missingNewline]
  | cons c cs' => simp [missingNewline, List.getLast?_append, List.getLast?_cons]

theorem flatten_splitlinesAux {cs : List Char} (hcs : NewlineOnly cs) {current : List Char}
    (hcurrent : IsLine current) :
    ((splitlinesAux cs false current).map (· ++ ['\n'])).flatten =
      current.reverse ++ cs ++ missingNewline (current.reverse ++ cs) := by
  induction cs generalizing current with
  | nil =>
    rw [splitlinesAux]
    cases current with
    | nil => rfl
    | cons c current =>
      have hne : c ≠ '\n' := by
        rintro rfl
        exact absurd (hcurrent '\n' List.mem_cons_self) (by decide)
      simp [missingNewline, hne]
  | cons c cs ih =>
    obtain ⟨hc, hrest⟩ := List.forall_mem_cons.mp hcs
    rw [splitlinesAux, Bool.false_and, if_neg Bool.false_ne_true]
    split
    · next hbreak =>
      rw [hc hbreak, List.map_cons, List.flatten_cons, missingNewline_append_newline]
      simpa using ih hrest isLine_nil
    · next hbreak =>
      have hline : IsLine (c :: current) :=
        List.forall_mem_cons.mpr ⟨Bool.eq_false_iff.mpr hbreak, hcurrent⟩
      simpa using ih hrest hline

theorem isLine_of_mem_splitlines {text line : String} (h : line ∈ splitlines text) :
    IsLine line.toList := by
  obtain ⟨chars, hchars, rfl⟩ := List.mem_map.mp h
  rw [String.toList_ofList]
  exact isLine_of_mem_splitlinesAux isLine_nil chars hchars

theorem toList_unlines (lines : List String) :
    (unlines lines).toList = (lines.map fun line => line.toList ++ ['\n']).flatten := by
  induction lines with
  | nil => rfl
  | cons line lines ih =>
    rw [unlines, String.toList_append, String.toList_append, ih]
    rfl

/-- The lines of a file are those that were written. -/
theorem splitlines_unlines {lines : List String} (h : ∀ line ∈ lines, IsLine line.toList) :
    splitlines (unlines lines) = lines := by
  induction lines with
  | nil => rfl
  | cons line lines ih =>
    obtain ⟨hline, hlines⟩ := List.forall_mem_cons.mp h
    have hchars : (unlines (line :: lines)).toList = line.toList ++ '\n' :: (unlines lines).toList := by
      rw [unlines, String.toList_append, String.toList_append, List.append_assoc]
      rfl
    rw [splitlines, hchars, splitlinesAux_line hline, List.map_cons, List.reverse_nil,
      List.nil_append, String.ofList_toList]
    exact congrArg (line :: ·) (ih hlines)

/-- A text whose only line separator is the newline is its lines, each with a newline; that of the
last one may be missing. -/
theorem unlines_splitlines {text : String} (h : NewlineOnly text.toList) :
    (unlines (splitlines text)).toList = text.toList ++ missingNewline text.toList := by
  have hmap : (fun line : String => line.toList ++ ['\n']) ∘ String.ofList = (· ++ ['\n']) := by
    funext line
    rw [Function.comp_apply, String.toList_ofList]
  rw [toList_unlines, splitlines, List.map_map, hmap, flatten_splitlinesAux h isLine_nil]
  rfl

/-- The lines joined by newlines, with one behind the last. -/
theorem join_newline (lines : List String) (last : String) :
    join "\n" (lines ++ [last]) ++ "\n" = unlines (lines ++ [last]) := by
  induction lines with
  | nil =>
    rw [List.nil_append, unlines, unlines, String.append_empty]
    rfl
  | cons line lines ih =>
    rw [List.cons_append, unlines, ← ih]
    cases lines <;> simp [join, String.append_assoc]

end PyText
