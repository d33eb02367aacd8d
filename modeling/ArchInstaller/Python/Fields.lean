import ArchInstaller.Python.Digits

/-! # The words of a line

What `str.split()` finds in a line that is put together from words and blanks. -/

namespace PyText

/-- A text without white space. -/
def IsWord (word : List Char) : Prop := ∀ c ∈ word, isSpace c = false

instance {word : List Char} : Decidable (IsWord word) := List.decidableBAll _ _

theorem isWord_append {word word' : List Char} (h : IsWord word) (h' : IsWord word') :
    IsWord (word ++ word') := by
  intro c hc
  exact (List.mem_append.mp hc).elim (h c) (h' c)

theorem isWord_digits (n : Nat) : IsWord (toString n).toList := by
  intro c hc
  exact isSpace_of_isDigit (isDigit_of_mem_toString hc)

theorem fieldsAux_blanks (blanks : Nat) (cs : List Char) :
    fieldsAux (List.replicate blanks ' ' ++ cs) [] = fieldsAux cs [] := by
  induction blanks with
  | zero => rfl
  | succ blanks ih => exact ih

/-- A word goes on to the next white space. -/
theorem fieldsAux_word {word : List Char} (hword : IsWord word) {blank : Char}
    (hblank : isSpace blank = true) (cs current : List Char) (hne : current.reverse ++ word ≠ []) :
    fieldsAux (word ++ blank :: cs) current = (current.reverse ++ word) :: fieldsAux cs [] := by
  induction word generalizing current with
  | nil =>
    rw [List.append_nil] at hne ⊢
    have hcurrent : current.isEmpty = false := by simpa using hne
    rw [List.nil_append, fieldsAux, if_pos hblank, hcurrent]
    rfl
  | cons c word ih =>
    obtain ⟨hc, hrest⟩ := List.forall_mem_cons.mp hword
    rw [List.cons_append, fieldsAux, hc, if_neg Bool.false_ne_true,
      ih hrest (c :: current) (by simp), List.reverse_cons, List.append_assoc, List.singleton_append]

theorem fieldsAux_last {word : List Char} (hword : IsWord word) (current : List Char)
    (hne : current.reverse ++ word ≠ []) : fieldsAux word current = [current.reverse ++ word] := by
  induction word generalizing current with
  | nil =>
    rw [List.append_nil] at hne ⊢
    have hcurrent : current.isEmpty = false := by simpa using hne
    rw [fieldsAux, hcurrent]
    rfl
  | cons c word ih =>
    obtain ⟨hc, hrest⟩ := List.forall_mem_cons.mp hword
    rw [fieldsAux, hc, if_neg Bool.false_ne_true, ih hrest (c :: current) (by simp),
      List.reverse_cons, List.append_assoc, List.singleton_append]

theorem fields_separated {word blank : String} (hword : IsWord word.toList) (hne : word ≠ "") {c : Char}
    (hblank : blank.toList = [c]) (hc : isSpace c = true) (rest : String) :
    fields (word ++ blank ++ rest) = word :: fields rest := by
  have hchars : (word ++ blank ++ rest).toList = word.toList ++ c :: rest.toList := by
    simp only [String.toList_append, hblank, List.append_assoc, List.singleton_append]
  rw [fields, hchars, fieldsAux_word hword hc _ _ (by simpa using hne), List.reverse_nil,
    List.nil_append, List.map_cons, String.ofList_toList, fields]

theorem fields_cons {word : String} (hword : IsWord word.toList) (hne : word ≠ "") (rest : String) :
    fields (word ++ " " ++ rest) = word :: fields rest :=
  fields_separated hword hne rfl (by decide) rest

theorem fields_singleton {word : String} (hword : IsWord word.toList) (hne : word ≠ "") :
    fields word = [word] := by
  rw [fields, fieldsAux_last hword _ (by simpa using hne), List.reverse_nil, List.nil_append,
    List.map_singleton, String.ofList_toList]

theorem isInfixOf_append (before needle after : List Char) :
    isInfixOf needle (before ++ (needle ++ after)) := by
  induction before with
  | nil =>
    cases needle with
    | nil => cases after <;> simp [isInfixOf]
    | cons c needle =>
      rw [List.nil_append, List.cons_append, isInfixOf, Bool.or_eq_true, ← List.cons_append]
      exact .inl (List.isPrefixOf_iff_prefix.mpr (List.prefix_append _ _))
  | cons c before ih =>
    rw [List.cons_append, isInfixOf, Bool.or_eq_true]
    exact .inr ih

theorem mem_of_isInfixOf {needle cs : List Char} (h : isInfixOf needle cs) {c : Char}
    (hc : c ∈ needle) : c ∈ cs := by
  induction cs with
  | nil =>
    rw [isInfixOf, List.isEmpty_iff] at h
    rw [h] at hc
    cases hc
  | cons d cs ih =>
    rw [isInfixOf, Bool.or_eq_true] at h
    rcases h with hstart | hlater
    · exact (List.isPrefixOf_iff_prefix.mp hstart).subset hc
    · exact List.mem_cons_of_mem d (ih hlater)

/-- A text that starts with something else than a blank does so still once it is stripped. -/
theorem head_strip {blanks : Nat} {c : Char} {cs : List Char} (hc : isSpace c = false) {s : String}
    (hs : s.toList = List.replicate blanks ' ' ++ c :: cs) : (strip s).toList.head? = some c := by
  have hdrop : s.toList.dropWhile isSpace = c :: cs := by
    rw [hs, List.dropWhile_append_of_pos (by simp; intros; decide)]
    simp [hc]
  have hkept : ∃ kept, (cs.reverse ++ [c]).dropWhile isSpace = kept ++ [c] := by
    rw [List.dropWhile_append]
    split
    · exact ⟨[], by simp [hc]⟩
    · exact ⟨_, rfl⟩
  obtain ⟨kept, hkept⟩ := hkept
  rw [strip, String.toList_ofList, hdrop, rstripChars, List.reverse_cons, hkept]
  simp

theorem not_startsWith_of_head {start s : String} {c d : Char} (hs : s.toList.head? = some c)
    (hstart : start.toList.head? = some d) (hne : c ≠ d) : startsWith start s = false := by
  rw [startsWith, Bool.eq_false_iff, ne_eq, List.isPrefixOf_iff_prefix]
  rintro ⟨rest, hrest⟩
  rw [← hrest, List.head?_append, hstart] at hs
  exact hne (Option.some.inj hs).symm

end PyText
