import Mathlib.Data.List.Infix
import ArchInstaller.Python.Paths

/-! # What `sed` and `tr` do to lines

Words are runs of ASCII letters, digits and underscores, as `\b` delimits them. -/

namespace ArchInstaller.LineEditing

open PyText

def isWordChar (c : Char) : Bool := c.isAlphanum || c == '_'

/-- `[[:space:]]`. -/
def isBlank (c : Char) : Bool := [' ', '\t', '\n', '\x0b', '\x0c', '\r'].contains c

/-- `s/\bab\b//g` for a word of two characters; the flag says if a character of a word is before the
place. -/
def removeWord (a b : Char) : Bool → List Char → List Char
  | isInWord, c :: d :: cs =>
    if !isInWord && c == a && d == b && !cs.head?.any isWordChar then removeWord a b true cs
    else c :: removeWord a b (isWordChar c) (d :: cs)
  | _, cs => cs

/-- `tr -s ' '`. -/
def squeeze : List Char → List Char
  | [] => []
  | c :: cs => if c == ' ' && cs.head? == some ' ' then squeeze cs else c :: squeeze cs

/-- An edit of every line of a text. -/
def eachLine (edit : List Char → List Char) (text : String) : String :=
  join "\n" ((split "\n" text).map fun line => String.ofList (edit line.toList))

/-- The texts between the blanks of a line. -/
def parameters (line : List Char) : List (List Char) :=
  (splitAux [' '] line 0 []).filter (· ≠ [])

theorem eachLine_of_not_mem {edit : List Char → List Char} {text : String}
    (h : '\n' ∉ text.toList) : eachLine edit text = String.ofList (edit text.toList) := by
  have hsplit : split "\n" text = [text] := split_join '\n' (List.cons_ne_nil text [])
    (List.forall_mem_singleton.mpr h)
  rw [eachLine, hsplit]
  rfl

/-! ## Parts between separators -/

/-- Parts without a separator are found again. -/
theorem splitAux_intercalate {c : Char} {parts : List (List Char)} (hne : parts ≠ [])
    (h : ∀ part ∈ parts, c ∉ part) : splitAux [c] ([c].intercalate parts) 0 [] = parts := by
  obtain ⟨part, parts, rfl⟩ := List.exists_cons_of_ne_nil hne
  clear hne
  induction parts generalizing part with
  | nil =>
    rw [List.intercalate_singleton, splitAux_of_not_mem (h part (.head []))]
    rfl
  | cons part' parts ih =>
    rw [List.forall_mem_cons] at h
    rw [List.intercalate_cons_cons, List.append_assoc, List.singleton_append, splitAux_separator,
      splitAux_of_not_mem h.1, ih part' h.2]
    rfl

section Separator

variable {text : List Char} {c : Char} (hc : c ∉ text)

include hc

/-- A text without a separator that starts a line starts what is before one. -/
theorem prefix_append_cons_iff {cs ds : List Char} : text <+: cs ++ c :: ds ↔ text <+: cs := by
  constructor
  · intro hpre
    rcases List.prefix_or_prefix_of_prefix hpre (List.prefix_append _ _) with hshort | ⟨more, rfl⟩
    · exact hshort
    · cases more with
      | nil => rw [List.append_nil]
      | cons d more =>
        rw [List.prefix_append_right_inj, List.cons_prefix_cons] at hpre
        exact absurd (by simp [hpre.1]) hc
  · exact fun hpre => hpre.trans (List.prefix_append _ _)

theorem infix_append_cons_iff (hne : text ≠ []) {cs ds : List Char} :
    text <:+: cs ++ c :: ds ↔ text <:+: cs ∨ text <:+: ds := by
  induction cs with
  | nil =>
    have hno : ¬text <+: c :: ds := by
      have hiff : text <+: [] ++ c :: ds ↔ text <+: [] := prefix_append_cons_iff hc
      rw [List.nil_append, List.prefix_nil] at hiff
      exact fun h => hne (hiff.mp h)
    rw [List.nil_append, List.infix_cons_iff, List.infix_nil, or_iff_right hno, or_iff_right hne]
  | cons d cs ih =>
    have hiff : text <+: d :: cs ++ c :: ds ↔ text <+: d :: cs := prefix_append_cons_iff hc
    rw [List.cons_append] at hiff
    rw [List.cons_append, List.infix_cons_iff, hiff, ih, List.infix_cons_iff, or_assoc]

theorem infix_intercalate_iff (hne : text ≠ []) {parts : List (List Char)} :
    text <:+: [c].intercalate parts ↔ ∃ part ∈ parts, text <:+: part := by
  cases parts with
  | nil => simp [hne]
  | cons part parts =>
    induction parts generalizing part with
    | nil => simp
    | cons part' parts ih =>
      rw [List.intercalate_cons_cons, List.append_assoc, List.singleton_append,
        infix_append_cons_iff hc hne, ih]
      simp only [List.mem_cons, exists_eq_or_imp]

end Separator

/-! ## Words -/

/-- A text of characters of words, with none of them before or after it. -/
def HasWord (word line : List Char) : Prop :=
  ∃ before after, line = before ++ word ++ after ∧
    (∀ c ∈ before.getLast?, isWordChar c = false) ∧ ∀ c ∈ after.head?, isWordChar c = false

theorem removeWord_cons {a b c : Char} {isInWord : Bool} {cs : List Char}
    (h : isInWord ∨ c ≠ a ∨ cs.head? ≠ some b ∨ (cs.drop 1).head?.any isWordChar) :
    removeWord a b isInWord (c :: cs) = c :: removeWord a b (isWordChar c) cs := by
  cases cs with
  | nil => rfl
  | cons d cs =>
    rw [removeWord, if_neg]
    simp only [List.head?_cons, List.drop_succ_cons, List.drop_zero, ne_eq, Option.some.injEq] at h
    simp only [Bool.and_eq_true, Bool.not_eq_true', beq_iff_eq]
    rintro ⟨⟨⟨hin, hc⟩, hd⟩, hafter⟩
    rcases h with h | h | h | h
    · rw [h] at hin
      cases hin
    · exact h hc
    · exact h hd
    · rw [h] at hafter
      cases hafter

theorem removeWord_sublist (a b : Char) (isInWord : Bool) (line : List Char) :
    (removeWord a b isInWord line).Sublist line := by
  fun_induction removeWord a b isInWord line with
  | case1 isInWord c d cs h ih => exact (ih.cons d).cons c
  | case2 isInWord c d cs h ih => exact ih.cons_cons c
  | case3 => exact List.Sublist.refl _

/-- What is left of a line without the word is the line, for a line behind a character of a word or
another one. -/
theorem removeWord_eq_iff (a b : Char) (isInWord : Bool) (line : List Char) :
    removeWord a b isInWord line = line ↔ ¬∃ before after, line = before ++ [a, b] ++ after ∧
      (before = [] → isInWord = false) ∧ (∀ c ∈ before.getLast?, isWordChar c = false) ∧
        ∀ c ∈ after.head?, isWordChar c = false := by
  fun_induction removeWord a b isInWord line with
  | case1 isInWord c d cs h =>
    simp only [Bool.and_eq_true, Bool.not_eq_true', beq_iff_eq] at h
    obtain ⟨⟨⟨hin, rfl⟩, rfl⟩, hafter⟩ := h
    refine iff_of_false (fun heq => ?_) (not_not.mpr ⟨[], cs, rfl, fun _ => hin, by simp, ?_⟩)
    · have hlength := (removeWord_sublist c d true cs).length_le
      rw [heq, List.length_cons, List.length_cons] at hlength
      omega
    · intro x hx
      cases hword : isWordChar x with
      | false => rfl
      | true =>
        rw [Option.mem_def.mp hx, Option.any_some, hword] at hafter
        cases hafter
  | case2 isInWord c d cs h ih =>
    rw [List.cons.injEq, and_iff_right rfl, ih, not_iff_not]
    constructor
    · rintro ⟨before, after, heq, hin, hbefore, hafter⟩
      refine ⟨c :: before, after, by rw [heq]; rfl, fun h => (List.cons_ne_nil _ _ h).elim, ?_, hafter⟩
      cases before with
      | nil => simpa using hin
      | cons x before => rwa [List.getLast?_cons_cons]
    · rintro ⟨before, after, heq, hin, hbefore, hafter⟩
      cases before with
      | nil =>
        obtain ⟨rfl, rfl, rfl⟩ : c = a ∧ d = b ∧ cs = after := by simpa using heq
        have hany : cs.head?.any isWordChar = false := by
          cases cs with
          | nil => rfl
          | cons x cs => exact hafter x rfl
        rw [hin rfl, hany] at h
        simp at h
      | cons x before =>
        obtain ⟨rfl, heq'⟩ : c = x ∧ d :: cs = before ++ [a, b] ++ after := by simpa using heq
        refine ⟨before, after, heq', ?_, ?_, hafter⟩
        · rintro rfl
          exact hbefore c rfl
        · cases before with
          | nil => simp
          | cons y before => rwa [List.getLast?_cons_cons] at hbefore
  | case3 isInWord line hshort =>
    refine iff_of_true rfl ?_
    rintro ⟨before, after, rfl, -⟩
    cases before with
    | nil => exact hshort a b after rfl
    | cons x before =>
      cases before with
      | nil => exact hshort x a (b :: after) rfl
      | cons y before => exact hshort x y (before ++ [a, b] ++ after) rfl

/-- What is left of a line without the word is the line. -/
theorem removeWord_eq_self_iff {a b : Char} {line : List Char} :
    removeWord a b false line = line ↔ ¬HasWord [a, b] line := by
  simp only [removeWord_eq_iff, HasWord, implies_true, true_and]

/-- A text that is one word is left, if it is not the word. -/
theorem removeWord_of_word {a b : Char} {line : List Char} (h : line.all isWordChar)
    (hne : line ≠ [a, b]) : removeWord a b false line = line := by
  rw [removeWord_eq_self_iff]
  rintro ⟨before, after, rfl, hbefore, hafter⟩
  simp only [List.all_append, Bool.and_eq_true] at h
  have hnone : ∀ {cs : List Char} {c}, cs.all isWordChar → c ∈ cs → isWordChar c = false → False := by
    intro cs c hcs hc hno
    rw [List.all_eq_true.mp hcs c hc] at hno
    cases hno
  rcases List.eq_nil_or_concat before with rfl | ⟨before, c, rfl⟩
  · cases after with
    | nil => exact hne rfl
    | cons c after => exact hnone h.2 (.head after) (hafter c rfl)
  · exact hnone h.1.1 (by simp) (hbefore c (by simp))

section Words

variable {a b : Char} (ha : isWordChar a) (hb : isWordChar b)

include ha hb

/-- A character between words separates what is done to a line. -/
theorem removeWord_append {c : Char} (hc : isWordChar c = false) (isInWord : Bool)
    (cs ds : List Char) : removeWord a b isInWord (cs ++ c :: ds) =
      removeWord a b isInWord cs ++ c :: removeWord a b false ds := by
  have hca : c ≠ a := by
    rintro rfl
    rw [hc] at ha
    cases ha
  have hcb : c ≠ b := by
    rintro rfl
    rw [hc] at hb
    cases hb
  have hfirst : ∀ isInWord, removeWord a b isInWord (c :: ds) = c :: removeWord a b false ds := by
    intro isInWord
    rw [removeWord_cons (.inr (.inl hca)), hc]
  fun_induction removeWord a b isInWord cs with
  | case1 isInWord x y cs hword ih =>
    have hafter : ((cs ++ c :: ds).head?.any isWordChar) = cs.head?.any isWordChar := by
      cases cs with
      | nil => simp [hc]
      | cons z cs => rfl
    rw [List.cons_append, List.cons_append, removeWord, hafter, if_pos hword, ih]
  | case2 isInWord x y cs hword ih =>
    have hafter : ((cs ++ c :: ds).head?.any isWordChar) = cs.head?.any isWordChar := by
      cases cs with
      | nil => simp [hc]
      | cons z cs => rfl
    rw [List.cons_append, List.cons_append, removeWord, hafter, if_neg hword,
      ← List.cons_append, ih, List.cons_append]
  | case3 isInWord cs hshort =>
    match cs, hshort with
    | [], _ => exact hfirst isInWord
    | [x], _ =>
      rw [List.singleton_append, removeWord_cons, hfirst]
      · rfl
      · exact .inr (.inr (.inl (by simpa using hcb)))
    | x :: y :: cs, hshort => exact absurd rfl (hshort x y cs)

/-- What is not in a word is left. -/
theorem filter_removeWord (isInWord : Bool) (line : List Char) :
    (removeWord a b isInWord line).filter (!isWordChar ·) = line.filter (!isWordChar ·) := by
  fun_induction removeWord a b isInWord line with
  | case1 isInWord c d cs h ih =>
    simp only [Bool.and_eq_true, Bool.not_eq_true', beq_iff_eq] at h
    obtain ⟨⟨⟨-, rfl⟩, rfl⟩, -⟩ := h
    rw [List.filter_cons_of_neg (by simp [ha]), List.filter_cons_of_neg (by simp [hb]), ih]
  | case2 isInWord c d cs h ih => rw [List.filter_cons, List.filter_cons, ih]
  | case3 => rfl

theorem removeWord_intercalate {c : Char} (hc : isWordChar c = false) (parts : List (List Char)) :
    removeWord a b false ([c].intercalate parts) =
      [c].intercalate (parts.map (removeWord a b false)) := by
  cases parts with
  | nil => rfl
  | cons part parts =>
    induction parts generalizing part with
    | nil => simp
    | cons part' parts ih =>
      rw [List.map_cons, List.map_cons, List.intercalate_cons_cons, List.intercalate_cons_cons,
        List.append_assoc, List.append_assoc, List.singleton_append, List.singleton_append,
        removeWord_append ha hb hc, ih part', List.map_cons]

end Words

/-! ## Parameters -/

theorem splitAux_squeeze (line current : List Char) :
    (splitAux [' '] (squeeze line) 0 current).filter (· ≠ []) =
      (splitAux [' '] line 0 current).filter (· ≠ []) := by
  have hblank : ∀ cs current, splitAux [' '] (' ' :: cs) 0 current =
      current.reverse :: splitAux [' '] cs 0 [] := by
    intro cs current
    rw [splitAux, if_pos (by rfl)]
    rfl
  induction line generalizing current with
  | nil => rfl
  | cons c cs ih =>
    rw [squeeze]
    split
    · next h =>
      obtain ⟨rfl, hhead⟩ : c = ' ' ∧ cs.head? = some ' ' := by simpa using h
      obtain ⟨ds, rfl⟩ : ∃ ds, cs = ' ' :: ds := by
        cases cs with
        | nil => cases hhead
        | cons d ds => exact ⟨ds, by rw [Option.some.inj hhead]⟩
      rw [ih, hblank, hblank, hblank, List.filter_cons, List.filter_cons]
      simp
    · by_cases hc : c = ' '
      · rw [hc, hblank, hblank, List.filter_cons, List.filter_cons, ih]
      · have hother : ∀ cs, splitAux [' '] (c :: cs) 0 current =
            splitAux [' '] cs 0 (c :: current) := by
          intro cs
          rw [splitAux, if_neg]
          simpa using Ne.symm hc
        rw [hother, hother, ih]

theorem parameters_squeeze (line : List Char) : parameters (squeeze line) = parameters line :=
  splitAux_squeeze line []

theorem parameters_append (line line' : List Char) :
    parameters (line ++ ' ' :: line') = parameters line ++ parameters line' := by
  rw [parameters, splitAux_separator, List.filter_append]
  rfl

/-- The parameters of parameters that are joined by blanks, some of which have been emptied. -/
theorem parameters_intercalate {words : List (List Char)} (h : ∀ word ∈ words, ' ' ∉ word) :
    parameters ([' '].intercalate words) = words.filter (· ≠ []) := by
  cases words with
  | nil => rfl
  | cons word words => rw [parameters, splitAux_intercalate (List.cons_ne_nil _ _) h]

end ArchInstaller.LineEditing
