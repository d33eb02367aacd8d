import Mathlib.Data.List.TakeWhile
import ArchInstaller.Python.Digits
import ArchInstaller.Scripts.SnapshotEntries

/-! # The kernel command line of a snapshot

The script edits the text of a command line, with patterns that also match inside parameters. -/

namespace ArchInstaller.SnapshotEntries

open PyText LineEditing

/-! ## The claim -/

abbrev Parameter := List Char

def isMode (parameter : Parameter) : Bool := parameter == ['r', 'o'] || parameter == ['r', 'w']

def isRootflags (parameter : Parameter) : Bool := rootflagsText.isPrefixOf parameter

/-- The options of `rootflags=`. -/
def rootflagsOptions (parameter : Parameter) : List (List Char) :=
  splitAux [','] (parameter.drop 10) 0 []

def isSubvolumeOption (option : List Char) : Bool :=
  subvolText.isPrefixOf option ||
    ['s', 'u', 'b', 'v', 'o', 'l', 'i', 'd', '='].isPrefixOf option

/-- The root file system is mounted from a subvolume and no other one, with the other options. -/
structure Selects (subvolume : List Char) (parameter parameter' : Parameter) : Prop where
  isRootflags : isRootflags parameter'
  subvolumes : (rootflagsOptions parameter').filter isSubvolumeOption = [subvolText ++ subvolume]
  others : (rootflagsOptions parameter').filter (!isSubvolumeOption ·) =
    (rootflagsOptions parameter).filter (!isSubvolumeOption ·)

/-- What becomes of a parameter. -/
def Follows (subvolume : List Char) (parameter parameter' : Parameter) : Prop :=
  if isRootflags parameter then Selects subvolume parameter parameter' else parameter' = parameter

/-- The parameters of a snapshot are those of the system but for the subvolume and the mode. -/
def BootsSnapshot (parameters : List Parameter) (subvolume mode : List Char)
    (parameters' : List Parameter) : Prop :=
  ∃ kept, List.Forall₂ (Follows subvolume) (parameters.filter (!isMode ·)) kept ∧
    parameters' = kept ++
      (if parameters.any isRootflags then [] else [rootflagsText ++ subvolText ++ subvolume]) ++
        [mode]

/-! ## The condition -/

/-- `ro` or `rw` as a word of a text. -/
def HasMode (text : List Char) : Prop := HasWord ['r', 'o'] text ∨ HasWord ['r', 'w'] text

/-- `rootflags=` with `subvol=` somewhere behind it. -/
def MentionsSubvol (parameter : Parameter) : Prop :=
  ∃ before between after, parameter = before ++ rootflagsText ++ between ++ subvolText ++ after

/-- Options with one for a subvolume, which is the last mention of one. -/
def OneSubvolume (options : List (List Char)) : Prop :=
  ∃ before old after, options = before ++ (subvolText ++ old) :: after ∧
    (∀ option ∈ before ++ after, isSubvolumeOption option = false ∧ ¬HasMode option) ∧
      ¬subvolText <:+: old ∧ ∀ option ∈ after, ¬subvolText <:+: option

/-- A parameter with root options, of parameters among which no other one is taken for it. -/
def OneRootflags (parameters : List Parameter) : Prop :=
  ∃ before parameter after, parameters = before ++ parameter :: after ∧ isRootflags parameter ∧
    (∀ parameter' ∈ before, ¬MentionsSubvol parameter') ∧
      (∀ parameter' ∈ before ++ after, isRootflags parameter' = false) ∧
        OneSubvolume (rootflagsOptions parameter)

/-- A command line in which the patterns match what they are meant for. -/
structure PlainBase (parameters : List Parameter) : Prop where
  others : ∀ parameter ∈ parameters, isMode parameter = false → isRootflags parameter = false →
    ¬HasMode parameter
  rootflags : (∃ parameter ∈ parameters, rootflagsText <:+: parameter) → OneRootflags parameters

/-! ## The mode -/

/-- What is left of a text without the mode. -/
def dropMode (text : List Char) : List Char :=
  removeWord 'r' 'o' false (removeWord 'r' 'w' false text)

theorem dropMode_append {c : Char} (hc : isWordChar c = false) (cs ds : List Char) :
    dropMode (cs ++ c :: ds) = dropMode cs ++ c :: dropMode ds := by
  simp only [dropMode]
  rw [removeWord_append (by decide) (by decide) hc, removeWord_append (by decide) (by decide) hc]

theorem dropMode_intercalate {c : Char} (hc : isWordChar c = false) (parts : List (List Char)) :
    dropMode ([c].intercalate parts) = [c].intercalate (parts.map dropMode) := by
  simp only [dropMode]
  rw [removeWord_intercalate (by decide) (by decide) hc,
    removeWord_intercalate (by decide) (by decide) hc, List.map_map]
  rfl

theorem dropMode_sublist (text : List Char) : (dropMode text).Sublist text :=
  (removeWord_sublist _ _ _ _).trans (removeWord_sublist _ _ _ _)

theorem dropMode_eq_self_iff {text : List Char} : dropMode text = text ↔ ¬HasMode text := by
  rw [HasMode, not_or, ← removeWord_eq_self_iff, ← removeWord_eq_self_iff, dropMode]
  constructor
  · intro h
    have hrw : removeWord 'r' 'w' false text = text := by
      refine (removeWord_sublist _ _ _ _).eq_of_length_le ?_
      calc text.length = (removeWord 'r' 'o' false (removeWord 'r' 'w' false text)).length := by
            rw [h]
        _ ≤ (removeWord 'r' 'w' false text).length := (removeWord_sublist _ _ _ _).length_le
    rw [hrw] at h
    exact ⟨h, hrw⟩
  · rintro ⟨hro, hrw⟩
    rw [hrw, hro]

theorem dropMode_of_word {text : List Char} (h : text.all isWordChar) (hmode : isMode text = false) :
    dropMode text = text := by
  have hro : text ≠ ['r', 'o'] := by
    rintro rfl
    cases hmode
  have hrw : text ≠ ['r', 'w'] := by
    rintro rfl
    cases hmode
  rw [dropMode, removeWord_of_word h hrw, removeWord_of_word h hro]

theorem filter_dropMode (text : List Char) :
    (dropMode text).filter (!isWordChar ·) = text.filter (!isWordChar ·) := by
  rw [dropMode, filter_removeWord (by decide) (by decide), filter_removeWord (by decide) (by decide)]

/-- A text that is one word after the mode is dropped was so before. -/
theorem dropMode_eq_word {text word : List Char} (hword : word.all isWordChar)
    (h : dropMode text = word) : text = word ∨ isMode text ∧ word = [] := by
  have hfilter := filter_dropMode text
  rw [h, List.filter_eq_nil_iff.mpr (by simpa using hword), eq_comm, List.filter_eq_nil_iff] at hfilter
  have hall : text.all isWordChar := by
    rw [List.all_eq_true]
    intro c hc
    simpa using hfilter c hc
  cases hmode : isMode text with
  | false =>
    rw [dropMode_of_word hall hmode] at h
    exact .inl h
  | true =>
    refine .inr ⟨rfl, ?_⟩
    rw [isMode, Bool.or_eq_true, beq_iff_eq, beq_iff_eq] at hmode
    rcases hmode with rfl | rfl
    · exact h.symm
    · exact h.symm

theorem dropMode_eq_nil_iff {text : List Char} (hne : text ≠ []) :
    dropMode text = [] ↔ isMode text := by
  constructor
  · intro h
    rcases dropMode_eq_word (by rfl) h with h | h
    · exact absurd h hne
    · exact h.1
  · intro h
    rw [isMode, Bool.or_eq_true, beq_iff_eq, beq_iff_eq] at h
    rcases h with rfl | rfl <;> rfl

/-! ## The subvolume -/

theorem lastSubvol_eq_none_iff {text : List Char} : lastSubvol text = none ↔ ¬subvolText <:+: text := by
  induction text with
  | nil => simp [lastSubvol, subvolText]
  | cons c cs ih =>
    rw [lastSubvol, List.infix_cons_iff, not_or]
    cases hlater : lastSubvol cs with
    | some parts =>
      rw [hlater] at ih
      simp only [reduceCtorEq, false_iff, not_and, not_not] at ih ⊢
      exact fun _ => ih
    | none =>
      rw [hlater] at ih
      simp only [true_iff] at ih
      simp [ih, List.isPrefixOf_iff_prefix]

theorem lastSubvol_eq_some {text before after : List Char}
    (h : lastSubvol text = some (before, after)) :
    text = before ++ subvolText ++ after ∧ lastSubvol after = none := by
  induction text generalizing before with
  | nil => cases h
  | cons c cs ih =>
    rw [lastSubvol] at h
    cases hlater : lastSubvol cs with
    | some parts =>
      obtain ⟨before', after'⟩ := parts
      rw [hlater] at h
      cases h
      obtain ⟨heq, hafter⟩ := ih hlater
      exact ⟨by rw [heq]; rfl, hafter⟩
    | none =>
      rw [hlater] at h
      simp only [Option.ite_none_right_eq_some, Option.some.injEq, Prod.mk.injEq] at h
      obtain ⟨hpre, rfl, rfl⟩ := h
      obtain ⟨rest, hrest⟩ := List.isPrefixOf_iff_prefix.mp hpre
      have hdrop : (c :: cs).drop 7 = rest := by
        rw [← hrest]
        rfl
      rw [hdrop]
      refine ⟨hrest.symm, lastSubvol_eq_none_iff.mpr fun hinf => ?_⟩
      refine lastSubvol_eq_none_iff.mp hlater (hinf.trans ?_)
      have hcs : cs = ['u', 'b', 'v', 'o', 'l', '='] ++ rest := (List.cons.inj hrest).2.symm
      rw [hcs]
      exact (List.suffix_append _ _).isInfix

theorem lastSubvol_append {before after : List Char} (h : lastSubvol after = none) :
    lastSubvol (before ++ subvolText ++ after) = some (before, after) := by
  induction before with
  | nil =>
    have hskip : ∀ c cs, c ≠ 's' → lastSubvol cs = none → lastSubvol (c :: cs) = none := by
      intro c cs hc hcs
      rw [lastSubvol, hcs]
      refine if_neg fun hpre => hc ?_
      obtain ⟨rest, hrest⟩ := List.isPrefixOf_iff_prefix.mp hpre
      exact (List.cons.inj hrest).1.symm
    have hnone : lastSubvol (['u', 'b', 'v', 'o', 'l', '='] ++ after) = none :=
      hskip _ _ (by decide) <| hskip _ _ (by decide) <| hskip _ _ (by decide) <|
        hskip _ _ (by decide) <| hskip _ _ (by decide) <| hskip _ _ (by decide) h
    have hchars : [] ++ subvolText ++ after = 's' :: (['u', 'b', 'v', 'o', 'l', '='] ++ after) := rfl
    rw [hchars, lastSubvol, hnone]
    rfl
  | cons c before ih =>
    rw [List.cons_append, List.cons_append, lastSubvol, ih]

theorem not_blank {parameter : Parameter} (h : ∀ c ∈ parameter, isBlank c = false) :
    parameter.takeWhile (!isBlank ·) = parameter ∧ parameter.dropWhile (!isBlank ·) = [] := by
  constructor
  · rw [List.takeWhile_eq_self_iff]
    simpa using h
  · rw [List.dropWhile_eq_nil_iff]
    simpa using h

/-- The last `subvol=` of a text that starts with `rootflags=`. -/
def subvolAt (text : List Char) : Option (List Char × List Char) :=
  if rootflagsText.isPrefixOf text then lastSubvol (text.drop 10) else none

theorem subvolAt_append (options : List Char) : subvolAt (rootflagsText ++ options) = lastSubvol options := by
  rw [subvolAt, if_pos (List.isPrefixOf_iff_prefix.mpr (List.prefix_append _ _))]
  rfl

theorem subvolAt_eq_some {text before after : List Char} (h : subvolAt text = some (before, after)) :
    text = rootflagsText ++ before ++ subvolText ++ after := by
  rw [subvolAt, Option.ite_none_right_eq_some] at h
  obtain ⟨hpre, hlast⟩ := h
  obtain ⟨options, rfl⟩ := List.isPrefixOf_iff_prefix.mp hpre
  have hoptions : options = before ++ subvolText ++ after := (lastSubvol_eq_some hlast).1
  rw [hoptions]
  simp only [List.append_assoc]

theorem subvolAt_ne_none (before after : List Char) :
    subvolAt (rootflagsText ++ before ++ subvolText ++ after) ≠ none := by
  rw [List.append_assoc, List.append_assoc, subvolAt_append, ne_eq, lastSubvol_eq_none_iff, not_not]
  exact ⟨before, after, by rw [List.append_assoc]⟩

theorem replaceSubvol_cons {c : Char} {cs : List Char} (hblank : ∀ d ∈ c :: cs, isBlank d = false)
    (subvolume : List Char) : replaceSubvol subvolume (c :: cs) =
      match subvolAt (c :: cs) with
      | some (before, after) =>
        some (rootflagsText ++ before ++ subvolText ++ subvolume ++ after.dropWhile (· != ','))
      | none => (replaceSubvol subvolume cs).map (c :: ·) := by
  have hrest : ∀ d ∈ (c :: cs).drop 10, isBlank d = false := fun d hd =>
    hblank d (List.mem_of_mem_drop hd)
  obtain ⟨htake, hdrop⟩ := not_blank hrest
  rw [replaceSubvol, subvolAt]
  split
  · split <;> simp only [List.append_nil, *]
  · rfl

/-- What becomes of a parameter. -/
theorem replaceSubvol_cases {parameter : Parameter} (hblank : ∀ c ∈ parameter, isBlank c = false) :
    (¬MentionsSubvol parameter ∧ ∀ subvolume, replaceSubvol subvolume parameter = none) ∨
      ∃ before old after, parameter = before ++ subvolText ++ old ++ after ∧
        MentionsSubvol parameter ∧ (after = [] ∨ ∃ after', after = ',' :: after') ∧
          ∀ subvolume, replaceSubvol subvolume parameter =
            some (before ++ subvolText ++ subvolume ++ after) := by
  induction parameter with
  | nil =>
    refine .inl ⟨?_, fun _ => rfl⟩
    rintro ⟨before, between, after, h⟩
    simp [rootflagsText] at h
  | cons c cs ih =>
    have hcons := replaceSubvol_cons hblank
    cases hfound : subvolAt (c :: cs) with
    | some parts =>
      obtain ⟨between, rest⟩ := parts
      simp only [hfound] at hcons
      have heq := subvolAt_eq_some hfound
      refine .inr ⟨rootflagsText ++ between, rest.takeWhile (· != ','), rest.dropWhile (· != ','),
        ?_, ⟨[], between, rest, heq⟩, ?_, hcons⟩
      · rw [heq, List.append_assoc _ _ (rest.dropWhile _), List.takeWhile_append_dropWhile]
      · cases hafter : rest.dropWhile (· != ',') with
        | nil => exact .inl rfl
        | cons d after =>
          refine .inr ⟨after, ?_⟩
          have hhead := List.head?_dropWhile_not (· != ',') rest
          rw [hafter] at hhead
          rw [show d = ',' by simpa using hhead]
    | none =>
      simp only [hfound] at hcons
      rcases ih fun d hd => hblank d (.tail c hd) with
        ⟨hno, hnone⟩ | ⟨before, old, after, heq, hmentions, hafter, hsome⟩
      · refine .inl ⟨?_, fun subvolume => by rw [hcons, hnone]; rfl⟩
        rintro ⟨before, between, after, h⟩
        cases before with
        | nil =>
          rw [h] at hfound
          exact subvolAt_ne_none between after hfound
        | cons x before => exact hno ⟨before, between, after, (List.cons.inj h).2⟩
      · refine .inr ⟨c :: before, old, after, by rw [heq]; rfl, ?_, hafter, fun subvolume => ?_⟩
        · obtain ⟨start, between, rest, h⟩ := hmentions
          exact ⟨c :: start, between, rest, by rw [h]; rfl⟩
        · rw [hcons, hsome]
          rfl

/-- What becomes of a parameter with its options. -/
theorem replaceSubvol_rootflags {options : List Char} (hblank : ∀ c ∈ options, isBlank c = false)
    (subvolume : List Char) : replaceSubvol subvolume (rootflagsText ++ options) =
      (lastSubvol options).map fun parts =>
        rootflagsText ++ parts.1 ++ subvolText ++ subvolume ++ parts.2.dropWhile (· != ',') := by
  have hparameter : ∀ c ∈ rootflagsText ++ options, isBlank c = false := by
    rw [List.forall_mem_append]
    exact ⟨forall_mem_of_all (by decide), hblank⟩
  have hfound := subvolAt_append options
  cases hlast : lastSubvol options with
  | some parts =>
    rw [hlast] at hfound
    rw [rootflagsText, List.cons_append] at hparameter hfound ⊢
    rw [replaceSubvol_cons hparameter, hfound]
    rfl
  | none =>
    rcases replaceSubvol_cases hparameter with ⟨-, hnone⟩ | ⟨-, -, -, -, ⟨before, between, after, h⟩, -, -⟩
    · exact hnone subvolume
    · refine absurd ?_ (lastSubvol_eq_none_iff.mp hlast)
      have hdrop := congrArg (List.drop 10) h
      have hlength : 10 ≤ (before ++ rootflagsText ++ between).length := by
        simp only [List.length_append, rootflagsText, List.length_cons]
        omega
      rw [List.append_assoc, List.drop_append_of_le_length hlength] at hdrop
      have hoptions : (rootflagsText ++ options).drop 10 = options := rfl
      rw [hoptions] at hdrop
      exact ⟨(before ++ rootflagsText ++ between).drop 10, after, by rw [hdrop, List.append_assoc]⟩

/-- What becomes of a line whose first parameter is a given one. -/
theorem replaceSubvol_append {parameter : Parameter} (hblank : ∀ c ∈ parameter, isBlank c = false)
    (subvolume rest : List Char) : replaceSubvol subvolume (parameter ++ ' ' :: rest) =
      match replaceSubvol subvolume parameter with
      | some parameter' => some (parameter' ++ ' ' :: rest)
      | none => (replaceSubvol subvolume rest).map (parameter ++ ' ' :: ·) := by
  induction parameter with
  | nil =>
    have hpre : rootflagsText.isPrefixOf (' ' :: rest) = false := rfl
    simp only [List.nil_append, replaceSubvol, hpre, Bool.false_eq_true, if_false]
  | cons c cs ih =>
    have hcons := replaceSubvol_cons hblank subvolume
    have hih := ih fun d hd => hblank d (.tail c hd)
    have hstart : rootflagsText.isPrefixOf (c :: cs ++ ' ' :: rest) =
        rootflagsText.isPrefixOf (c :: cs) := by
      rw [Bool.eq_iff_iff, List.isPrefixOf_iff_prefix, List.isPrefixOf_iff_prefix]
      exact prefix_append_cons_iff (by decide)
    rw [hcons, List.cons_append, replaceSubvol, ← List.cons_append, hstart, hih]
    cases hpre : rootflagsText.isPrefixOf (c :: cs) with
    | false =>
      have hnone : subvolAt (c :: cs) = none := by
        rw [subvolAt, if_neg (by simp [hpre])]
      simp only [hnone, Bool.false_eq_true, if_false]
      cases replaceSubvol subvolume cs with
      | some cs' => rfl
      | none => simp [Function.comp_def]
    | true =>
      obtain ⟨options, hoptions⟩ := List.isPrefixOf_iff_prefix.mp hpre
      have hblank' : ∀ d ∈ options, isBlank d = false := by
        rw [← hoptions, List.forall_mem_append] at hblank
        exact hblank.2
      obtain ⟨htake, hdrop⟩ := not_blank hblank'
      have hrest : (c :: cs ++ ' ' :: rest).drop 10 = options ++ ' ' :: rest := by
        rw [← hoptions]
        rfl
      have htake' : (options ++ ' ' :: rest).takeWhile (!isBlank ·) = options := by
        rw [List.takeWhile_append_of_pos (by simpa using hblank'), List.takeWhile_cons_of_neg (by decide),
          List.append_nil]
      have hdrop' : (options ++ ' ' :: rest).dropWhile (!isBlank ·) = ' ' :: rest := by
        rw [List.dropWhile_append_of_pos (by simpa using hblank'), List.dropWhile_cons_of_neg (by decide)]
      have hlast : subvolAt (c :: cs) = lastSubvol options := by
        rw [← hoptions, subvolAt_append]
      simp only [if_true, hrest, htake', hdrop', hlast]
      cases lastSubvol options with
      | some parts => simp only [List.append_assoc]
      | none =>
        cases replaceSubvol subvolume cs with
        | some cs' => rfl
        | none => simp [Function.comp_def]

/-! ## The parameters that are returned -/

/-- Parameters, the first of which with a subvolume has another one. -/
def edited (subvolume : List Char) : List Parameter → List Parameter
  | [] => []
  | parameter :: parameters =>
    match replaceSubvol subvolume parameter with
    | some parameter' => parameter' :: parameters
    | none => parameter :: edited subvolume parameters

/-- The parameters before the mode is dropped. -/
def withRootflags (subvolume : List Char) (parameters : List Parameter) : List Parameter :=
  if ∃ parameter ∈ parameters, rootflagsText <:+: parameter then edited subvolume parameters
  else parameters ++ [rootflagsText ++ subvolText ++ subvolume]

/-- A text between blanks. -/
structure IsParameter (parameter : Parameter) : Prop where
  nonempty : parameter ≠ []
  blank : ∀ c ∈ parameter, isBlank c = false

theorem edited_intercalate {parameters : List Parameter}
    (h : ∀ parameter ∈ parameters, IsParameter parameter) (subvolume : List Char) :
    (replaceSubvol subvolume ([' '].intercalate parameters)).getD ([' '].intercalate parameters) =
      [' '].intercalate (edited subvolume parameters) := by
  cases parameters with
  | nil => rfl
  | cons parameter parameters =>
    induction parameters generalizing parameter with
    | nil =>
      rw [List.intercalate_singleton, edited]
      cases replaceSubvol subvolume parameter <;> simp [edited]
    | cons parameter' parameters ih =>
      rw [List.forall_mem_cons] at h
      have hih := ih parameter' h.2
      rw [List.intercalate_cons_cons, List.append_assoc, List.singleton_append,
        replaceSubvol_append h.1.blank, edited]
      cases replaceSubvol subvolume parameter with
      | some changed => simp
      | none =>
        have hne : edited subvolume (parameter' :: parameters) ≠ [] := by
          rw [edited]
          split <;> simp
        obtain ⟨first, others, hfirst⟩ := List.exists_cons_of_ne_nil hne
        rw [hfirst] at hih
        simp only [hfirst, List.intercalate_cons_cons, ← hih]
        cases replaceSubvol subvolume ([' '].intercalate (parameter' :: parameters)) <;> simp

theorem mem_intercalate {c : Char} {separator : List Char} {parts : List (List Char)}
    (h : c ∈ separator.intercalate parts) : c ∈ separator ∨ ∃ part ∈ parts, c ∈ part := by
  cases parts with
  | nil => simp at h
  | cons part parts =>
    induction parts generalizing part with
    | nil => exact .inr ⟨part, .head _, by simpa using h⟩
    | cons part' parts ih =>
      rw [List.intercalate_cons_cons, List.mem_append, List.mem_append] at h
      rcases h with (h | h) | h
      · exact .inr ⟨part, .head _, h⟩
      · exact .inl h
      · rcases ih part' h with h | ⟨found, hfound, h⟩
        · exact .inl h
        · exact .inr ⟨found, .tail _ hfound, h⟩

theorem feed_not_mem {parameters : List Parameter}
    (h : ∀ parameter ∈ parameters, ∀ c ∈ parameter, isBlank c = false) :
    '\n' ∉ [' '].intercalate parameters := fun hmem => by
  rcases mem_intercalate hmem with hmem | ⟨parameter, hparameter, hmem⟩
  · exact absurd hmem (by decide)
  · exact absurd (h parameter hparameter _ hmem) (by decide)

theorem intercalate_concat {separator part : List Char} {parts : List (List Char)} (h : parts ≠ []) :
    separator.intercalate (parts ++ [part]) = separator.intercalate parts ++ separator ++ part := by
  obtain ⟨first, others, rfl⟩ := List.exists_cons_of_ne_nil h
  clear h
  induction others generalizing first with
  | nil => simp
  | cons second others ih =>
    rw [List.cons_append, List.cons_append, List.intercalate_cons_cons, ← List.cons_append, ih second,
      List.intercalate_cons_cons]
    simp only [List.append_assoc]

theorem withSubvolume_toList {base subvolume : String} {parameters : List Parameter}
    (h : ∀ parameter ∈ parameters, IsParameter parameter) (hne : parameters ≠ [])
    (hbase : base.toList = [' '].intercalate parameters) :
    (withSubvolume subvolume base).toList =
      [' '].intercalate (withRootflags subvolume.toList parameters) := by
  have hinf : rootflagsText <:+: base.toList ↔
      ∃ parameter ∈ parameters, rootflagsText <:+: parameter := by
    rw [hbase]
    exact infix_intercalate_iff (by decide) (by decide)
  have hfeed : '\n' ∉ base.toList := hbase ▸ feed_not_mem fun parameter hparameter =>
    (h parameter hparameter).blank
  rw [withSubvolume, withRootflags]
  by_cases hmentions : rootflagsText <:+: base.toList
  · rw [if_pos hmentions, if_pos (hinf.mp hmentions), eachLine_of_not_mem hfeed,
      String.toList_ofList, hbase, edited_intercalate h]
  · have htext : " rootflags=subvol=".toList = ' ' :: (rootflagsText ++ subvolText) := rfl
    rw [if_neg hmentions, if_neg fun h => hmentions (hinf.mpr h), String.toList_append,
      String.toList_append, hbase, htext, intercalate_concat hne]
    simp

/-- What is left of every parameter when the modes are dropped. -/
def dropModes (parameters : List Parameter) : List Parameter :=
  (parameters.map dropMode).filter (· ≠ [])

theorem withoutMode_toList {base : String} {parameters : List Parameter}
    (h : ∀ parameter ∈ parameters, ∀ c ∈ parameter, isBlank c = false)
    (hbase : base.toList = [' '].intercalate parameters) :
    LineEditing.parameters (withoutMode base).toList = dropModes parameters := by
  have hfeed : '\n' ∉ base.toList := hbase ▸ feed_not_mem h
  have hblank : ∀ part ∈ parameters.map dropMode, ' ' ∉ part := by
    rw [List.forall_mem_map]
    intro parameter hparameter hmem
    exact absurd (h parameter hparameter _ ((dropMode_sublist parameter).subset hmem)) (by decide)
  have hline : removeWord 'r' 'o' false (removeWord 'r' 'w' false base.toList) =
      [' '].intercalate (parameters.map dropMode) := by
    rw [← dropMode_intercalate (by decide), ← hbase]
    rfl
  rw [withoutMode, String.toList_ofList, parameters_squeeze, eachLine_of_not_mem hfeed,
    String.toList_ofList, hline, parameters_intercalate hblank]
  rfl

theorem edited_append {before after : List Parameter} {parameter parameter' : Parameter}
    {subvolume : List Char} (hbefore : ∀ found ∈ before, replaceSubvol subvolume found = none)
    (h : replaceSubvol subvolume parameter = some parameter') :
    edited subvolume (before ++ parameter :: after) = before ++ parameter' :: after := by
  induction before with
  | nil => simp only [List.nil_append, edited, h]
  | cons first before ih =>
    rw [List.forall_mem_cons] at hbefore
    simp only [List.cons_append, edited, hbefore.1, ih hbefore.2]

theorem edited_cases {parameters : List Parameter}
    (h : ∀ parameter ∈ parameters, ∀ c ∈ parameter, isBlank c = false) :
    (∀ parameter ∈ parameters, ¬MentionsSubvol parameter) ∧
        (∀ subvolume, edited subvolume parameters = parameters) ∨
      ∃ before parameter after, parameters = before ++ parameter :: after ∧
        (∀ parameter' ∈ before, ¬MentionsSubvol parameter') ∧
          ∀ subvolume, ∃ parameter', replaceSubvol subvolume parameter = some parameter' ∧
            edited subvolume parameters = before ++ parameter' :: after := by
  induction parameters with
  | nil => exact .inl ⟨by simp, fun _ => rfl⟩
  | cons parameter parameters ih =>
    rw [List.forall_mem_cons] at h
    rcases replaceSubvol_cases h.1 with ⟨hno, hnone⟩ | ⟨before, old, after, -, -, -, hsome⟩
    · rcases ih h.2 with ⟨hnone', heq⟩ | ⟨before, found, after, rfl, hbefore, hfound⟩
      · exact .inl ⟨List.forall_mem_cons.mpr ⟨hno, hnone'⟩, fun subvolume => by
          simp only [edited, hnone, heq]⟩
      · refine .inr ⟨parameter :: before, found, after, rfl, List.forall_mem_cons.mpr ⟨hno, hbefore⟩,
          fun subvolume => ?_⟩
        obtain ⟨changed, hchanged, heq⟩ := hfound subvolume
        exact ⟨changed, hchanged, by simp only [edited, hnone, heq, List.cons_append]⟩
    · exact .inr ⟨[], parameter, parameters, rfl, by simp, fun subvolume =>
        ⟨_, hsome subvolume, by simp only [edited, hsome, List.nil_append]⟩⟩

/-! ## Subvolumes of snapshots -/

/-- A subvolume in which nothing matches. -/
structure IsPlain (subvolume : List Char) : Prop where
  blank : ∀ c ∈ subvolume, isBlank c = false
  comma : ',' ∉ subvolume
  mode : dropMode subvolume = subvolume

theorem snapshotSubvolume_toList (number : Nat) : (snapshotSubvolume number).toList =
    "@snapshots/".toList ++ (Nat.toDigits 10 number ++ "/snapshot".toList) := by
  rw [← toString_nat_toList, ← List.append_assoc, ← String.toList_append, ← String.toList_append]
  rfl

theorem snapshotSubvolume_inj {number number' : Nat}
    (h : (snapshotSubvolume number).toList = (snapshotSubvolume number').toList) :
    number = number' := by
  rw [snapshotSubvolume_toList, snapshotSubvolume_toList, List.append_cancel_left_eq,
    List.append_cancel_right_eq] at h
  exact toDigits_inj h

theorem isPlain_snapshotSubvolume (number : Nat) : IsPlain (snapshotSubvolume number).toList := by
  have hdigits : ∀ c ∈ Nat.toDigits 10 number, c.isDigit := fun c hc =>
    Nat.isDigit_of_mem_toDigits (by decide) (by decide) hc
  have hchars : ∀ p : Char → Prop, (∀ c, c.isDigit → p c) → (∀ c ∈ "@snapshots/".toList, p c) →
      (∀ c ∈ "/snapshot".toList, p c) → ∀ c ∈ (snapshotSubvolume number).toList, p c := by
    intro p hp hstart hend
    rw [snapshotSubvolume_toList, List.forall_mem_append, List.forall_mem_append]
    exact ⟨hstart, fun c hc => hp c (hdigits c hc), hend⟩
  constructor
  · refine hchars (isBlank · = false) (fun c hc => ?_) (forall_mem_of_all (by decide))
      (forall_mem_of_all (by decide))
    by_contra hblank
    simp only [isBlank, List.contains_eq_mem, List.mem_cons, List.not_mem_nil, or_false,
      Bool.not_eq_false, decide_eq_true_eq] at hblank
    rcases hblank with rfl | rfl | rfl | rfl | rfl | rfl <;> exact absurd hc (by decide)
  · refine fun hmem => hchars (· ≠ ',') (fun c hc => ?_) (forall_mem_of_all (by decide))
      (forall_mem_of_all (by decide)) _ hmem rfl
    rintro rfl
    exact absurd hc (by decide)
  · have hword : (Nat.toDigits 10 number).all isWordChar := by
      rw [List.all_eq_true]
      intro c hc
      rw [isWordChar, Char.isAlphanum, hdigits c hc, Bool.or_true, Bool.true_or]
    have hmode : isMode (Nat.toDigits 10 number) = false := by
      rw [isMode, Bool.or_eq_false_iff, beq_eq_false_iff_ne, beq_eq_false_iff_ne]
      constructor
      · intro h
        exact absurd (hdigits 'r' (by simp [h])) (by decide)
      · intro h
        exact absurd (hdigits 'r' (by simp [h])) (by decide)
    have hparts : (snapshotSubvolume number).toList = "@snapshots".toList ++
        '/' :: (Nat.toDigits 10 number ++ '/' :: "snapshot".toList) := by
      rw [snapshotSubvolume_toList]
      rfl
    rw [hparts, dropMode_append (by decide), dropMode_append (by decide), dropMode_of_word hword hmode]
    rfl

/-! ## What becomes of the root options -/

/-- The text around an option among others. -/
theorem exists_intercalate (c : Char) (before after : List (List Char)) :
    ∃ start rest, (∀ option, [c].intercalate (before ++ option :: after) = start ++ option ++ rest) ∧
      (after = [] ∧ rest = [] ∨ rest = c :: [c].intercalate after) := by
  have hafter : ∃ rest, (∀ option, [c].intercalate (option :: after) = option ++ rest) ∧
      (after = [] ∧ rest = [] ∨ rest = c :: [c].intercalate after) := by
    cases after with
    | nil => exact ⟨[], by simp, .inl ⟨rfl, rfl⟩⟩
    | cons first others =>
      refine ⟨c :: [c].intercalate (first :: others), fun option => ?_, .inr rfl⟩
      rw [List.intercalate_cons_cons, List.append_assoc, List.singleton_append]
  obtain ⟨rest, hrest, hcases⟩ := hafter
  suffices h : ∃ start, ∀ option,
      [c].intercalate (before ++ option :: after) = start ++ option ++ rest by
    obtain ⟨start, hstart⟩ := h
    exact ⟨start, rest, hstart, hcases⟩
  induction before with
  | nil => exact ⟨[], hrest⟩
  | cons first before ih =>
    obtain ⟨start, hstart⟩ := ih
    refine ⟨first ++ [c] ++ start, fun option => ?_⟩
    have hne : before ++ option :: after ≠ [] := by simp
    obtain ⟨second, others, hsecond⟩ := List.exists_cons_of_ne_nil hne
    rw [List.cons_append, hsecond, List.intercalate_cons_cons, ← hsecond, hstart]
    simp only [List.append_assoc]

theorem dropMode_rootflags (options : List Char) :
    dropMode (rootflagsText ++ options) = rootflagsText ++ dropMode options := by
  have htext : ∀ options, rootflagsText ++ options =
      ['r', 'o', 'o', 't', 'f', 'l', 'a', 'g', 's'] ++ '=' :: options := fun _ => rfl
  rw [htext, dropMode_append (by decide), htext]
  rfl

theorem rootflagsOptions_append (options : List Char) :
    rootflagsOptions (rootflagsText ++ options) = splitAux [','] options 0 [] := rfl

theorem isRootflags_append (options : List Char) : isRootflags (rootflagsText ++ options) :=
  List.isPrefixOf_iff_prefix.mpr (List.prefix_append _ _)

theorem exists_options {parameter : Parameter} (h : isRootflags parameter) :
    ∃ options, parameter = rootflagsText ++ options := by
  obtain ⟨options, hoptions⟩ := List.isPrefixOf_iff_prefix.mp h
  exact ⟨options, hoptions.symm⟩

theorem dropMode_subvolume (option subvolume : List Char) : dropMode (option ++ subvolText ++ subvolume) =
    dropMode (option ++ ['s', 'u', 'b', 'v', 'o', 'l']) ++ '=' :: dropMode subvolume := by
  have htext : option ++ subvolText ++ subvolume =
      (option ++ ['s', 'u', 'b', 'v', 'o', 'l']) ++ '=' :: subvolume := by
    simp [subvolText]
  rw [htext, dropMode_append (by decide)]

theorem isSubvolumeOption_dropMode {option : List Char} (h : isSubvolumeOption option) :
    isSubvolumeOption (dropMode option) := by
  rw [isSubvolumeOption, Bool.or_eq_true, List.isPrefixOf_iff_prefix, List.isPrefixOf_iff_prefix] at h ⊢
  rcases h with ⟨value, rfl⟩ | ⟨value, rfl⟩
  · have htext : subvolText ++ value = ['s', 'u', 'b', 'v', 'o', 'l'] ++ '=' :: value := rfl
    rw [htext, dropMode_append (by decide)]
    exact .inl ⟨dropMode value, rfl⟩
  · have htext : ['s', 'u', 'b', 'v', 'o', 'l', 'i', 'd', '='] ++ value =
        ['s', 'u', 'b', 'v', 'o', 'l', 'i', 'd'] ++ '=' :: value := rfl
    rw [htext, dropMode_append (by decide)]
    exact .inr ⟨dropMode value, rfl⟩

theorem isSubvolumeOption_append (value : List Char) : isSubvolumeOption (subvolText ++ value) := by
  rw [isSubvolumeOption, List.isPrefixOf_iff_prefix.mpr (List.prefix_append _ _), Bool.true_or]

/-- The options of a parameter from which the mode is dropped. -/
theorem rootflagsOptions_dropMode (options : List Char) :
    rootflagsOptions (dropMode (rootflagsText ++ options)) =
      (splitAux [','] options 0 []).map dropMode := by
  have hcommas : ∀ part ∈ (splitAux [','] options 0 []).map dropMode, ',' ∉ part := by
    rw [List.forall_mem_map]
    intro part hpart hmem
    exact (mem_splitAux List.not_mem_nil hpart).1 ((dropMode_sublist part).subset hmem)
  rw [dropMode_rootflags, rootflagsOptions_append]
  nth_rewrite 1 [show options = [','].intercalate (splitAux [','] options 0 []) by
    rw [intercalate_splitAux, List.reverse_nil, List.nil_append]]
  rw [dropMode_intercalate (by decide), splitAux_intercalate _ hcommas]
  simpa using splitAux_ne_nil

/-- One subvolume among the options is replaced by that of the snapshot. -/
theorem selects_of_oneSubvolume {parameter : Parameter} {subvolume : List Char}
    (hplain : IsPlain subvolume) (hroot : isRootflags parameter)
    (hblank : ∀ c ∈ parameter, isBlank c = false) (h : OneSubvolume (rootflagsOptions parameter)) :
    ∃ parameter', replaceSubvol subvolume parameter = some parameter' ∧
      Selects subvolume parameter (dropMode parameter') := by
  obtain ⟨options, rfl⟩ := exists_options hroot
  obtain ⟨before, old, after, hoptions, hothers, hold, hafter⟩ := h
  have hcommas : ∀ option ∈ rootflagsOptions (rootflagsText ++ options), ',' ∉ option :=
    fun option hoption => (mem_splitAux List.not_mem_nil hoption).1
  rw [rootflagsOptions_append] at hcommas hoptions
  obtain ⟨start, rest, haround, hrest⟩ := exists_intercalate ',' before after
  have htext : options = start ++ subvolText ++ (old ++ rest) := by
    have hjoin := intercalate_splitAux ',' options []
    rw [hoptions, haround] at hjoin
    simpa using hjoin.symm
  rw [hoptions] at hcommas
  rw [List.forall_mem_append, List.forall_mem_cons, List.mem_append, not_or] at hcommas
  have hlast : lastSubvol (old ++ rest) = none := by
    rw [lastSubvol_eq_none_iff]
    rcases hrest with ⟨rfl, rfl⟩ | rfl
    · rwa [List.append_nil]
    · rw [infix_append_cons_iff (by decide) (by decide), not_or,
        infix_intercalate_iff (by decide) (by decide)]
      exact ⟨hold, fun ⟨option, hoption, hinf⟩ => hafter option hoption hinf⟩
  have hdrop : (old ++ rest).dropWhile (· != ',') = rest := by
    have hno : ∀ c ∈ old, (c != ',') = true := by
      intro c hc
      rw [bne_iff_ne]
      rintro rfl
      exact hcommas.2.1.2 hc
    rw [List.dropWhile_append_of_pos hno]
    rcases hrest with ⟨-, rfl⟩ | rfl
    · rfl
    · rw [List.dropWhile_cons_of_neg (by decide)]
  have hchanged : replaceSubvol subvolume (rootflagsText ++ options) =
      some (rootflagsText ++ [','].intercalate (before ++ (subvolText ++ subvolume) :: after)) := by
    rw [List.forall_mem_append] at hblank
    rw [replaceSubvol_rootflags hblank.2]
    nth_rewrite 1 [htext]
    rw [lastSubvol_append hlast, Option.map_some, hdrop, haround]
    simp only [List.append_assoc]
  have hnew : splitAux [','] ([','].intercalate (before ++ (subvolText ++ subvolume) :: after)) 0 [] =
      before ++ (subvolText ++ subvolume) :: after := by
    refine splitAux_intercalate (by simp) ?_
    rw [List.forall_mem_append, List.forall_mem_cons, List.mem_append, not_or]
    exact ⟨hcommas.1, ⟨by decide, hplain.comma⟩, hcommas.2.2⟩
  have hsubvolume : dropMode (subvolText ++ subvolume) = subvolText ++ subvolume := by
    have hdropped := dropMode_subvolume [] subvolume
    rw [hplain.mode] at hdropped
    exact hdropped
  have hsame : ∀ {others : List (List Char)}, (∀ option ∈ others, ¬HasMode option) →
      others.map dropMode = others := fun h => (List.map_congr_left fun option hoption =>
    dropMode_eq_self_iff.mpr (h option hoption)).trans (List.map_id _)
  rw [List.forall_mem_append] at hothers
  have hparameter : rootflagsOptions (dropMode (rootflagsText ++
      [','].intercalate (before ++ (subvolText ++ subvolume) :: after))) =
        before ++ (subvolText ++ subvolume) :: after := by
    rw [rootflagsOptions_dropMode, hnew, List.map_append, List.map_cons, hsubvolume,
      hsame fun option hoption => (hothers.1 option hoption).2,
      hsame fun option hoption => (hothers.2 option hoption).2]
  have hbefore : before.filter isSubvolumeOption = [] := by
    rw [List.filter_eq_nil_iff]
    exact fun option hoption => by simp [(hothers.1 option hoption).1]
  have hafter' : after.filter isSubvolumeOption = [] := by
    rw [List.filter_eq_nil_iff]
    exact fun option hoption => by simp [(hothers.2 option hoption).1]
  refine ⟨_, hchanged, ?_, ?_, ?_⟩
  · rw [dropMode_rootflags]
    exact isRootflags_append _
  · rw [hparameter, List.filter_append, List.filter_cons_of_pos (isSubvolumeOption_append _), hbefore,
      hafter', List.nil_append]
  · rw [hparameter, rootflagsOptions_append, hoptions, List.filter_append, List.filter_append,
      List.filter_cons_of_neg (by simp [isSubvolumeOption_append]),
      List.filter_cons_of_neg (by simp [isSubvolumeOption_append])]

/-- Parameters that do not depend on the snapshot do not select it. -/
theorem not_selects (parameter parameter' : Parameter) :
    ¬∀ number, Selects (snapshotSubvolume number).toList parameter parameter' := by
  intro h
  have heq := (h 0).subvolumes.symm.trans (h 1).subvolumes
  rw [List.cons.injEq, List.append_cancel_left_eq] at heq
  exact absurd (snapshotSubvolume_inj heq.1) (by decide)

/-- The options around the last mention of a subvolume. -/
theorem exists_options_around (between : List Char) {after : List Char}
    (hafter : after = [] ∨ ∃ after', after = ',' :: after') :
    ∃ before option others, (∀ value, ',' ∉ value →
      splitAux [','] (between ++ subvolText ++ value ++ after) 0 [] =
        before ++ (option ++ subvolText ++ value) :: others) ∧
      (∀ text, text ≠ [] → ',' ∉ text → ∀ found ∈ others, text <:+: found → text <:+: after) := by
  obtain ⟨before, option, -, happend⟩ := exists_splitAux_append ',' between []
  have hvalue : ∀ value, ',' ∉ value → splitAux [','] (between ++ (subvolText ++ value)) 0 [] =
      before ++ [option ++ (subvolText ++ value)] := by
    intro value hvalue
    refine happend _ ?_
    rw [List.mem_append, not_or]
    exact ⟨by decide, hvalue⟩
  rcases hafter with rfl | ⟨after, rfl⟩
  · refine ⟨before, option, [], fun value hno => ?_, by simp⟩
    rw [List.append_nil, List.append_assoc, hvalue value hno, List.append_assoc]
  · refine ⟨before, option, splitAux [','] after 0 [], fun value hno => ?_, ?_⟩
    · rw [splitAux_separator, List.append_assoc between, hvalue value hno]
      simp only [List.append_assoc, List.singleton_append]
    · intro text hne hcomma found hfound hinf
      have hjoin := intercalate_splitAux ',' after []
      rw [List.reverse_nil, List.nil_append] at hjoin
      have hafter : text <:+: after := by
        rw [← hjoin, infix_intercalate_iff hcomma hne]
        exact ⟨found, hfound, hinf⟩
      exact hafter.trans (List.suffix_cons _ _).isInfix

/-- A parameter that selects every snapshot after its edit has one subvolume among its options. -/
theorem oneSubvolume_of_selects {parameter : Parameter} (hroot : isRootflags parameter)
    (hblank : ∀ c ∈ parameter, isBlank c = false)
    (h : ∀ number, ∃ parameter',
      replaceSubvol (snapshotSubvolume number).toList parameter = some parameter' ∧
        Selects (snapshotSubvolume number).toList parameter (dropMode parameter')) :
    OneSubvolume (rootflagsOptions parameter) := by
  obtain ⟨options, rfl⟩ := exists_options hroot
  rw [List.forall_mem_append] at hblank
  have hchanged := replaceSubvol_rootflags hblank.2
  cases hlast : lastSubvol options with
  | none =>
    obtain ⟨parameter', hsome, -⟩ := h 0
    rw [hchanged, hlast] at hsome
    cases hsome
  | some parts =>
    obtain ⟨between, text⟩ := parts
    obtain ⟨hoptions, hnone⟩ := lastSubvol_eq_some hlast
    have hafter : text.dropWhile (· != ',') = [] ∨ ∃ after', text.dropWhile (· != ',') = ',' :: after' := by
      cases hrest : text.dropWhile (· != ',') with
      | nil => exact .inl rfl
      | cons c rest =>
        have hhead := List.head?_dropWhile_not (· != ',') text
        rw [hrest] at hhead
        exact .inr ⟨rest, by rw [show c = ',' by simpa using hhead]⟩
    have hold : ',' ∉ text.takeWhile (· != ',') := fun hmem => by
      simpa using List.mem_takeWhile_imp hmem
    obtain ⟨before, option, others, haround, hinf⟩ := exists_options_around between hafter
    have htext : options = between ++ subvolText ++ text.takeWhile (· != ',') ++ text.dropWhile (· != ',') := by
      rw [List.append_assoc _ _ (text.dropWhile _), List.takeWhile_append_dropWhile, hoptions]
    have hoptions' : rootflagsOptions (rootflagsText ++ options) =
        before ++ (option ++ subvolText ++ text.takeWhile (· != ',')) :: others := by
      rw [rootflagsOptions_append, ← haround _ hold, ← htext]
    have hselects : ∀ number, Selects (snapshotSubvolume number).toList (rootflagsText ++ options)
        (dropMode (rootflagsText ++ (between ++ subvolText ++ (snapshotSubvolume number).toList ++
          text.dropWhile (· != ',')))) := by
      intro number
      obtain ⟨parameter', hsome, hselect⟩ := h number
      rw [hchanged, hlast, Option.map_some, Option.some.injEq] at hsome
      rw [← hsome] at hselect
      simpa only [List.append_assoc] using hselect
    have hnew : ∀ number, rootflagsOptions (dropMode (rootflagsText ++ (between ++ subvolText ++
        (snapshotSubvolume number).toList ++ text.dropWhile (· != ',')))) =
          before.map dropMode ++ (dropMode (option ++ ['s', 'u', 'b', 'v', 'o', 'l']) ++
            '=' :: (snapshotSubvolume number).toList) :: others.map dropMode := by
      intro number
      have hplain := isPlain_snapshotSubvolume number
      rw [rootflagsOptions_dropMode, haround _ hplain.comma, List.map_append, List.map_cons,
        dropMode_subvolume, hplain.mode]
    obtain rfl : option = [] := by
      by_contra hne
      have hword : ∀ number, isSubvolumeOption (dropMode (option ++ ['s', 'u', 'b', 'v', 'o', 'l']) ++
          '=' :: (snapshotSubvolume number).toList) = false := by
        intro number
        by_contra hsubvolume
        rw [Bool.not_eq_false] at hsubvolume
        have hmem := List.mem_filter.mpr ⟨List.mem_append_right (before.map dropMode)
          (List.mem_cons_self (l := others.map dropMode)), hsubvolume⟩
        rw [← hnew, (hselects number).subvolumes, List.mem_singleton] at hmem
        have htext : subvolText ++ (snapshotSubvolume number).toList =
            ['s', 'u', 'b', 'v', 'o', 'l'] ++ '=' :: (snapshotSubvolume number).toList := rfl
        rw [htext, List.append_cancel_right_eq] at hmem
        rcases dropMode_eq_word (by decide) hmem with hsame | ⟨-, hempty⟩
        · exact hne (by simpa using hsame)
        · cases hempty
      have heq := (hselects 0).others.trans (hselects 1).others.symm
      rw [hnew, hnew, List.filter_append, List.filter_append,
        List.filter_cons_of_pos (by rw [hword]; rfl), List.filter_cons_of_pos (by rw [hword]; rfl),
        List.append_cancel_left_eq, List.cons.injEq, List.append_cancel_left_eq, List.cons.injEq] at heq
      exact absurd (snapshotSubvolume_inj heq.1.2) (by decide)
    have hmiddle : ∀ number, dropMode ([] ++ ['s', 'u', 'b', 'v', 'o', 'l']) ++
        '=' :: (snapshotSubvolume number).toList = subvolText ++ (snapshotSubvolume number).toList :=
      fun _ => rfl
    have hsubvolumes := (hselects 0).subvolumes
    have hothers := (hselects 0).others
    rw [hnew, hmiddle, List.filter_append, List.filter_cons_of_pos (isSubvolumeOption_append _)]
      at hsubvolumes
    rw [hnew, hmiddle, hoptions', List.nil_append, List.filter_append, List.filter_append,
      List.filter_cons_of_neg (by simp [isSubvolumeOption_append]),
      List.filter_cons_of_neg (by simp [isSubvolumeOption_append])] at hothers
    have hlengths := congrArg List.length hsubvolumes
    rw [List.length_append, List.length_cons, List.length_singleton] at hlengths
    have hno : ∀ options : List (List Char),
        ((options.map dropMode).filter isSubvolumeOption).length = 0 →
          (∀ option ∈ options, isSubvolumeOption option = false) ∧
            (options.map dropMode).filter (!isSubvolumeOption ·) = options.map dropMode ∧
              options.filter (!isSubvolumeOption ·) = options := by
      intro options hempty
      rw [List.length_eq_zero_iff, List.filter_eq_nil_iff, List.forall_mem_map] at hempty
      have hoption : ∀ option ∈ options, isSubvolumeOption option = false := by
        intro option hoption
        by_contra hsubvolume
        rw [Bool.not_eq_false] at hsubvolume
        exact hempty option hoption (isSubvolumeOption_dropMode hsubvolume)
      refine ⟨hoption, ?_, ?_⟩
      · rw [List.filter_eq_self, List.forall_mem_map]
        intro option hmem
        simpa using hempty option hmem
      · rw [List.filter_eq_self]
        intro option hmem
        rw [hoption option hmem]
        rfl
    obtain ⟨hbefore, hfilter, hfilter'⟩ := hno before (by omega)
    obtain ⟨hafter', hfilter₂, hfilter₂'⟩ := hno others (by omega)
    rw [hfilter, hfilter', hfilter₂, hfilter₂'] at hothers
    obtain ⟨hsame, hsame'⟩ := List.append_inj hothers (List.length_map _)
    have hmode : ∀ {options : List (List Char)}, options.map dropMode = options →
        ∀ option ∈ options, ¬HasMode option := by
      intro options hmap option hoption
      rw [← dropMode_eq_self_iff]
      exact List.map_inj_left.mp (hmap.trans (List.map_id _).symm) option hoption
    have hinf' : ¬subvolText <:+: text := lastSubvol_eq_none_iff.mp hnone
    refine ⟨before, text.takeWhile (· != ','), others, hoptions', ?_, fun hfound => hinf' ?_,
      fun found hfound hfound' => hinf' ?_⟩
    · rw [List.forall_mem_append]
      exact ⟨fun found hfound => ⟨hbefore found hfound, hmode hsame found hfound⟩,
        fun found hfound => ⟨hafter' found hfound, hmode hsame' found hfound⟩⟩
    · exact hfound.trans (List.takeWhile_prefix _).isInfix
    · exact (hinf _ (by decide) (by decide) found hfound hfound').trans
        (List.dropWhile_suffix _).isInfix

/-! ## The result -/

theorem hasLuks_cons {c : Char} {cs : List Char} (h : hasLuks cs) : hasLuks (c :: cs) := by
  rw [hasLuks.eq_def]
  split
  · next heq =>
    rw [(List.cons.inj heq).2] at h
    rw [h, Bool.or_true]
  · next heq =>
    rw [(List.cons.inj heq).2] at h
    exact h
  · next heq => cases heq

theorem hasLuks_of_infix {line : List Char} (h : "rd.luks".toList <:+: line) : hasLuks line := by
  induction line with
  | nil => simp at h
  | cons c cs ih =>
    rcases List.infix_cons_iff.mp h with ⟨rest, hrest⟩ | h
    · rw [← hrest]
      rfl
    · exact hasLuks_cons (ih h)

theorem replaceSubvol_not_blank {parameter parameter' : Parameter} {subvolume : List Char}
    (hblank : ∀ c ∈ parameter, isBlank c = false) (hplain : ∀ c ∈ subvolume, isBlank c = false)
    (h : replaceSubvol subvolume parameter = some parameter') : ∀ c ∈ parameter', isBlank c = false := by
  rcases replaceSubvol_cases hblank with ⟨-, hnone⟩ | ⟨before, old, after, rfl, -, -, hsome⟩
  · rw [hnone] at h
    cases h
  · rw [hsome] at h
    cases h
    simp only [List.forall_mem_append] at hblank ⊢
    exact ⟨⟨⟨hblank.1.1.1, hblank.1.1.2⟩, hplain⟩, hblank.2⟩

theorem withRootflags_not_blank {parameters : List Parameter} {subvolume : List Char}
    (h : ∀ parameter ∈ parameters, ∀ c ∈ parameter, isBlank c = false)
    (hplain : ∀ c ∈ subvolume, isBlank c = false) :
    ∀ parameter ∈ withRootflags subvolume parameters, ∀ c ∈ parameter, isBlank c = false := by
  rw [withRootflags]
  split
  · rcases edited_cases h with ⟨-, heq⟩ | ⟨before, parameter, after, rfl, -, hchanged⟩
    · rwa [heq]
    · obtain ⟨parameter', hsome, heq⟩ := hchanged subvolume
      rw [List.forall_mem_append, List.forall_mem_cons] at h
      rw [heq, List.forall_mem_append, List.forall_mem_cons]
      exact ⟨h.1, replaceSubvol_not_blank h.2.1 hplain hsome, h.2.2⟩
  · rw [List.forall_mem_append, List.forall_mem_singleton]
    simp only [List.forall_mem_append]
    exact ⟨h, ⟨forall_mem_of_all (by decide), forall_mem_of_all (by decide)⟩, hplain⟩

/-- The parameters of a command line. -/
theorem parameters_buildSnapshotCmdline {sources : CmdlineSources} {parameters : List Parameter}
    {subvolume mode : String} (h : ∀ parameter ∈ parameters, IsParameter parameter)
    (hluks : ∃ parameter ∈ parameters, "rd.luks".toList <+: parameter)
    (hbase : (baseCmdline sources).toList = [' '].intercalate parameters)
    (hplain : ∀ c ∈ subvolume.toList, isBlank c = false) (hmode : mode = "ro" ∨ mode = "rw") :
    LineEditing.parameters (buildSnapshotCmdline sources subvolume mode).toList =
      dropModes (withRootflags subvolume.toList parameters) ++ [mode.toList] := by
  obtain ⟨parameter, hparameter, hstart⟩ := hluks
  have hne := List.ne_nil_of_mem hparameter
  have hfound : hasLuks (baseCmdline sources).toList := by
    refine hasLuks_of_infix ?_
    rw [hbase, infix_intercalate_iff (by decide) (by decide)]
    exact ⟨parameter, hparameter, hstart.isInfix⟩
  have hbase' : withLuks sources.luksUuid (baseCmdline sources) = baseCmdline sources :=
    if_pos hfound
  have hblank := fun parameter hparameter => (h parameter hparameter).blank
  have hleft := withoutMode_toList (withRootflags_not_blank hblank hplain)
    (withSubvolume_toList h hne hbase)
  have hro : " ro".toList = ' ' :: "ro".toList := rfl
  have hrw : " rw".toList = ' ' :: "rw".toList := rfl
  rw [buildSnapshotCmdline, hbase']
  rcases hmode with rfl | rfl
  · rw [if_pos (by rfl), String.toList_append, hro, parameters_append, hleft]
    rfl
  · rw [if_neg (by decide), String.toList_append, hrw, parameters_append, hleft]
    rfl

/-- What is kept of parameters is kept in their order. -/
theorem forall₂_dropModes_iff {R : Parameter → Parameter → Prop}
    {parameters parameters' : List Parameter}
    (h : List.Forall₂ (fun parameter parameter' => isMode parameter ↔ dropMode parameter' = [])
      parameters parameters') :
    List.Forall₂ R (parameters.filter (!isMode ·)) (dropModes parameters') ↔
      List.Forall₂ (fun parameter parameter' =>
        isMode parameter = false → R parameter (dropMode parameter')) parameters parameters' := by
  induction h with
  | nil => simp [dropModes]
  | @cons parameter parameter' parameters parameters' hhead htail ih =>
    rw [dropModes] at ih ⊢
    rw [List.map_cons, List.forall₂_cons, ← ih]
    cases hmode : isMode parameter with
    | true =>
      rw [List.filter_cons_of_neg (by simp [hmode]),
        List.filter_cons_of_neg (by simp [hhead.mp hmode])]
      simp
    | false =>
      have hne : dropMode parameter' ≠ [] := fun hnil => by
        rw [hhead.mpr hnil] at hmode
        cases hmode
      rw [List.filter_cons_of_pos (by simp [hmode]), List.filter_cons_of_pos (by simp [hne]),
        List.forall₂_cons]
      simp

theorem isRootflags_infix {parameter : Parameter} (h : isRootflags parameter) :
    rootflagsText <:+: parameter :=
  (List.isPrefixOf_iff_prefix.mp h).isInfix

theorem isMode_of_isRootflags {parameter : Parameter} (h : isRootflags parameter) :
    isMode parameter = false := by
  obtain ⟨options, rfl⟩ := exists_options h
  rfl

/-- An edited parameter is not a mode, and does not become one. -/
theorem mode_of_replaceSubvol {parameter parameter' : Parameter} {subvolume : List Char}
    (hblank : ∀ c ∈ parameter, isBlank c = false)
    (h : replaceSubvol subvolume parameter = some parameter') :
    isMode parameter ↔ dropMode parameter' = [] := by
  have hlong : ∀ before value after, isMode (before ++ subvolText ++ value ++ after) = false := by
    intro before value after
    by_contra hmode
    rw [Bool.not_eq_false, isMode, Bool.or_eq_true, beq_iff_eq, beq_iff_eq] at hmode
    have hlength : (before ++ subvolText ++ value ++ after).length = 2 := by
      rcases hmode with hmode | hmode <;> rw [hmode] <;> rfl
    simp only [List.length_append, subvolText, List.length_cons] at hlength
    omega
  rcases replaceSubvol_cases hblank with ⟨-, hnone⟩ | ⟨before, old, after, rfl, -, -, hsome⟩
  · rw [hnone] at h
    cases h
  · rw [hsome] at h
    cases h
    rw [dropMode_eq_nil_iff (by simp [subvolText]), hlong, hlong]

theorem modes_edited {parameters : List Parameter}
    (h : ∀ parameter ∈ parameters, IsParameter parameter) (subvolume : List Char) :
    List.Forall₂ (fun parameter parameter' => isMode parameter ↔ dropMode parameter' = [])
      parameters (edited subvolume parameters) := by
  induction parameters with
  | nil => exact .nil
  | cons parameter parameters ih =>
    rw [List.forall_mem_cons] at h
    rw [edited]
    split
    · next parameter' hchanged =>
      refine .cons (mode_of_replaceSubvol h.1.blank hchanged) (List.forall₂_same.mpr ?_)
      exact fun other hother => (dropMode_eq_nil_iff (h.2 other hother).nonempty).symm
    · exact .cons (dropMode_eq_nil_iff h.1.nonempty).symm (ih h.2)

/-- What becomes of parameters when nothing is found among them. -/
theorem bootsSnapshot_added_iff {parameters : List Parameter} {subvolume mode : List Char}
    (h : ∀ parameter ∈ parameters, IsParameter parameter) (hplain : IsPlain subvolume)
    (hno : ¬∃ parameter ∈ parameters, rootflagsText <:+: parameter) :
    BootsSnapshot parameters subvolume mode
        (dropModes (withRootflags subvolume parameters) ++ [mode]) ↔
      ∀ parameter ∈ parameters, isMode parameter = false → ¬HasMode parameter := by
  have hroot : ∀ parameter ∈ parameters, isRootflags parameter = false := by
    intro parameter hparameter
    by_contra hroot
    rw [Bool.not_eq_false] at hroot
    exact hno ⟨parameter, hparameter, isRootflags_infix hroot⟩
  have hany : parameters.any isRootflags = false := by
    rw [List.any_eq_false]
    exact fun parameter hparameter => by simp [hroot parameter hparameter]
  have hadded : dropModes (parameters ++ [rootflagsText ++ subvolText ++ subvolume]) =
      dropModes parameters ++ [rootflagsText ++ subvolText ++ subvolume] := by
    have hdropped : dropMode (rootflagsText ++ subvolText ++ subvolume) =
        rootflagsText ++ subvolText ++ subvolume := by
      rw [dropMode_subvolume, hplain.mode]
      rfl
    rw [dropModes, List.map_append, List.map_singleton, hdropped, List.filter_append]
    rfl
  have hkept := forall₂_dropModes_iff (R := Follows subvolume) (List.forall₂_same.mpr fun parameter hparameter =>
    (dropMode_eq_nil_iff (h parameter hparameter).nonempty).symm)
  rw [withRootflags, if_neg hno, hadded, BootsSnapshot, hany]
  simp only [Bool.false_eq_true, if_false, List.append_cancel_right_eq, exists_eq_right']
  rw [hkept, List.forall₂_same]
  refine forall₂_congr fun parameter hparameter => ?_
  rw [Follows, if_neg (by simp [hroot parameter hparameter]), dropMode_eq_self_iff]

/-- What becomes of parameters with root options. -/
theorem bootsSnapshot_edited_iff {parameters : List Parameter} {subvolume mode : List Char}
    (h : ∀ parameter ∈ parameters, IsParameter parameter)
    (hfound : ∃ parameter ∈ parameters, rootflagsText <:+: parameter) :
    BootsSnapshot parameters subvolume mode
        (dropModes (withRootflags subvolume parameters) ++ [mode]) ↔
      parameters.any isRootflags ∧ List.Forall₂ (fun parameter parameter' =>
        isMode parameter = false → Follows subvolume parameter (dropMode parameter'))
          parameters (edited subvolume parameters) := by
  have hkept := fun R => forall₂_dropModes_iff (R := R) (modes_edited h subvolume)
  rw [withRootflags, if_pos hfound, BootsSnapshot]
  cases hany : parameters.any isRootflags with
  | true =>
    simp only [if_true, List.append_nil, List.append_cancel_right_eq, exists_eq_right', true_and]
    exact hkept _
  | false =>
    simp only [Bool.false_eq_true, if_false, List.append_cancel_right_eq, false_and, iff_false]
    rintro ⟨kept, hforall, heq⟩
    have hlength := (hkept fun _ _ => True).mpr (by
      refine (modes_edited h subvolume).imp ?_
      intro _ _ _ _
      trivial)
    have hlength' := congrArg List.length heq
    rw [List.length_append, List.length_singleton, ← hforall.length_eq, ← hlength.length_eq] at hlength'
    omega

theorem forall₂_edited_iff {Q : Parameter → Parameter → Prop} {before after : List Parameter}
    {parameter parameter' : Parameter} :
    List.Forall₂ Q (before ++ parameter :: after) (before ++ parameter' :: after) ↔
      (∀ other ∈ before ++ after, Q other other) ∧ Q parameter parameter' := by
  induction before with
  | nil =>
    rw [List.nil_append, List.nil_append, List.nil_append, List.forall₂_cons, List.forall₂_same]
    exact and_comm
  | cons first before ih =>
    rw [List.cons_append, List.cons_append, List.forall₂_cons, ih, List.cons_append,
      List.forall_mem_cons, and_assoc]

/-- With root options, every snapshot is booted when they are the only ones taken for them. -/
theorem bootsSnapshots_iff {parameters : List Parameter}
    (h : ∀ parameter ∈ parameters, IsParameter parameter) (mode : List Char) :
    (∀ number,
        BootsSnapshot parameters (snapshotSubvolume number).toList mode
          (dropModes (withRootflags (snapshotSubvolume number).toList parameters) ++ [mode])) ↔
      PlainBase parameters := by
  have hblank := fun parameter hparameter => (h parameter hparameter).blank
  by_cases hfound : ∃ parameter ∈ parameters, rootflagsText <:+: parameter
  · simp only [bootsSnapshot_edited_iff h hfound]
    constructor
    · intro hboots
      have hfollows := fun number => (hboots number).2
      obtain ⟨root, hmem, hroot⟩ := List.any_eq_true.mp (hboots 0).1
      rcases edited_cases hblank with ⟨-, heq⟩ | ⟨before, parameter, after, rfl, hbefore, hchanged⟩
      · refine absurd (fun number => ?_) (not_selects root (dropMode root))
        have hfollow := hfollows number
        rw [heq, List.forall₂_same] at hfollow
        simpa [Follows, hroot] using hfollow root hmem (isMode_of_isRootflags hroot)
      · have hsplit : ∀ number, (∀ other ∈ before ++ after, isMode other = false →
            Follows (snapshotSubvolume number).toList other (dropMode other)) ∧
              ∃ parameter', replaceSubvol (snapshotSubvolume number).toList parameter =
                some parameter' ∧ (isMode parameter = false →
                  Follows (snapshotSubvolume number).toList parameter (dropMode parameter')) := by
          intro number
          obtain ⟨parameter', hsome, heq⟩ := hchanged (snapshotSubvolume number).toList
          have hfollow := hfollows number
          rw [heq, forall₂_edited_iff] at hfollow
          exact ⟨hfollow.1, parameter', hsome, hfollow.2⟩
        have hothers : ∀ other ∈ before ++ after, isRootflags other = false := by
          intro other hother
          by_contra hotherRoot
          rw [Bool.not_eq_false] at hotherRoot
          refine not_selects other (dropMode other) fun number => ?_
          simpa [Follows, hotherRoot] using
            (hsplit number).1 other hother (isMode_of_isRootflags hotherRoot)
        have hparameter : isRootflags parameter := by
          rw [List.mem_append, List.mem_cons] at hmem
          by_cases heq : root = parameter
          · rwa [← heq]
          · rw [hothers root (by rw [List.mem_append]; tauto)] at hroot
            cases hroot
        refine ⟨fun other hother hmode hno => ?_, fun _ =>
          ⟨before, parameter, after, rfl, hparameter, hbefore, hothers, ?_⟩⟩
        · have hother' : other ∈ before ++ after := by
            rw [List.mem_append, List.mem_cons] at hother
            rw [List.mem_append]
            rcases hother with hother | rfl | hother
            · exact .inl hother
            · rw [hparameter] at hno
              cases hno
            · exact .inr hother
          rw [← dropMode_eq_self_iff]
          simpa [Follows, hno] using (hsplit 0).1 other hother' hmode
        · refine oneSubvolume_of_selects hparameter (hblank parameter (by simp)) fun number => ?_
          obtain ⟨-, parameter', hsome, hfollow⟩ := hsplit number
          refine ⟨parameter', hsome, ?_⟩
          simpa [Follows, hparameter] using hfollow (isMode_of_isRootflags hparameter)
    · rintro ⟨hothers, hroot⟩ number
      obtain ⟨before, parameter, after, rfl, hparameter, hbefore, hno, hone⟩ := hroot hfound
      obtain ⟨parameter', hsome, hselects⟩ := selects_of_oneSubvolume
        (isPlain_snapshotSubvolume number) hparameter (hblank parameter (by simp)) hone
      have hnone : ∀ other ∈ before, replaceSubvol (snapshotSubvolume number).toList other = none := by
        intro other hother
        rcases replaceSubvol_cases (hblank other (by simp [hother])) with
          ⟨-, hnone⟩ | ⟨-, -, -, -, hmentions, -, -⟩
        · exact hnone _
        · exact absurd hmentions (hbefore other hother)
      rw [edited_append hnone hsome, forall₂_edited_iff]
      refine ⟨by simp [hparameter], fun other hother hmode => ?_, fun _ => ?_⟩
      · have hmem : other ∈ before ++ parameter :: after := by
          rw [List.mem_append, List.mem_cons]
          rcases List.mem_append.mp hother with hother | hother
          · exact .inl hother
          · exact .inr (.inr hother)
        rw [Follows, if_neg (by simp [hno other hother])]
        exact dropMode_eq_self_iff.mpr (hothers other hmem hmode (hno other hother))
      · rw [Follows, if_pos hparameter]
        exact hselects
  · simp only [bootsSnapshot_added_iff h (isPlain_snapshotSubvolume _) hfound]
    constructor
    · intro hboots
      exact ⟨fun parameter hparameter hmode _ => hboots 0 parameter hparameter hmode,
        fun h => absurd h hfound⟩
    · rintro ⟨hothers, -⟩ - parameter hparameter hmode
      refine hothers parameter hparameter hmode ?_
      by_contra hroot
      rw [Bool.not_eq_false] at hroot
      exact hfound ⟨parameter, hparameter, isRootflags_infix hroot⟩

/-- A command line boots every snapshot, in both modes, when the patterns match in it what they are
meant for. -/
theorem buildSnapshotCmdline_boots_iff {sources : CmdlineSources} {parameters : List Parameter}
    (h : ∀ parameter ∈ parameters, IsParameter parameter)
    (hluks : ∃ parameter ∈ parameters, "rd.luks".toList <+: parameter)
    (hbase : (baseCmdline sources).toList = [' '].intercalate parameters) :
    (∀ number mode, mode = "ro" ∨ mode = "rw" →
        BootsSnapshot parameters (snapshotSubvolume number).toList mode.toList
          (LineEditing.parameters
            (buildSnapshotCmdline sources (snapshotSubvolume number) mode).toList)) ↔
      PlainBase parameters := by
  have hparameters := fun number mode (hmode : mode = "ro" ∨ mode = "rw") =>
    parameters_buildSnapshotCmdline h hluks hbase (isPlain_snapshotSubvolume number).blank hmode
  constructor
  · intro hboots
    refine (bootsSnapshots_iff h "rw".toList).mp fun number => ?_
    rw [← hparameters number "rw" (.inr rfl)]
    exact hboots number "rw" (.inr rfl)
  · intro hplain number mode hmode
    rw [hparameters number mode hmode]
    exact (bootsSnapshots_iff h mode.toList).mpr hplain number

/-- A command line as the installer writes it. -/
def installed (rootflags : String) : List Parameter :=
  ["rd.luks.name=1f=cryptroot".toList, "root=/dev/mapper/cryptroot".toList, "rw".toList,
    ("rootflags=" ++ rootflags).toList, "quiet".toList]

/-- The sources of a command line that the installer has written. -/
def generated (rootflags : String) : CmdlineSources :=
  { generated := some (String.ofList ([' '].intercalate (installed rootflags))),
    configured := none, running := none, luksUuid := none }

theorem isParameter_installed (rootflags : String)
    (h : (installed rootflags).all fun parameter => parameter != [] && parameter.all (!isBlank ·)) :
    ∀ parameter ∈ installed rootflags, IsParameter parameter := by
  intro parameter hparameter
  have hall := List.all_eq_true.mp h parameter hparameter
  rw [Bool.and_eq_true, bne_iff_ne, List.all_eq_true] at hall
  exact ⟨hall.1, fun c hc => by simpa using hall.2 c hc⟩

theorem buildSnapshotCmdline_boots_iff_installed :
    BootsSnapshot (installed "subvol=@,noatime") (snapshotSubvolume 7).toList "rw".toList
      (LineEditing.parameters (buildSnapshotCmdline (generated "subvol=@,noatime")
        (snapshotSubvolume 7) "rw").toList) := by
  have hparameters := isParameter_installed "subvol=@,noatime" (by decide)
  have hbase : (baseCmdline (generated "subvol=@,noatime")).toList =
      [' '].intercalate (installed "subvol=@,noatime") := String.toList_ofList
  refine (buildSnapshotCmdline_boots_iff hparameters ⟨_, .head _, by decide⟩ hbase).mpr
    ⟨?_, fun _ => ?_⟩ 7 "rw" (.inr rfl)
  · simp only [← dropMode_eq_self_iff]
    decide
  · refine ⟨(installed "").take 3, "rootflags=subvol=@,noatime".toList, ["quiet".toList], rfl,
      by decide, fun parameter hparameter => ?_, by decide, [], ['@'],
      ["noatime".toList], by decide, ?_, by decide, by decide⟩
    · have hblank : ∀ parameter ∈ (installed "").take 3, ∀ c ∈ parameter, isBlank c = false :=
        fun parameter hparameter => (isParameter_installed "" (by decide)
          parameter (List.mem_of_mem_take hparameter)).2
      have hnone : ∀ parameter ∈ (installed "").take 3, replaceSubvol [] parameter = none := by
        decide
      rcases replaceSubvol_cases (hblank parameter hparameter) with
        ⟨hno, -⟩ | ⟨_, _, _, -, -, -, hsome⟩
      · exact hno
      · have hnone' := hnone parameter hparameter
        rw [hsome] at hnone'
        cases hnone'
    · simp only [← dropMode_eq_self_iff]
      decide

/-- Root options without a subvolume are left as they are. -/
theorem not_bootsSnapshot : ¬∀ (sources : CmdlineSources) (parameters : List Parameter),
    (∀ parameter ∈ parameters, IsParameter parameter) →
    (∃ parameter ∈ parameters, "rd.luks".toList <+: parameter) →
    (baseCmdline sources).toList = [' '].intercalate parameters →
    ∀ number mode, mode = "ro" ∨ mode = "rw" →
      BootsSnapshot parameters (snapshotSubvolume number).toList mode.toList
        (LineEditing.parameters
          (buildSnapshotCmdline sources (snapshotSubvolume number) mode).toList) := by
  intro h
  have hparameters := isParameter_installed "noatime" (by decide)
  obtain ⟨kept, hforall, heq⟩ := h (generated "noatime") (installed "noatime") hparameters
    ⟨_, .head _, by decide⟩ String.toList_ofList 0 "rw" (.inr rfl)
  have heval : LineEditing.parameters (buildSnapshotCmdline (generated "noatime")
      (snapshotSubvolume 0) "rw").toList = ["rd.luks.name=1f=cryptroot".toList,
        "root=/dev/mapper/cryptroot".toList, "rootflags=noatime".toList, "quiet".toList] ++
          [] ++ ["rw".toList] := by
    decide +kernel
  have hany : (installed "noatime").any isRootflags := by decide
  rw [heval, hany, if_pos rfl, List.append_cancel_right_eq, List.append_cancel_right_eq] at heq
  have hfilter : (installed "noatime").filter (!isMode ·) = ["rd.luks.name=1f=cryptroot".toList,
      "root=/dev/mapper/cryptroot".toList, "rootflags=noatime".toList, "quiet".toList] := by
    decide
  rw [hfilter, ← heq] at hforall
  simp only [List.forall₂_cons] at hforall
  have hroot := hforall.2.2.1
  rw [Follows, if_pos (by decide)] at hroot
  have hno : (rootflagsOptions "rootflags=noatime".toList).filter isSubvolumeOption = [] := by
    decide
  rw [hroot.subvolumes] at hno
  cases hno

end ArchInstaller.SnapshotEntries
