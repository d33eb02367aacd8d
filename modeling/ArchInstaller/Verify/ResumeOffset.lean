import ArchInstaller.Config.Sample
import ArchInstaller.Core.Runs
import ArchInstaller.Executors.Boot
import ArchInstaller.Python.Fields
import ArchInstaller.World.Presets

/-! # Where the swapfile starts

Without an answer of `btrfs`, the offset is taken from `filefrag -v`. The fallback takes the fourth word of the first extent line. A column that its number fills joins
two words into one, and the fourth word is then another number. -/

namespace ArchInstaller.Filefrag

open Interaction PyText Script

/-! ## Listings -/

/-- A number and the blanks before it. -/
structure Column where
  blanks : Nat
  number : Nat

def Column.text (column : Column) : String :=
  String.ofList (List.replicate column.blanks ' ') ++ toString column.number

/-- The line of an extent. -/
structure Extent where
  index : Column
  logicalStart : Column
  logicalEnd : Column
  physicalStart : Column
  physicalEnd : Column
  length : Column
  flags : String
  oneLine : '\n' ∉ flags.toList

def Extent.text (extent : Extent) : String :=
  extent.index.text ++ ": " ++ extent.logicalStart.text ++ ".." ++ extent.logicalEnd.text ++ ": " ++
    extent.physicalStart.text ++ ".." ++ extent.physicalEnd.text ++ ": " ++ extent.length.text ++
      ": " ++ extent.flags

/-- The absolute path that the command names, which is one word. -/
structure FilePath where
  text : String
  isWord : IsWord text.toList
  rooted : '/' ∈ text.toList

/-- A line of `filefrag -v`. -/
inductive Line where
  | filesystemType (magic : Nat)
  | fileSize (path : FilePath) (bytes blocks blockSize : Nat)
  | columns
  | extent (shown : Extent)
  | extentsFound (path : FilePath) (count : Nat)

def plural (count : Nat) (noun : String) : String := if count = 1 then noun else noun ++ "s"

def Line.text : Line → String
  | filesystemType magic => "Filesystem type is: " ++ String.ofList (Nat.toDigits 16 magic)
  | fileSize path bytes blocks blockSize =>
    "File size of " ++ path.text ++ " is " ++ toString bytes ++ " (" ++ toString blocks ++ " " ++
      plural blocks "block" ++ " of " ++ toString blockSize ++ " bytes)"
  | columns => " ext:     logical_offset:        physical_offset: length:   expected: flags:"
  | extent shown => shown.text
  | extentsFound path count =>
    path.text ++ ": " ++ toString count ++ " " ++ plural count "extent" ++ " found"

def Line.extent? : Line → Option Extent
  | extent shown => some shown
  | _ => none

/-- The physical start of the first extent. -/
def firstStart (lines : List Line) : Option String :=
  (lines.findSome? Line.extent?).map fun extent => toString extent.physicalStart.number

/-- The fourth word of the extent's line is its physical start, or happens to be that number. -/
def Extent.IsReadable (extent : Extent) : Prop :=
  if 0 < extent.logicalEnd.blanks then 0 < extent.physicalEnd.blanks
  else if 0 < extent.physicalEnd.blanks then
    extent.physicalEnd.number = extent.physicalStart.number
  else extent.length.number = extent.physicalStart.number

open KernelImagesStepExecutor (extentOffset filefragOffset swapfileResumeOffset)

/-- When `btrfs` gives nothing, the offset is the physical start of the first extent listed. -/
def ReadsStart (lines : List Line) : Prop :=
  ∀ (config : InstallerConfig) (mapped listed : CommandExecutionResult),
    config.storage.swap.enabled = true → config.storage.swap.hibernation = true →
    strip mapped.stdout = "" → listed.stdout = unlines (lines.map Line.text) →
    Runs (swapfileResumeOffset config)
      [(unchecked (.mapSwapfile s!"{targetRoot}{config.storage.swap.path}"), mapped),
        (unchecked (.filefrag s!"{targetRoot}{config.storage.swap.path}"), listed)]
      (.returned (firstStart lines))

/-! ## The fourth word -/

/-- The number that the fourth word of an extent's line is read as. -/
def Extent.fourth (extent : Extent) : String :=
  if 0 < extent.logicalEnd.blanks then
    toString extent.physicalStart.number ++
      if 0 < extent.physicalEnd.blanks then "" else toString extent.physicalEnd.number
  else if 0 < extent.physicalEnd.blanks then toString extent.physicalEnd.number
  else toString extent.length.number

theorem Extent.fourth_eq_iff (extent : Extent) :
    extent.fourth = toString extent.physicalStart.number ↔ extent.IsReadable := by
  unfold fourth IsReadable
  split
  · split
    · next hblanks => simp [hblanks]
    · next hblanks =>
      simp [hblanks]
  · split
    · exact ⟨toString_nat_inj, fun h => by rw [h]⟩
    · exact ⟨toString_nat_inj, fun h => by rw [h]⟩

theorem Column.toList_text (column : Column) :
    column.text.toList = List.replicate column.blanks ' ' ++ (toString column.number).toList := by
  rw [text, String.toList_append, String.toList_ofList]

/-- The two numbers of a range, and the colon after them. -/
def rangeWords (start last : Column) : List String :=
  if 0 < last.blanks then [toString start.number ++ "..", toString last.number ++ ":"]
  else [toString start.number ++ ".." ++ toString last.number ++ ":"]

theorem fieldsAux_padded {word : List Char} (hword : IsWord word) (hne : word ≠ []) (blanks : Nat)
    (cs : List Char) : fieldsAux (List.replicate blanks ' ' ++ (word ++ ' ' :: cs)) [] =
      word :: fieldsAux cs [] := by
  rw [fieldsAux_blanks, fieldsAux_word hword (by decide) cs [] hne]
  rfl

theorem fieldsAux_range (start last : Column) (cs : List Char) :
    (fieldsAux ((start.text ++ ".." ++ last.text ++ ": ").toList ++ cs) []).map String.ofList =
      rangeWords start last ++ (fieldsAux cs []).map String.ofList := by
  have hdots : IsWord "..".toList := by decide
  have hcolon : IsWord ":".toList := by decide
  have hblank : ": ".toList = ":".toList ++ [' '] := rfl
  have hstart := isWord_append (isWord_digits start.number) hdots
  have hlast := isWord_append (isWord_digits last.number) hcolon
  simp only [String.toList_append, Column.toList_text, hblank, List.append_assoc,
    List.cons_append, List.nil_append]
  cases hblanks : last.blanks with
  | zero =>
    have hwords : rangeWords start last =
        [toString start.number ++ ".." ++ toString last.number ++ ":"] := by simp [rangeWords, hblanks]
    have hjoin : (toString start.number).toList ++ ("..".toList ++ (List.replicate 0 ' ' ++
        ((toString last.number).toList ++ (":".toList ++ ' ' :: cs)))) =
        (((toString start.number).toList ++ "..".toList) ++ ((toString last.number).toList ++
          ":".toList)) ++ ' ' :: cs := by simp
    rw [hjoin, fieldsAux_padded (isWord_append hstart hlast) (by simp), hwords]
    simp only [← String.toList_append, List.map_cons, String.ofList_toList, String.append_assoc,
      List.singleton_append]
  | succ blanks =>
    have hwords : rangeWords start last =
        [toString start.number ++ "..", toString last.number ++ ":"] := by simp [rangeWords, hblanks]
    have hjoin : (toString start.number).toList ++ ("..".toList ++ (List.replicate (blanks + 1) ' ' ++
        ((toString last.number).toList ++ (":".toList ++ ' ' :: cs)))) =
        ((toString start.number).toList ++ "..".toList) ++ ' ' :: (List.replicate blanks ' ' ++
          (((toString last.number).toList ++ ":".toList) ++ ' ' :: cs)) := by
      simp [List.replicate_succ]
    rw [hjoin, fieldsAux_padded hstart (by simp), fieldsAux_padded hlast (by simp), hwords]
    simp only [← String.toList_append, List.map_cons, String.ofList_toList, List.cons_append,
      List.nil_append]

theorem fieldsAux_column (column : Column) (cs : List Char) :
    (fieldsAux ((column.text ++ ": ").toList ++ cs) []).map String.ofList =
      (toString column.number ++ ":") :: (fieldsAux cs []).map String.ofList := by
  have hcolon : IsWord ":".toList := by decide
  have hblank : ": ".toList = ":".toList ++ [' '] := rfl
  have hjoin : (column.text ++ ": ").toList ++ cs = List.replicate column.blanks ' ' ++
      (((toString column.number).toList ++ ":".toList) ++ ' ' :: cs) := by
    simp only [String.toList_append, Column.toList_text, hblank, List.append_assoc,
      List.cons_append, List.nil_append]
  rw [hjoin, fieldsAux_padded (isWord_append (isWord_digits column.number) hcolon) (by simp)]
  simp only [← String.toList_append, List.map_cons, String.ofList_toList]

theorem fields_extent (extent : Extent) : fields extent.text =
    (toString extent.index.number ++ ":") ::
      (rangeWords extent.logicalStart extent.logicalEnd ++
        (rangeWords extent.physicalStart extent.physicalEnd ++
          (toString extent.length.number ++ ":") :: fields extent.flags)) := by
  have hjoin : extent.text.toList = (extent.index.text ++ ": ").toList ++
      ((extent.logicalStart.text ++ ".." ++ extent.logicalEnd.text ++ ": ").toList ++
        ((extent.physicalStart.text ++ ".." ++ extent.physicalEnd.text ++ ": ").toList ++
          ((extent.length.text ++ ": ").toList ++ extent.flags.toList))) := by
    simp only [Extent.text, String.toList_append, List.append_assoc]
  rw [fields, hjoin, fieldsAux_column, fieldsAux_range, fieldsAux_range, fieldsAux_column, fields]

/-- What is left of a word without its dots and colons. -/
def cleaned (word : String) : String := replaceChar ':' "" (replaceChar '.' "" word)

theorem cleaned_append (word word' : String) : cleaned (word ++ word') = cleaned word ++ cleaned word' := by
  simp only [cleaned, replaceChar, String.toList_append, String.toList_ofList, List.flatMap_append,
    String.ofList_append]

theorem cleaned_of_digits {word : String} (h : ∀ c ∈ word.toList, c.isDigit) : cleaned word = word := by
  have hne : ∀ d, d.isDigit = false → d ∉ word.toList := by
    intro d hd hmem
    rw [h d hmem] at hd
    cases hd
  rw [cleaned, Preset.replaceChar_of_not_mem (hne '.' (by decide)),
    Preset.replaceChar_of_not_mem (hne ':' (by decide))]

theorem Extent.isDigit_fourth {extent : Extent} {c : Char} (hc : c ∈ extent.fourth.toList) :
    c.isDigit := by
  unfold fourth at hc
  split at hc
  · rw [String.toList_append, List.mem_append] at hc
    rcases hc with hc | hc
    · exact isDigit_of_mem_toString hc
    · split at hc
      · cases hc
      · exact isDigit_of_mem_toString hc
  · split at hc
    · exact isDigit_of_mem_toString hc
    · exact isDigit_of_mem_toString hc

theorem Extent.isDigits_fourth (extent : Extent) : isDigits extent.fourth := by
  rw [isDigits, Bool.and_eq_true, List.all_eq_true]
  refine ⟨?_, fun c hc => isDigit_fourth hc⟩
  have hne : extent.fourth ≠ "" := by
    unfold fourth
    split
    · simp
    · split <;> exact toString_nat_ne_empty _
  simpa using hne

/-- The fourth word, without its dots and colons. -/
theorem exists_fields_extent (extent : Extent) : ∃ first second third fourth rest,
    fields extent.text = first :: second :: third :: fourth :: rest ∧
      cleaned fourth = extent.fourth := by
  have hdigits : ∀ n : Nat, cleaned (toString n) = toString n := fun n =>
    cleaned_of_digits fun c => isDigit_of_mem_toString
  have hdots : cleaned ".." = "" := by decide
  have hcolon : cleaned ":" = "" := by decide
  rw [fields_extent, rangeWords, rangeWords, Extent.fourth]
  by_cases hlogical : 0 < extent.logicalEnd.blanks <;>
    by_cases hphysical : 0 < extent.physicalEnd.blanks <;>
    simp only [hlogical, hphysical, if_true, if_false, List.cons_append, List.nil_append]
  all_goals
    refine ⟨_, _, _, _, _, rfl, ?_⟩
    simp only [cleaned_append, hdigits, hdots, hcolon, String.append_empty]

theorem extentOffset_extent (extent : Extent) : extentOffset extent.text = some extent.fourth := by
  obtain ⟨first, second, third, fourth, rest, hfields, hcleaned⟩ := exists_fields_extent extent
  have hdots : contains ".." extent.text := by
    have hjoin : extent.text.toList = (extent.index.text ++ ": " ++ extent.logicalStart.text).toList ++
        ("..".toList ++ (extent.logicalEnd.text ++ ": " ++ extent.physicalStart.text ++ ".." ++
          extent.physicalEnd.text ++ ": " ++ extent.length.text ++ ": " ++ extent.flags).toList) := by
      simp only [Extent.text, String.toList_append, List.append_assoc]
    rw [contains, hjoin]
    exact isInfixOf_append _ _ _
  have hext : startsWith "ext:" (strip extent.text) = false := by
    obtain ⟨c, cs, hindex⟩ := List.exists_cons_of_ne_nil (l := (toString extent.index.number).toList)
      (by simp)
    have hdigit : c.isDigit := isDigit_of_mem_toString (by rw [hindex]; exact List.mem_cons_self)
    have hchars : extent.text.toList = List.replicate extent.index.blanks ' ' ++ c ::
        (cs ++ (": " ++ extent.logicalStart.text ++ ".." ++ extent.logicalEnd.text ++ ": " ++
          extent.physicalStart.text ++ ".." ++ extent.physicalEnd.text ++ ": " ++
            extent.length.text ++ ": " ++ extent.flags).toList) := by
      simp only [Extent.text, String.toList_append, Column.toList_text, List.append_assoc, hindex,
        List.cons_append]
    refine not_startsWith_of_head (head_strip (isSpace_of_isDigit hdigit) hchars)
      (rfl : "ext:".toList.head? = some 'e') ?_
    rintro rfl
    exact absurd hdigit (by decide)
  rw [extentOffset, hfields]
  simp only [hdots, hext, Bool.not_false, Bool.and_true, Bool.true_and]
  have hcleaned' : replaceChar ':' "" (replaceChar '.' "" fourth) = extent.fourth := hcleaned
  rw [hcleaned', if_pos extent.isDigits_fourth]

/-! ## The other lines -/

theorem not_mem_toDigits {c : Char} (h : ∀ d < 16, Nat.digitChar d ≠ c) (n : Nat) :
    c ∉ Nat.toDigits 16 n := by
  induction n using Nat.strongRecOn with
  | ind n ih =>
    rw [Nat.toDigits_eq_if (by decide)]
    split
    · next hlt =>
      rw [List.mem_singleton]
      exact (h n hlt).symm
    · next hge =>
      rw [List.mem_append, List.mem_singleton, not_or]
      exact ⟨ih (n / 16) (Nat.div_lt_self (by omega) (by decide)),
        (h (n % 16) (Nat.mod_lt n (by decide))).symm⟩

/-- A line whose fourth word is no number. -/
theorem extentOffset_of_fourth {line first second third fourth : String} {rest : List String}
    (hfields : fields line = first :: second :: third :: fourth :: rest) {c : Char}
    (hc : c ∈ (cleaned fourth).toList) (hdigit : c.isDigit = false) : extentOffset line = none := by
  have hnumber : isDigits (cleaned fourth) = false := by
    rw [isDigits, Bool.and_eq_false_iff, List.all_eq_false]
    exact .inr ⟨c, hc, by simp [hdigit]⟩
  rw [extentOffset, hfields]
  have hcleaned : isDigits (replaceChar ':' "" (replaceChar '.' "" fourth)) = false := hnumber
  simp only [hcleaned, Bool.and_false, Bool.false_eq_true, if_false]

theorem extentOffset_of_no_dot {line : String} (h : '.' ∉ line.toList) : extentOffset line = none := by
  have hdots : contains ".." line = false := by
    rw [Bool.eq_false_iff]
    intro hcontains
    exact h (mem_of_isInfixOf hcontains (by decide))
  unfold extentOffset
  split
  · simp [hdots]
  · rfl

theorem isWord_plural {count : Nat} {noun : String} (h : IsWord noun.toList) :
    IsWord (plural count noun).toList := by
  unfold plural
  split
  · exact h
  · rw [String.toList_append]
    exact isWord_append h (by decide)

theorem slash_mem_cleaned (path : FilePath) : '/' ∈ (cleaned path.text).toList := by
  have h := path.rooted
  simp only [cleaned, replaceChar, String.toList_ofList, List.mem_flatMap]
  exact ⟨'/', ⟨'/', h, by decide⟩, by decide⟩

theorem FilePath.text_ne_empty (path : FilePath) : path.text ≠ "" := by
  intro h
  have hrooted := path.rooted
  rw [h] at hrooted
  cases hrooted

theorem extentOffset_filesystemType (magic : Nat) :
    extentOffset (Line.filesystemType magic).text = none := by
  refine extentOffset_of_no_dot ?_
  change '.' ∉ ("Filesystem type is: " ++ String.ofList (Nat.toDigits 16 magic)).toList
  rw [String.toList_append, List.mem_append, not_or]
  refine ⟨by decide, ?_⟩
  rw [String.toList_ofList]
  exact not_mem_toDigits (by decide) magic

theorem extentOffset_fileSize (path : FilePath) (bytes blocks blockSize : Nat) :
    extentOffset (Line.fileSize path bytes blocks blockSize).text = none := by
  have hstart : "File size of " = "File" ++ (" " ++ ("size" ++ (" " ++ ("of" ++ " ")))) := by
    decide
  have his : " is " = " " ++ "is " := by decide
  have hwords : (Line.fileSize path bytes blocks blockSize).text = "File" ++ " " ++ ("size" ++ " " ++
      ("of" ++ " " ++ (path.text ++ " " ++ ("is " ++ toString bytes ++ " (" ++ toString blocks ++
        " " ++ plural blocks "block" ++ " of " ++ toString blockSize ++ " bytes)")))) := by
    change "File size of " ++ path.text ++ " is " ++ toString bytes ++ " (" ++ toString blocks ++ " " ++
      plural blocks "block" ++ " of " ++ toString blockSize ++ " bytes)" = _
    simp only [hstart, his, String.append_assoc]
  have hfields := congrArg fields hwords
  rw [fields_cons (by decide) (by decide),
    fields_cons (by decide) (by decide),
    fields_cons (by decide) (by decide),
    fields_cons path.isWord path.text_ne_empty] at hfields
  exact extentOffset_of_fourth hfields (slash_mem_cleaned path) (by decide)

theorem extentOffset_extentsFound (path : FilePath) (count : Nat) :
    extentOffset (Line.extentsFound path count).text = none := by
  have hwords : (Line.extentsFound path count).text = path.text ++ ":" ++ " " ++ (toString count ++
      " " ++ (plural count "extent" ++ " " ++ "found")) := by
    have hcolon : ": " = ":" ++ " " := by decide
    have hfound : " found" = " " ++ "found" := by decide
    change path.text ++ ": " ++ toString count ++ " " ++ plural count "extent" ++ " found" = _
    simp only [hcolon, hfound, String.append_assoc]
  have hplural : plural count "extent" ≠ "" := by
    unfold plural
    split <;> decide
  have hpath : IsWord (path.text ++ ":").toList := by
    rw [String.toList_append]
    exact isWord_append path.isWord (by decide)
  have hfields := congrArg fields hwords
  rw [fields_cons hpath (by simp), fields_cons (isWord_digits count) (toString_nat_ne_empty count),
    fields_cons (isWord_plural (by decide)) hplural,
    @fields_singleton "found" (by decide) (by decide)] at hfields
  exact extentOffset_of_fourth hfields (by decide : 'f' ∈ (cleaned "found").toList) (by decide)

theorem extentOffset_text : ∀ line : Line,
    extentOffset line.text = line.extent?.map Extent.fourth
  | .filesystemType magic => extentOffset_filesystemType magic
  | .fileSize path bytes blocks blockSize => extentOffset_fileSize path bytes blocks blockSize
  | .columns => by decide
  | .extent shown => extentOffset_extent shown
  | .extentsFound path count => extentOffset_extentsFound path count

/-! ## The listing -/

theorem newline_not_mem_of_isWord {word : List Char} (h : IsWord word) : '\n' ∉ word := by
  intro hmem
  exact absurd (h '\n' hmem) (by decide)

theorem newline_not_mem_digits (n : Nat) : '\n' ∉ (toString n).toList :=
  newline_not_mem_of_isWord (isWord_digits n)

theorem newline_not_mem_column (column : Column) : '\n' ∉ column.text.toList := by
  rw [Column.toList_text, List.mem_append, not_or]
  exact ⟨by simp, newline_not_mem_digits column.number⟩

theorem newline_not_mem_plural {count : Nat} {noun : String} (h : IsWord noun.toList) :
    '\n' ∉ (plural count noun).toList :=
  newline_not_mem_of_isWord (isWord_plural h)

theorem newline_not_mem_text (line : Line) : '\n' ∉ line.text.toList := by
  have hcolon : '\n' ∉ ": ".toList := by decide
  have hdots : '\n' ∉ "..".toList := by decide
  have hblock : IsWord "block".toList := by decide
  have hextent : IsWord "extent".toList := by decide
  cases line with
  | filesystemType magic =>
    change '\n' ∉ ("Filesystem type is: " ++ String.ofList (Nat.toDigits 16 magic)).toList
    rw [String.toList_append, List.mem_append, not_or]
    refine ⟨by decide, ?_⟩
    rw [String.toList_ofList]
    exact not_mem_toDigits (by decide) magic
  | fileSize path bytes blocks blockSize =>
    change '\n' ∉ ("File size of " ++ path.text ++ " is " ++ toString bytes ++ " (" ++
      toString blocks ++ " " ++ plural blocks "block" ++ " of " ++ toString blockSize ++
        " bytes)").toList
    simp only [String.toList_append, List.mem_append, newline_not_mem_digits,
      newline_not_mem_plural hblock, newline_not_mem_of_isWord path.isWord, or_false]
    decide
  | columns => decide
  | extent shown =>
    change '\n' ∉ shown.text.toList
    simp only [Extent.text, String.toList_append, List.mem_append, newline_not_mem_column, hcolon,
      hdots, shown.oneLine, or_false, not_false_eq_true]
  | extentsFound path count =>
    change '\n' ∉ (path.text ++ ": " ++ toString count ++ " " ++ plural count "extent" ++
      " found").toList
    simp only [String.toList_append, List.mem_append, newline_not_mem_digits,
      newline_not_mem_plural hextent, newline_not_mem_of_isWord path.isWord, or_false, false_or]
    decide

theorem findSome_extentOffset (lines : List Line) :
    (split "\n" (unlines (lines.map Line.text))).findSome? extentOffset =
      (lines.findSome? Line.extent?).map Extent.fourth := by
  have hlines : ∀ text ∈ lines.map Line.text, '\n' ∉ text.toList := by
    intro text htext
    obtain ⟨line, -, rfl⟩ := List.mem_map.mp htext
    exact newline_not_mem_text line
  rw [Preset.split_unlines hlines, List.findSome?_append, List.findSome?_map]
  have hempty : [""].findSome? extentOffset = none := by decide
  rw [hempty, Option.or_none]
  induction lines with
  | nil => rfl
  | cons line lines ih =>
    have hrest := ih fun text htext => hlines text (List.mem_cons_of_mem _ htext)
    rw [List.findSome?_cons, List.findSome?_cons, Function.comp_apply, extentOffset_text]
    cases line.extent? with
    | none => exact hrest
    | some extent => rfl

theorem runs_swapfileResumeOffset {config : InstallerConfig} {mapped listed : CommandExecutionResult}
    (henabled : config.storage.swap.enabled = true)
    (hhibernation : config.storage.swap.hibernation = true) (hmapped : strip mapped.stdout = "")
    {offset : Option String} :
    Runs (swapfileResumeOffset config)
      [(unchecked (.mapSwapfile s!"{targetRoot}{config.storage.swap.path}"), mapped),
        (unchecked (.filefrag s!"{targetRoot}{config.storage.swap.path}"), listed)]
      (.returned offset) ↔ offset = (split "\n" listed.stdout).findSome? extentOffset := by
  have hfilefrag : ∀ swapPath, Runs (filefragOffset swapPath) [(unchecked (.filefrag swapPath), listed)]
      (.returned offset) ↔ offset = (split "\n" listed.stdout).findSome? extentOffset := by
    intro swapPath
    rw [filefragOffset, runs_bind_returned_iff]
    simp only [runs_query_returned_iff]
    constructor
    · rintro ⟨first, mid, second, heq, ⟨result, rfl, rfl⟩, hrest⟩
      obtain ⟨rfl, rfl⟩ : listed = result ∧ second = [] := by simpa using heq
      revert hrest
      cases (split "\n" listed.stdout).findSome? extentOffset <;> simp
    · rintro rfl
      refine ⟨[_], _, [], rfl, ⟨listed, rfl, rfl⟩, ?_⟩
      cases (split "\n" listed.stdout).findSome? extentOffset <;> simp
  rw [swapfileResumeOffset]
  simp only [henabled, hhibernation, Bool.and_self, Bool.not_true, Bool.false_eq_true, if_false]
  rw [runs_bind_returned_iff]
  simp only [runs_query_returned_iff]
  constructor
  · rintro ⟨first, mid, second, heq, ⟨result, rfl, rfl⟩, hrest⟩
    obtain ⟨rfl, rfl⟩ : mapped = result ∧
        second = [(unchecked (.filefrag s!"{targetRoot}{config.storage.swap.path}"), listed)] := by
      simpa [eq_comm] using heq
    rw [hmapped] at hrest
    exact (hfilefrag _).mp hrest
  · intro h
    refine ⟨[_], _, [_], rfl, ⟨mapped, rfl, rfl⟩, ?_⟩
    rw [hmapped]
    exact (hfilefrag _).mpr h

/-- A swapfile that the system resumes from. -/
def hibernationConfig : InstallerConfig :=
  { sampleConfig with
    storage := { sampleStorage with
      swap := { enabled := true, sizeMb := 4096, path := "/.swap/swapfile", hibernation := true } } }

theorem readsStart_iff_fourth {lines : List Line} : ReadsStart lines ↔
    (lines.findSome? Line.extent?).map Extent.fourth = firstStart lines := by
  constructor
  · intro h
    have hrun := h hibernationConfig ⟨0, "", ""⟩ ⟨0, unlines (lines.map Line.text), ""⟩ rfl rfl
      (by decide) rfl
    rw [runs_swapfileResumeOffset rfl rfl (by decide), findSome_extentOffset] at hrun
    exact hrun.symm
  · intro h config mapped listed henabled hhibernation hmapped hlisted
    rw [runs_swapfileResumeOffset henabled hhibernation hmapped, hlisted, findSome_extentOffset]
    exact h.symm

/-- The offset is that of the first extent exactly when that one's line is readable. -/
theorem readsStart_iff (lines : List Line) :
    ReadsStart lines ↔ ∀ extent ∈ lines.findSome? Line.extent?, extent.IsReadable := by
  rw [readsStart_iff_fourth, firstStart]
  cases lines.findSome? Line.extent? with
  | none => simp
  | some extent => simpa using extent.fourth_eq_iff

/-- A swapfile of 80 GiB, whose last block fills its column. -/
def wideExtent : Extent where
  index := ⟨3, 0⟩
  logicalStart := ⟨7, 0⟩
  logicalEnd := ⟨0, 20971519⟩
  physicalStart := ⟨3, 1310720⟩
  physicalEnd := ⟨2, 22282239⟩
  length := ⟨0, 20971520⟩
  flags := "             last,eof"
  oneLine := by decide

theorem not_readsStart : ¬ ∀ lines, ReadsStart lines := by
  intro h
  exact absurd (readsStart_iff_fourth.mp (h [.extent wideExtent])) (by decide)

end ArchInstaller.Filefrag
