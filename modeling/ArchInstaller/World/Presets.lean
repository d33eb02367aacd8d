import Mathlib.Data.List.TakeWhile
import ArchInstaller.Python.Data
import ArchInstaller.Python.Paths

/-! # What mkinitcpio makes of a preset

A preset file is sourced by the shell, which sets the variables that it assigns, the last one
winning. For every name in `PRESETS` mkinitcpio builds the UKI that the name's `_uki` variable says,
with the options of its `_options` variable. Of the shell only what presets are written in is
treated: an assignment of a text between double quotes, in which nothing is expanded, and of an
array of words between single quotes. -/

namespace ArchInstaller.Preset

open PyText

/-- A name that a shell variable can have. -/
def isVariableName (name : String) : Bool :=
  match name.toList with
  | [] => false
  | c :: cs => (c.isAlpha || c == '_') && cs.all fun c => c.isAlphanum || c == '_'

/-- A character that stands for itself between double quotes. -/
def isLiteral (c : Char) : Bool := !(['"', '$', '\\', '`'].contains c)

/-- A text between quotes. -/
def unquote (quote : Char) (isInner : Char → Bool) : List Char → Option String
  | c :: cs =>
    if c == quote && cs.getLast? == some quote && cs.dropLast.all isInner then
      some (String.ofList cs.dropLast)
    else none
  | [] => none

/-- The words of `('first' 'second')`. -/
def arrayWords : List Char → Option (List String)
  | '(' :: cs =>
    if cs.getLast? == some ')' then
      (split " " (String.ofList cs.dropLast)).mapM fun word => unquote '\'' (· != '\'') word.toList
    else none
  | _ => none

inductive Line where
  | assigns (name value : String)
  | presets (names : List String)
  | other

def readLine (line : String) : Line :=
  let name := String.ofList (line.toList.takeWhile (· != '='))
  let value := (line.toList.dropWhile (· != '=')).drop 1
  if name == "PRESETS" then
    match arrayWords value with
    | some names => .presets names
    | none => .other
  else if isVariableName name then
    match unquote '"' isLiteral value with
    | some text => .assigns name text
    | none => .other
  else .other

def Line.assignment : Line → Option (String × String)
  | .assigns name value => some (name, value)
  | _ => none

def Line.names : Line → Option (List String)
  | .presets names => some names
  | _ => none

/-- The words between blanks. -/
def words (text : String) : List String :=
  (split " " (replaceChar '\t' " " text)).filter (· != "")

/-- The word behind a flag. -/
def wordAfter (flag : String) : List String → Option String
  | word :: word' :: words => if word == flag then some word' else wordAfter flag (word' :: words)
  | _ => none

/-- A UKI that is built, and the file that its command line is read from. -/
structure Build where
  preset : String
  uki : String
  cmdline : String
  deriving DecidableEq

def build (assigned : List (String × String)) (preset : String) : Option Build := do
  let uki ← assigned.lookup (preset ++ "_uki")
  let options ← assigned.lookup (preset ++ "_options")
  let cmdline ← wordAfter "--cmdline" (words options)
  return { preset, uki, cmdline }

/-- The UKIs that a preset builds. -/
def evaluate (text : String) : List Build :=
  let lines := (split "\n" text).map readLine
  let assigned := (lines.filterMap Line.assignment).reverse
  let presets := (lines.filterMap Line.names).getLast?.getD []
  presets.filterMap (build assigned)

/-- A variable that a line sets, and to what. -/
theorem of_readLine {line name value : String} (h : readLine line = .assigns name value) :
    isVariableName name ∧ value.toList.all isLiteral ∧ ∀ c ∈ value.toList, c ∈ line.toList := by
  rw [readLine] at h
  split at h
  · split at h <;> cases h
  · split at h
    · next hname =>
      split at h
      · next text hvalue =>
        cases h
        refine ⟨hname, ?_⟩
        generalize hchars : (line.toList.dropWhile (· != '=')).drop 1 = chars at hvalue
        have hmem : ∀ c ∈ chars, c ∈ line.toList := fun c hc =>
          (List.dropWhile_sublist _).subset (List.mem_of_mem_drop (hchars ▸ hc))
        cases chars with
        | nil => cases hvalue
        | cons c cs =>
          rw [unquote] at hvalue
          split at hvalue
          · next hquoted =>
            cases hvalue
            simp only [Bool.and_eq_true] at hquoted
            rw [String.toList_ofList]
            exact ⟨hquoted.2, fun c' hc' => hmem c' (.tail c (List.dropLast_subset _ hc'))⟩
          · cases hvalue
      · cases h
    · cases h

theorem blank_not_mem_words {text word : String} (h : word ∈ words text) :
    ' ' ∉ word.toList ∧ '\t' ∉ word.toList := by
  obtain ⟨chars, hchars, rfl⟩ := List.mem_map.mp (List.mem_of_mem_filter h)
  have hblank : " ".toList = [' '] := rfl
  rw [hblank] at hchars
  obtain ⟨hword, hmem⟩ := mem_splitAux List.not_mem_nil hchars
  rw [String.toList_ofList]
  refine ⟨hword, fun htab => ?_⟩
  have htab' := hmem _ htab
  simp [replaceChar, List.mem_flatMap] at htab'
  grind

theorem mem_of_wordAfter {flag word : String} {words : List String}
    (h : wordAfter flag words = some word) : word ∈ words := by
  fun_induction wordAfter flag words with
  | case1 first second others hflag =>
    cases h
    exact .tail first (.head others)
  | case2 first second others hflag ih => exact .tail first (ih h)
  | case3 => cases h

/-- What is built has a variable's name, is written between double quotes in a line, and its command
line is a word. -/
theorem of_mem_evaluate {text : String} {built : Build} (h : built ∈ evaluate text) :
    isVariableName (built.preset ++ "_uki") ∧ built.uki.toList.all isLiteral ∧
      '\n' ∉ built.uki.toList ∧ ' ' ∉ built.cmdline.toList ∧ '\t' ∉ built.cmdline.toList := by
  obtain ⟨name, -, hbuild⟩ := List.mem_filterMap.mp h
  simp only [build, Option.bind_eq_bind, Option.bind_eq_some_iff, Option.pure_def,
    Option.some.injEq] at hbuild
  obtain ⟨uki, huki, options, -, cmdline, hcmdline, rfl⟩ := hbuild
  obtain ⟨line, hline, hassigned⟩ := List.mem_filterMap.mp (List.mem_reverse.mp
    (PyData.mem_of_lookup huki))
  obtain ⟨source, hsource, rfl⟩ := List.mem_map.mp hline
  obtain ⟨chars, hchars, rfl⟩ := List.mem_map.mp hsource
  have hread : readLine (String.ofList chars) = .assigns (name ++ "_uki") uki := by
    cases hread : readLine (String.ofList chars) with
    | assigns assigned value =>
      rw [hread] at hassigned
      cases hassigned
      rfl
    | presets names =>
      rw [hread] at hassigned
      cases hassigned
    | other =>
      rw [hread] at hassigned
      cases hassigned
  obtain ⟨hname, hliteral, hmem⟩ := of_readLine hread
  have hfeed : "\n".toList = ['\n'] := rfl
  rw [hfeed] at hchars
  refine ⟨hname, hliteral, fun hbreak => ?_, blank_not_mem_words (mem_of_wordAfter hcmdline)⟩
  have hbreak' := hmem _ hbreak
  rw [String.toList_ofList] at hbreak'
  exact (mem_splitAux List.not_mem_nil hchars).1 hbreak'

theorem replaceChar_of_not_mem {c : Char} {new text : String} (h : c ∉ text.toList) :
    replaceChar c new text = text := by
  have hchars : ∀ cs : List Char, c ∉ cs →
      (cs.flatMap fun d => if d == c then new.toList else [d]) = cs := by
    intro cs hcs
    induction cs with
    | nil => rfl
    | cons d cs ih =>
      rw [List.mem_cons, not_or] at hcs
      rw [List.flatMap_cons, ih hcs.2, if_neg (by simpa using Ne.symm hcs.1), List.singleton_append]
  rw [replaceChar, hchars _ h, String.ofList_toList]

theorem not_mem_join {c : Char} {separator : String} {parts : List String}
    (hseparator : c ∉ separator.toList) (h : ∀ part ∈ parts, c ∉ part.toList) :
    c ∉ (join separator parts).toList := by
  induction parts with
  | nil => exact List.not_mem_nil
  | cons part parts ih =>
    rw [List.forall_mem_cons] at h
    cases parts with
    | nil => exact h.1
    | cons part' parts =>
      rw [join, String.toList_append, String.toList_append, List.mem_append, List.mem_append]
      rintro ((hmem | hmem) | hmem)
      · exact h.1 hmem
      · exact hseparator hmem
      · exact ih h.2 hmem
      · exact List.cons_ne_nil _ _

theorem words_join {parts : List String} (hparts : parts ≠ []) (hne : "" ∉ parts)
    (h : ∀ part ∈ parts, ' ' ∉ part.toList ∧ '\t' ∉ part.toList) :
    words (join " " parts) = parts := by
  have htab : '\t' ∉ (join " " parts).toList := not_mem_join (by decide) fun part hpart => (h part hpart).2
  have hsplit : split " " (join " " parts) = parts :=
    split_join ' ' hparts fun part hpart => (h part hpart).1
  rw [words, replaceChar_of_not_mem htab, hsplit, List.filter_eq_self]
  intro part hpart
  rw [bne_iff_ne]
  rintro rfl
  exact hne hpart

/-! ## Reading what is written -/

theorem not_mem_of_isVariableName {name : String} (h : isVariableName name) : '=' ∉ name.toList := by
  rw [isVariableName] at h
  split at h
  · cases h
  · next c cs hchars =>
    simp only [Bool.and_eq_true, Bool.or_eq_true, beq_iff_eq, List.all_eq_true] at h
    rw [hchars, List.mem_cons, not_or]
    refine ⟨?_, fun hmem => ?_⟩
    · rintro rfl
      exact absurd h.1 (by decide)
    · exact absurd (h.2 _ hmem) (by decide)

theorem unquote_quoted {quote : Char} {isInner : Char → Bool} {text : String}
    (h : text.toList.all isInner) : unquote quote isInner (quote :: text.toList ++ [quote]) = some text := by
  simp [unquote, h]

theorem takeWhile_equals {name : List Char} (h : '=' ∉ name) (value : List Char) :
    (name ++ '=' :: value).takeWhile (· != '=') = name ∧
      (name ++ '=' :: value).dropWhile (· != '=') = '=' :: value := by
  have hequals : ∀ c ∈ name, (c != '=') = true := by
    intro c hc
    rw [bne_iff_ne]
    rintro rfl
    exact h hc
  constructor
  · rw [List.takeWhile_append_of_pos hequals, List.takeWhile_cons_of_neg (by decide),
      List.append_nil]
  · rw [List.dropWhile_append_of_pos hequals, List.dropWhile_cons_of_neg (by decide)]

/-- A text between double quotes that is assigned to a variable. -/
theorem readLine_assigns {name value : String} (hname : isVariableName name) (hne : name ≠ "PRESETS")
    (hvalue : value.toList.all isLiteral) :
    readLine (name ++ "=\"" ++ value ++ "\"") = .assigns name value := by
  have hquote : "\"".toList = ['"'] := rfl
  have hstart : "=\"".toList = ['=', '"'] := rfl
  have hchars : (name ++ "=\"" ++ value ++ "\"").toList =
      name.toList ++ '=' :: ('"' :: value.toList ++ ['"']) := by
    simp only [String.toList_append, hquote, hstart, List.append_assoc, List.cons_append,
      List.nil_append]
  obtain ⟨htake, hdrop⟩ := takeWhile_equals (not_mem_of_isVariableName hname)
    ('"' :: value.toList ++ ['"'])
  rw [← hchars] at htake hdrop
  simp only [readLine, htake, hdrop, String.ofList_toList, List.drop_one, List.tail_cons, hname,
    unquote_quoted hvalue, beq_eq_false_iff_ne.mpr hne, Bool.false_eq_true, if_false, if_true]

/-- A line without an assignment. -/
theorem readLine_other {line : String} (h : '=' ∉ line.toList) : readLine line = .other := by
  have hdrop : line.toList.dropWhile (· != '=') = [] := by
    rw [List.dropWhile_eq_nil_iff]
    intro c hc
    rw [bne_iff_ne]
    rintro rfl
    exact h hc
  simp only [readLine, hdrop, List.drop_nil, arrayWords, unquote]
  split <;> [rfl; split <;> rfl]

/-- A comment. -/
theorem readLine_comment (text : String) : readLine ("#" ++ text) = .other := by
  have hhash : "#".toList = ['#'] := rfl
  have hname : ("#" ++ text).toList.takeWhile (· != '=') =
      '#' :: text.toList.takeWhile (· != '=') := by
    rw [String.toList_append, hhash, List.singleton_append, List.takeWhile_cons_of_pos (by decide)]
  have hne : String.ofList ('#' :: text.toList.takeWhile (· != '=')) ≠ "PRESETS" := by
    intro heq
    have hchars := congrArg String.toList heq
    rw [String.toList_ofList] at hchars
    exact absurd (List.cons.inj hchars).1 (by decide)
  have hvariable : isVariableName (String.ofList ('#' :: text.toList.takeWhile (· != '='))) =
      false := by
    rw [isVariableName, String.toList_ofList]
    rfl
  simp only [readLine, hname, beq_eq_false_iff_ne.mpr hne, hvariable, Bool.false_eq_true, if_false]

/-- The list of presets. -/
theorem readLine_presets {names : List String} (hne : names ≠ [])
    (hblank : ∀ name ∈ names, ' ' ∉ name.toList) (hquote : ∀ name ∈ names, '\'' ∉ name.toList) :
    readLine ("PRESETS=(" ++ join " " (names.map fun name => "'" ++ name ++ "'") ++ ")") =
      .presets names := by
  have hwords : arrayWords ("(" ++ join " " (names.map fun name => "'" ++ name ++ "'") ++ ")").toList =
      some names := by
    have hopen : "(".toList = ['('] := rfl
    have hclose : ")".toList = [')'] := rfl
    have hsingle : "'".toList = ['\''] := rfl
    have hsplit : split " " (join " " (names.map fun name => "'" ++ name ++ "'")) =
        names.map fun name => "'" ++ name ++ "'" := by
      refine split_join ' ' (by simpa using hne) fun part hpart => ?_
      rw [List.mem_map] at hpart
      obtain ⟨name, hname, rfl⟩ := hpart
      simpa [hsingle] using hblank name hname
    rw [String.toList_append, String.toList_append, hopen, hclose, List.singleton_append,
      List.cons_append, arrayWords, List.getLast?_concat, if_pos (by rfl), List.dropLast_concat,
      String.ofList_toList, hsplit]
    have hunquote : ∀ name ∈ names, unquote '\'' (· != '\'') ("'" ++ name ++ "'").toList = some name := by
      intro name hname
      rw [String.toList_append, String.toList_append, hsingle]
      refine unquote_quoted (List.all_eq_true.mpr fun c hc => ?_)
      rw [bne_iff_ne]
      rintro rfl
      exact hquote name hname hc
    clear hsplit hne hblank hquote
    induction names with
    | nil => rfl
    | cons name names ih =>
      rw [List.forall_mem_cons] at hunquote
      rw [List.map_cons, List.mapM_cons, hunquote.1, ih hunquote.2]
      rfl
  have hchars : ("PRESETS=(" ++ join " " (names.map fun name => "'" ++ name ++ "'") ++ ")").toList =
      "PRESETS".toList ++ '=' ::
        ("(" ++ join " " (names.map fun name => "'" ++ name ++ "'") ++ ")").toList := by
    have hequals : "PRESETS=(".toList = "PRESETS".toList ++ '=' :: "(".toList := rfl
    rw [String.toList_append, String.toList_append, String.toList_append, String.toList_append,
      hequals]
    simp only [List.append_assoc, List.cons_append]
  obtain ⟨htake, hdrop⟩ := takeWhile_equals (by decide : '=' ∉ "PRESETS".toList)
    ("(" ++ join " " (names.map fun name => "'" ++ name ++ "'") ++ ")").toList
  rw [← hchars] at htake hdrop
  simp only [readLine, htake, hdrop, String.ofList_toList, List.drop_one, List.tail_cons, hwords,
    beq_self_eq_true, if_true]

/-- The lines of a file are those that were written, and an empty one. -/
theorem split_unlines {lines : List String} (h : ∀ line ∈ lines, '\n' ∉ line.toList) :
    split "\n" (unlines lines) = lines ++ [""] := by
  have hjoin : unlines lines = join "\n" (lines ++ [""]) := by
    clear h
    induction lines with
    | nil => rfl
    | cons line lines ih =>
      rw [unlines, ih]
      cases lines <;> rfl
  rw [hjoin]
  refine split_join '\n' (by simp) fun part hpart => ?_
  rw [List.mem_append, List.mem_singleton] at hpart
  rcases hpart with hpart | rfl
  · exact h part hpart
  · decide

end ArchInstaller.Preset
