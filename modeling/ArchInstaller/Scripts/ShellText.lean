import Mathlib.Data.List.Basic

/-! # What a shell makes of a text

The words of a text that a shell sources, with their quotes, and the variables that it sets and the
commands that it runs. Only quotes, comments and plain words are treated: where an expansion, an
operator or an open quote would say what happens, there is no result. -/

namespace ShellText

/-- A character of a word, and whether it stands between quotes. -/
abbrev Piece := Char × Bool

inductive Token where
  | word (pieces : List Piece)
  | newline
  deriving DecidableEq

inductive Mode where
  | between
  | comment
  | unquoted
  | single
  | double

/-- A character that stands for itself outside quotes. -/
def isPlain (c : Char) : Bool := c.isAlphanum || "_@%+=:,./-".toList.contains c

def isBlank (c : Char) : Bool := c == ' ' || c == '\t'

/-- No shell reads this character. -/
def null : Char := Char.ofNat 0

/-- What starts an expansion between double quotes. -/
def isExpanding (c : Char) : Bool := c == '$' || c == (Char.ofNat 96) || c == '\\'

/-- The tokens of a text, given the pieces of the word that has begun, in reverse. -/
def lex : Mode → List Piece → List Char → Option (List Token)
  | .between, _, [] | .comment, _, [] => some []
  | .unquoted, word, [] => some [.word word.reverse]
  | .single, _, [] | .double, _, [] => none
  | .between, _, c :: cs =>
    if c = '\n' then (.newline :: ·) <$> lex .between [] cs
    else if isBlank c then lex .between [] cs
    else if c = '#' then lex .comment [] cs
    else if c = '\'' then lex .single [] cs
    else if c = '"' then lex .double [] cs
    else if isPlain c then lex .unquoted [(c, false)] cs
    else none
  | .comment, _, c :: cs =>
    if c = '\n' then (.newline :: ·) <$> lex .between [] cs else lex .comment [] cs
  | .unquoted, word, c :: cs =>
    if c = '\n' then (fun tokens => .word word.reverse :: .newline :: tokens) <$> lex .between [] cs
    else if isBlank c then (.word word.reverse :: ·) <$> lex .between [] cs
    else if c = '\'' then lex .single word cs
    else if c = '"' then lex .double word cs
    else if isPlain c || c = '#' then lex .unquoted ((c, false) :: word) cs
    else none
  | .single, word, c :: cs =>
    if c = '\'' then lex .unquoted word cs
    else if c = null then none
    else lex .single ((c, true) :: word) cs
  | .double, word, c :: cs =>
    if c = '"' then lex .unquoted word cs
    else if isExpanding c || c = null then none
    else lex .double ((c, true) :: word) cs

/-- The text of a word once its quotes are removed. -/
def textOf (word : List Piece) : String := String.ofList (word.map Prod.fst)

inductive Effect where
  | sets (name value : String)
  | runs (words : List String)
  deriving DecidableEq

def isVariableName : List Char → Bool
  | [] => false
  | c :: cs => (c.isAlpha || c == '_') && cs.all fun c => c.isAlphanum || c == '_'

/-- The assignment that a word is: a name and an equals sign outside quotes, and the value. -/
def assignment (word : List Piece) : Option (String × String) :=
  let name := word.takeWhile (· != ('=', false))
  match word.dropWhile (· != ('=', false)) with
  | _ :: value =>
    if name.all (fun piece => !piece.2) && isVariableName (name.map Prod.fst) then
      some (textOf name, textOf value)
    else none
  | [] => none

/-- An assignment that appends to a variable. -/
def appends (word : List Piece) : Bool :=
  let name := word.takeWhile (· != ('=', false))
  name.getLast? == some ('+', false) && name.length < word.length

/-- A command line sets variables when it consists of assignments, and else runs a command. -/
def effects (words : List (List Piece)) : Option (List Effect) :=
  if words.any appends then none
  else
    match words.mapM assignment with
    | some assignments => some (assignments.map fun (name, value) => .sets name value)
    | none => some [.runs (words.map textOf)]

/-- The command lines, given the words of the one that has begun. -/
def commandLines : List (List Piece) → List Token → List (List (List Piece))
  | words, [] => [words]
  | words, .word word :: tokens => commandLines (words ++ [word]) tokens
  | words, .newline :: tokens => words :: commandLines [] tokens

/-- What happens, in order, when a text is sourced. -/
def source (text : String) : Option (List Effect) := do
  let tokens ← lex .between [] text.toList
  let lines ← (commandLines [] tokens).mapM effects
  return lines.flatten

/-- The variables afterwards. -/
def variablesAfter (before : String → Option String) : List Effect → String → Option String
  | [] => before
  | .sets name value :: rest =>
    variablesAfter (fun name' => if name' = name then some value else before name') rest
  | .runs _ :: rest => variablesAfter before rest

/-! ## Words -/

attribute [local simp] isPlain isBlank lex in
theorem ne_of_isPlain {c d : Char} (h : isPlain c) (hd : isPlain d = false) : c ≠ d := by
  rintro rfl
  rw [h] at hd
  cases hd

theorem lex_plain {cs : List Char} (h : ∀ c ∈ cs, isPlain c) (word : List Piece) (rest : List Char) :
    lex .unquoted word (cs ++ rest) = lex .unquoted ((cs.map (·, false)).reverse ++ word) rest := by
  induction cs generalizing word with
  | nil => rfl
  | cons c cs ih =>
    obtain ⟨hc, hrest⟩ := List.forall_mem_cons.mp h
    have hblank : isBlank c = false := by
      rw [isBlank, Bool.or_eq_false_iff, beq_eq_false_iff_ne, beq_eq_false_iff_ne]
      exact ⟨ne_of_isPlain hc (by decide), ne_of_isPlain hc (by decide)⟩
    rw [List.cons_append, lex, if_neg (ne_of_isPlain hc (by decide)), hblank,
      if_neg Bool.false_ne_true, if_neg (ne_of_isPlain hc (by decide)),
      if_neg (ne_of_isPlain hc (by decide)), hc, Bool.true_or, if_pos rfl, ih hrest]
    simp

/-- A word that starts with a plain character goes on as one that has begun. -/
theorem lex_between_plain {c : Char} (h : isPlain c) (rest : List Char) :
    lex .between [] (c :: rest) = lex .unquoted [(c, false)] rest := by
  have hblank : isBlank c = false := by
    rw [isBlank, Bool.or_eq_false_iff, beq_eq_false_iff_ne, beq_eq_false_iff_ne]
    exact ⟨ne_of_isPlain h (by decide), ne_of_isPlain h (by decide)⟩
  rw [lex, if_neg (ne_of_isPlain h (by decide)), hblank, if_neg Bool.false_ne_true,
    if_neg (ne_of_isPlain h (by decide)), if_neg (ne_of_isPlain h (by decide)),
    if_neg (ne_of_isPlain h (by decide)), if_pos h]

/-- Between single quotes every character stands for itself. -/
theorem lex_single {cs : List Char} (h : ∀ c ∈ cs, c ≠ '\'' ∧ c ≠ null) (word : List Piece)
    (rest : List Char) :
    lex .single word (cs ++ rest) = lex .single ((cs.map (·, true)).reverse ++ word) rest := by
  induction cs generalizing word with
  | nil => rfl
  | cons c cs ih =>
    obtain ⟨hc, hrest⟩ := List.forall_mem_cons.mp h
    rw [List.cons_append, lex, if_neg hc.1, if_neg hc.2, ih hrest]
    simp

theorem lex_comment {cs : List Char} (h : '\n' ∉ cs) (rest : List Char) :
    lex .comment [] (cs ++ '\n' :: rest) = (.newline :: ·) <$> lex .between [] rest := by
  induction cs with
  | nil => rw [List.nil_append, lex, if_pos rfl]
  | cons c cs ih =>
    rw [List.mem_cons, not_or] at h
    rw [List.cons_append, lex, if_neg (Ne.symm h.1), ih h.2]

/-! ## Assignments -/

section

variable {name : List Char} (hname : isVariableName name)

include hname

theorem isPlain_of_variableName {c : Char} (hc : c ∈ name) : isPlain c ∧ c ≠ '=' ∧ c ≠ '+' := by
  have hchar : c.isAlphanum ∨ c = '_' := by
    cases name with
    | nil => cases hc
    | cons d cs =>
      simp only [isVariableName, Bool.and_eq_true, Bool.or_eq_true, beq_iff_eq, List.all_eq_true]
        at hname
      rcases List.mem_cons.mp hc with rfl | hc
      · exact hname.1.imp_left fun halpha => by rw [Char.isAlphanum, halpha, Bool.true_or]
      · exact hname.2 c hc
  refine ⟨?_, ?_, ?_⟩
  · rcases hchar with hchar | rfl
    · rw [isPlain, hchar, Bool.true_or]
    · decide
  · rintro rfl
    exact absurd hchar (by decide)
  · rintro rfl
    exact absurd hchar (by decide)

theorem takeWhile_name (value : List Piece) :
    (name.map (·, false) ++ (('=', false) : Piece) :: value).takeWhile (· != ('=', false)) =
      name.map (·, false) ∧
    (name.map (·, false) ++ (('=', false) : Piece) :: value).dropWhile (· != ('=', false)) =
      ('=', false) :: value := by
  have hall : ∀ piece ∈ name.map (·, false), piece != (('=', false) : Piece) := by
    intro piece hpiece
    obtain ⟨c, hc, rfl⟩ := List.mem_map.mp hpiece
    rw [bne_iff_ne, ne_eq, Prod.mk.injEq, not_and]
    exact fun heq => absurd heq (isPlain_of_variableName hname hc).2.1
  rw [List.takeWhile_append_of_pos hall, List.dropWhile_append_of_pos hall]
  simp

/-- The name and the equals sign are plain, the value is any word. -/
theorem assignment_append (value : List Piece) :
    assignment (name.map (·, false) ++ ('=', false) :: value) =
      some (String.ofList name, textOf value) := by
  obtain ⟨htake, hdrop⟩ := takeWhile_name hname value
  have hmap : (name.map (·, false)).map Prod.fst = name := by
    rw [List.map_map]
    exact List.map_id name
  have hunquoted : (name.map (·, false)).all fun piece => !piece.2 := by simp
  simp only [assignment, htake, hdrop, hmap, hunquoted, hname, Bool.and_self, if_true, textOf]

theorem not_appends_append (value : List Piece) :
    appends (name.map (·, false) ++ ('=', false) :: value) = false := by
  rw [appends, (takeWhile_name hname value).1, Bool.and_eq_false_iff, beq_eq_false_iff_ne,
    List.getLast?_map]
  refine .inl fun hlast => ?_
  obtain ⟨c, hc, hplus⟩ := Option.map_eq_some_iff.mp hlast
  exact (isPlain_of_variableName hname (List.mem_of_getLast? hc)).2.2 (Prod.mk.inj hplus).1

end

/-! ## Lines of assignments -/

/-- The line is a word that sets a variable. -/
def LineSets (line : List Char) (name value : String) : Prop :=
  ∃ word, (∀ rest, lex .between [] (line ++ '\n' :: rest) =
      (fun tokens => .word word :: .newline :: tokens) <$> lex .between [] rest) ∧
    assignment word = some (name, value) ∧ appends word = false

/-- A plain name, an equals sign and a word that ends with the line. -/
theorem lineSets_of_lex {name value : List Char} {word : List Piece} (hname : isVariableName name)
    (hvalue : ∀ before rest, lex .unquoted before (value ++ rest) =
      lex .unquoted (word.reverse ++ before) rest) :
    LineSets (name ++ '=' :: value) (String.ofList name) (textOf word) := by
  refine ⟨name.map (·, false) ++ ('=', false) :: word, fun rest => ?_,
    assignment_append hname word, not_appends_append hname word⟩
  have hplain : ∀ c ∈ name ++ ['='], isPlain c := by
    intro c hc
    rw [List.mem_append, List.mem_singleton] at hc
    rcases hc with hc | rfl
    · exact (isPlain_of_variableName hname hc).1
    · decide
  cases name with
  | nil => cases hname
  | cons c cs =>
    rw [List.cons_append, List.forall_mem_cons] at hplain
    have hjoin : (c :: cs ++ '=' :: value) ++ '\n' :: rest =
        c :: ((cs ++ ['=']) ++ (value ++ '\n' :: rest)) := by simp
    rw [hjoin, lex_between_plain hplain.1, lex_plain hplain.2, hvalue, lex, if_pos rfl]
    simp

theorem effects_nil : effects [] = some [] := rfl

theorem effects_singleton {word : List Piece} {name value : String}
    (hword : assignment word = some (name, value)) (happends : appends word = false) :
    effects [word] = some [.sets name value] := by
  simp [effects, hword, happends]

theorem exists_lex_lines {lines : List (List Char × String × String)}
    (h : ∀ line ∈ lines, LineSets line.1 line.2.1 line.2.2) :
    ∃ tokens effectLists, lex .between [] (lines.flatMap fun line => line.1 ++ ['\n']) = some tokens ∧
      (commandLines [] tokens).mapM effects = some effectLists ∧
      effectLists.flatten = lines.map fun line => .sets line.2.1 line.2.2 := by
  induction lines with
  | nil => exact ⟨[], [[]], rfl, rfl, rfl⟩
  | cons line lines ih =>
    obtain ⟨hline, hlines⟩ := List.forall_mem_cons.mp h
    obtain ⟨word, hlex, hassignment, happends⟩ := hline
    obtain ⟨tokens, effectLists, hrest, heffects, hflatten⟩ := ih hlines
    refine ⟨.word word :: .newline :: tokens, [.sets line.2.1 line.2.2] :: effectLists, ?_, ?_, ?_⟩
    · rw [List.flatMap_cons, List.append_assoc, List.singleton_append, hlex, hrest]
      rfl
    · rw [commandLines, commandLines, List.mapM_cons, List.nil_append,
        effects_singleton hassignment happends, heffects]
      rfl
    · rw [List.flatten_cons, hflatten]
      rfl

/-- A comment and then lines that set variables. -/
theorem source_lines {lines : List (List Char × String × String)}
    (h : ∀ line ∈ lines, LineSets line.1 line.2.1 line.2.2) {comment : List Char}
    (hcomment : '\n' ∉ comment) :
    source (String.ofList ('#' :: comment ++ '\n' :: lines.flatMap fun line => line.1 ++ ['\n'])) =
      some (lines.map fun line => .sets line.2.1 line.2.2) := by
  obtain ⟨tokens, effectLists, hlex, heffects, hflatten⟩ := exists_lex_lines h
  have hall : lex .between [] ('#' :: comment ++ '\n' :: lines.flatMap fun line => line.1 ++ ['\n']) =
      some (.newline :: tokens) := by
    rw [List.cons_append, lex, if_neg (by decide), if_neg (by decide), if_pos rfl,
      lex_comment hcomment, hlex]
    rfl
  have hcommands : (commandLines [] (.newline :: tokens)).mapM effects = some ([] :: effectLists) := by
    rw [commandLines, List.mapM_cons, effects_nil, heffects]
    rfl
  rw [source, String.toList_ofList, hall]
  change ((commandLines [] (.newline :: tokens)).mapM effects).bind _ = _
  rw [hcommands]
  exact congrArg some hflatten

/-- What the variables are after some are set: the last value of each name. -/
theorem variablesAfter_sets {before : String → Option String} {values : List (String × String)}
    (hnames : (values.map Prod.fst).Nodup) (name : String) :
    variablesAfter before (values.map fun value => .sets value.1 value.2) name =
      (values.lookup name).or (before name) := by
  induction values generalizing before with
  | nil => rfl
  | cons value values ih =>
    rw [List.map_cons, List.nodup_cons] at hnames
    rw [List.map_cons, variablesAfter, ih hnames.2, List.lookup_cons]
    by_cases hname : name = value.1
    · subst hname
      have hnone : values.lookup value.1 = none := by
        rw [List.lookup_eq_none_iff]
        intro entry hentry
        rw [bne_iff_ne]
        exact fun heq => hnames.1 (List.mem_map.mpr ⟨entry, hentry, heq.symm⟩)
      rw [hnone, beq_self_eq_true, if_pos rfl]
      rfl
    · rw [if_neg hname, beq_eq_false_iff_ne.mpr hname]

end ShellText
