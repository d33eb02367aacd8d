import ArchInstaller.Config.Sample
import ArchInstaller.Installer
import ArchInstaller.Scripts.ShellText

/-! # The expected state, sourced

Every value is one word of an assignment, whatever characters it has, so a shell that sources the
file sets the variables to the values and does nothing else. -/

namespace ArchInstaller

open PyText ShellText

/-- The value that a variable has, a truth value being `true` or `false`. -/
def ExpectedValue.shown : ExpectedValue → String
  | text value => value
  | truth value => if value then "true" else "false"

/-- The word goes on from any state of a word that has begun. -/
def ReadsAs (written : List Char) (text : String) : Prop :=
  ∃ word, textOf word = text ∧ ∀ before rest,
    lex .unquoted before (written ++ rest) = lex .unquoted (word.reverse ++ before) rest

theorem readsAs_plain {s : String} (h : ∀ c ∈ s.toList, isPlain c) : ReadsAs s.toList s := by
  refine ⟨s.toList.map (·, false), ?_, fun before rest => lex_plain h before rest⟩
  rw [textOf, List.map_map]
  exact (congrArg String.ofList (List.map_id s.toList)).trans String.ofList_toList

/-- The characters that `shlex.quote` puts between the outer quotes. -/
def quotedChars (cs : List Char) : List Char :=
  cs.flatMap fun c => if c == '\'' then "'\"'\"'".toList else [c]

theorem lex_quotedChars {cs : List Char} (h : null ∉ cs) (before : List Piece) (rest : List Char) :
    lex .single before (quotedChars cs ++ '\'' :: rest) =
      lex .unquoted ((cs.map (·, true)).reverse ++ before) rest := by
  induction cs generalizing before with
  | nil => rw [quotedChars, List.flatMap_nil, List.nil_append, lex, if_pos rfl]; rfl
  | cons c cs ih =>
    rw [List.mem_cons, not_or] at h
    have hrest := ih h.2
    rw [quotedChars] at hrest
    by_cases hc : c = '\''
    · -- the quote is closed, the character stands between double quotes, and a quote is opened
      subst hc
      have hopen : quotedChars ('\'' :: cs) ++ '\'' :: rest =
          '\'' :: '"' :: '\'' :: '"' :: '\'' :: (quotedChars cs ++ '\'' :: rest) := rfl
      have hdouble : ∀ (word : List Piece) (chars : List Char),
          lex .double word ('\'' :: '"' :: chars) = lex .unquoted (('\'', true) :: word) chars := by
        intro word chars
        rw [lex, if_neg (by decide), if_neg (by decide), lex, if_pos rfl]
      rw [hopen, lex, if_pos rfl, lex, if_neg (by decide), if_neg (by decide), if_neg (by decide),
        if_pos rfl, hdouble, lex, if_neg (by decide), if_neg (by decide), if_pos rfl]
      exact (hrest _).trans (by simp)
    · have hkept : quotedChars (c :: cs) ++ '\'' :: rest = c :: (quotedChars cs ++ '\'' :: rest) := by
        simp [quotedChars, hc]
      rw [hkept, lex, if_neg hc, if_neg (Ne.symm h.1)]
      exact (hrest _).trans (by simp)

theorem readsAs_shellQuote {s : String} (h : null ∉ s.toList) : ReadsAs (shellQuote s).toList s := by
  rw [shellQuote]
  split
  · next hempty =>
    obtain rfl : s = "" := by simpa using hempty
    refine ⟨[], rfl, fun before rest => ?_⟩
    exact @lex_quotedChars [] List.not_mem_nil before rest
  · split
    · next hsafe => exact readsAs_plain (List.all_eq_true.mp hsafe)
    · have hchars : ("'" ++ replaceChar '\'' "'\"'\"'" s ++ "'").toList =
          '\'' :: (quotedChars s.toList ++ ['\'']) := by
        have hreplaced : (replaceChar '\'' "'\"'\"'" s).toList = quotedChars s.toList :=
          String.toList_ofList
        rw [String.toList_append, String.toList_append, hreplaced]
        rfl
      refine ⟨s.toList.map (·, true), ?_, fun before rest => ?_⟩
      · rw [textOf, List.map_map]
        exact (congrArg String.ofList (List.map_id s.toList)).trans String.ofList_toList
      · rw [hchars, List.cons_append, List.append_assoc, List.singleton_append, lex,
          if_neg (by decide), if_neg (by decide), if_pos rfl, lex_quotedChars h]

theorem readsAs_shellWord {value : ExpectedValue} (h : null ∉ value.shown.toList) :
    ReadsAs (shellWord value).toList value.shown := by
  cases value with
  | text value => exact readsAs_shellQuote h
  | truth value =>
    cases value
    · exact readsAs_plain (forall_mem_of_all (by decide))
    · exact readsAs_plain (forall_mem_of_all (by decide))

variable {config : InstallerConfig}

theorem names_expected : (expectedStateValues config).map Prod.fst =
    (expectedStateValues sampleConfig).map Prod.fst := rfl

theorem nodup_names_expected (config : InstallerConfig) : ((expectedStateValues config).map Prod.fst).Nodup := by
  rw [names_expected]
  decide

theorem isVariableName_expected {entry : String × ExpectedValue}
    (h : entry ∈ expectedStateValues config) : isVariableName entry.1.toList := by
  have hnames : ∀ name ∈ (expectedStateValues sampleConfig).map Prod.fst,
      isVariableName name.toList := by decide
  exact hnames entry.1 (names_expected ▸ List.mem_map_of_mem h)

/-- The line of a variable, with its name and value. -/
def expectedLine (entry : String × ExpectedValue) : List Char × String × String :=
  (entry.1.toList ++ '=' :: (shellWord entry.2).toList, entry.1, entry.2.shown)

theorem lineSets_expectedLine {entry : String × ExpectedValue}
    (hentry : entry ∈ expectedStateValues config) (hnull : null ∉ entry.2.shown.toList) :
    LineSets (expectedLine entry).1 (expectedLine entry).2.1 (expectedLine entry).2.2 := by
  obtain ⟨word, htext, hlex⟩ := readsAs_shellWord hnull
  have h := lineSets_of_lex (isVariableName_expected hentry) hlex
  rwa [htext, String.ofList_toList] at h

theorem toList_join_newline (line : String) (lines : List String) :
    (join "\n" (line :: lines) ++ "\n").toList =
      line.toList ++ '\n' :: lines.flatMap fun line => line.toList ++ ['\n'] := by
  have hnewline : "\n".toList = ['\n'] := rfl
  induction lines generalizing line with
  | nil => rw [join, String.toList_append, hnewline]; rfl
  | cons line' lines ih =>
    have hrest := ih line'
    rw [String.toList_append, hnewline] at hrest
    rw [join, String.toList_append, String.toList_append, String.toList_append, hnewline,
      List.append_assoc, hrest]
    · simp
    · simp

theorem expectedStateFile_eq (config : InstallerConfig) : ∃ comment, '\n' ∉ comment ∧ expectedStateFile config =
    String.ofList ('#' :: comment ++ '\n' ::
      ((expectedStateValues config).map expectedLine).flatMap fun line => line.1 ++ ['\n']) := by
  have hline : ∀ name value, (s!"{name}={shellWord value}").toList = (expectedLine (name, value)).1 := by
    intro name value
    change (name ++ "=" ++ shellWord value).toList = name.toList ++ '=' :: (shellWord value).toList
    rw [String.toList_append, String.toList_append, List.append_assoc]
    rfl
  have hheader : ("# written by the DALI installer from the final configuration, " ++
      "read by verify-install").toList = '#' :: (" written by the DALI installer from the final configuration, " ++
        "read by verify-install").toList := by decide
  refine ⟨(" written by the DALI installer from the final configuration, " ++
    "read by verify-install").toList, by decide, ?_⟩
  have hfile : (expectedStateFile config).toList = ("# written by the DALI installer from the final configuration, " ++
      "read by verify-install").toList ++ '\n' ::
        ((expectedStateValues config).map fun entry => s!"{entry.1}={shellWord entry.2}").flatMap
          fun line => line.toList ++ ['\n'] := toList_join_newline _ _
  rw [← String.ofList_toList (s := expectedStateFile config), hfile, List.flatMap_map, List.flatMap_map]
  have hlines : ((expectedStateValues config).flatMap fun entry =>
      (s!"{entry.1}={shellWord entry.2}").toList ++ ['\n']) =
        (expectedStateValues config).flatMap fun entry => (expectedLine entry).1 ++ ['\n'] :=
    List.flatMap_congr fun entry _ => by rw [hline entry.1 entry.2]
  rw [hheader]
  exact congrArg (fun lines => String.ofList ('#' :: _ ++ '\n' :: lines)) hlines

/-- The values of `expected_state_values`, as a shell has them. -/
def shownValues (config : InstallerConfig) : List (String × String) :=
  (expectedStateValues config).map fun entry => (entry.1, entry.2.shown)

/-- A shell that sources the file sets the variables to the values, and does nothing else. -/
theorem source_expectedStateFile (config : InstallerConfig)
    (hnull : ∀ entry ∈ shownValues config, null ∉ entry.2.toList) :
    ∃ effects, source (expectedStateFile config) = some effects ∧
      (∀ words, Effect.runs words ∉ effects) ∧
      ∀ before name, variablesAfter before effects name =
        ((shownValues config).lookup name).or (before name) := by
  obtain ⟨comment, hcomment, hfile⟩ := expectedStateFile_eq config
  have hlines : ∀ line ∈ (expectedStateValues config).map expectedLine,
      LineSets line.1 line.2.1 line.2.2 := by
    intro line hline
    obtain ⟨entry, hentry, rfl⟩ := List.mem_map.mp hline
    exact lineSets_expectedLine hentry (hnull _ (List.mem_map_of_mem hentry))
  have heffects : ((expectedStateValues config).map expectedLine).map
      (fun line => Effect.sets line.2.1 line.2.2) =
        (shownValues config).map fun entry => .sets entry.1 entry.2 := by
    rw [shownValues, List.map_map, List.map_map]
    rfl
  refine ⟨_, by rw [hfile, source_lines hlines hcomment, heffects], fun words hruns => ?_, ?_⟩
  · obtain ⟨entry, -, hentry⟩ := List.mem_map.mp hruns
    cases hentry
  · have hnames : ((shownValues config).map Prod.fst).Nodup := by
      rw [shownValues, List.map_map]
      exact nodup_names_expected config
    exact fun before name => variablesAfter_sets hnames name

/-- A host name that would run commands if it were not quoted. -/
def hostileConfig : InstallerConfig :=
  { sampleConfig with
    system := { sampleSystem with hostname := "host$(reboot)\n'\"; reboot #" } }

theorem source_expectedStateFile_hostile : ∃ effects,
    source (expectedStateFile hostileConfig) = some effects ∧
      variablesAfter (fun _ => none) effects "EXPECTED_HOSTNAME" =
        some "host$(reboot)\n'\"; reboot #" := by
  obtain ⟨effects, hsource, -, hvariables⟩ := source_expectedStateFile hostileConfig (by decide)
  exact ⟨effects, hsource, by rw [hvariables]; decide⟩

end ArchInstaller
