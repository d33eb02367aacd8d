import ArchInstaller.Config.Sample
import ArchInstaller.Executors.Boot
import ArchInstaller.Python.Data
import ArchInstaller.World.Presets

/-! # Kernels, variants and the names of their UKIs

The UKI of a kernel and a variant is named by the two with a dash between them, and a preset by the
suffix with underscores for dashes. Both names can be those of another pair. -/

namespace ArchInstaller

open PyData PyText Preset

/-! ## The claim -/

/-- Every kernel and variant has its own UKI, built from its own command line. -/
structure UkisApart (kernels : List String) (variants : List UkiVariantConfig) : Prop where
  ukiPath : ∀ kernel ∈ kernels, ∀ variant ∈ variants, ∀ kernel' ∈ kernels, ∀ variant' ∈ variants,
    ukiPath kernel variant = ukiPath kernel' variant' → kernel = kernel' ∧ variant = variant'
  cmdlineFile : ∀ kernel ∈ kernels, ∀ variant ∈ variants, ∀ kernel' ∈ kernels,
    ∀ variant' ∈ variants, cmdlineFile kernel variant = cmdlineFile kernel' variant' →
      kernel = kernel' ∧ variant = variant'
  names : kernels ≠ [] → ("fallback" :: variants.map presetName).Nodup
  builds : ∀ kernel ∈ kernels, evaluate (kernelPreset kernel variants) =
    variants.map fun variant => ⟨presetName variant, ArchInstaller.ukiPath kernel variant,
      ArchInstaller.cmdlineFile kernel variant⟩

/-! ## The condition -/

/-- No kernel is another one with a dash and a text that starts a suffix before another suffix. -/
def NoSharedName (kernels : List String) (variants : List UkiVariantConfig) : Prop :=
  ∀ kernel ∈ kernels, ∀ kernel' ∈ kernels, ∀ variant ∈ variants, ∀ variant' ∈ variants, ∀ rest,
    kernel' = kernel ++ "-" ++ rest → variant.suffix ≠ rest ++ "-" ++ variant'.suffix

/-- A character that does not end a word, and that stands for itself between double quotes. -/
def isWordChar (c : Char) : Bool := isLiteral c && !(['\n', '\t', ' '].contains c)

/-- A character of a suffix that can be one of a variable's name. -/
def isNameChar (c : Char) : Bool := c.isAlphanum || ['_', '-'].contains c

/-- A dash, or what stands for one. -/
def isDash (c : Char) : Bool := ['_', '-'].contains c

/-- Texts that are the same when dashes and underscores are. -/
def SameButDashes (text text' : String) : Prop :=
  List.Forall₂ (fun c c' => c = c' ∨ isDash c ∧ isDash c') text.toList text'.toList

/-- The suffixes make variable names that are apart. -/
structure NamedPresets (variants : List UkiVariantConfig) : Prop where
  apart : variants.Pairwise fun variant variant' => ¬SameButDashes variant.suffix variant'.suffix
  notFallback : ∀ variant ∈ variants, variant.suffix ≠ "fallback"
  nameChars : ∀ variant ∈ variants, variant.suffix.toList.all isNameChar
  noDigit : ∀ variant ∈ variants, ∀ c ∈ variant.suffix.toList.head?, c.isDigit = false

/-- The names that a kernel and a variant make are apart. -/
structure NamesApart (kernels : List String) (variants : List UkiVariantConfig) : Prop where
  noSharedName : NoSharedName kernels variants
  namedPresets : kernels ≠ [] → NamedPresets variants
  words : ∀ kernel ∈ kernels, kernel.toList.all isWordChar

/-! ## Names with a dash -/

theorem append_dash_eq_iff {cs ds cs' ds' : List Char} :
    cs ++ '-' :: ds = cs' ++ '-' :: ds' ↔ cs = cs' ∧ ds = ds' ∨
      (∃ rest, cs' = cs ++ '-' :: rest ∧ ds = rest ++ '-' :: ds') ∨
        ∃ rest, cs = cs' ++ '-' :: rest ∧ ds' = rest ++ '-' :: ds := by
  constructor
  · intro h
    rcases List.append_eq_append_iff.mp h with ⟨rest, hcs, hds⟩ | ⟨rest, hcs, hds⟩
    · cases rest with
      | nil =>
        refine .inl ⟨by simpa using hcs.symm, by simpa using hds⟩
      | cons c rest =>
        obtain ⟨rfl, htail⟩ : '-' = c ∧ ds = rest ++ '-' :: ds' := by simpa using hds
        exact .inr (.inl ⟨rest, hcs, htail⟩)
    · cases rest with
      | nil =>
        refine .inl ⟨by simpa using hcs, by simpa using hds.symm⟩
      | cons c rest =>
        obtain ⟨rfl, htail⟩ : '-' = c ∧ ds' = rest ++ '-' :: ds := by simpa using hds
        exact .inr (.inr ⟨rest, hcs, htail⟩)
  · rintro (⟨rfl, rfl⟩ | ⟨rest, rfl, rfl⟩ | ⟨rest, rfl, rfl⟩)
    · rfl
    · simp
    · simp

theorem ukiPath_eq (kernel : String) (variant : UkiVariantConfig) : ukiPath kernel variant =
    ukiDirectory ++ "/arch-" ++ kernel ++ "-" ++ variant.suffix ++ ".efi" := rfl

theorem cmdlineFile_eq (kernel : String) (variant : UkiVariantConfig) :
    cmdlineFile kernel variant = "/etc/kernel/cmdline-" ++ kernel ++ "-" ++ variant.suffix := rfl

theorem ukiPath_eq_iff {kernel kernel' : String} {variant variant' : UkiVariantConfig} :
    ukiPath kernel variant = ukiPath kernel' variant' ↔
      kernel ++ "-" ++ variant.suffix = kernel' ++ "-" ++ variant'.suffix := by
  have hassoc : ∀ start kernel suffix : String, start ++ kernel ++ "-" ++ suffix ++ ".efi" =
      start ++ (kernel ++ "-" ++ suffix) ++ ".efi" := by
    intro start kernel suffix
    simp only [String.append_assoc]
  rw [ukiPath_eq, ukiPath_eq, hassoc, hassoc, String.append_left_inj, String.append_right_inj]

theorem cmdlineFile_eq_iff {kernel kernel' : String} {variant variant' : UkiVariantConfig} :
    cmdlineFile kernel variant = cmdlineFile kernel' variant' ↔
      kernel ++ "-" ++ variant.suffix = kernel' ++ "-" ++ variant'.suffix := by
  have hassoc : ∀ start kernel suffix : String, start ++ kernel ++ "-" ++ suffix =
      start ++ (kernel ++ "-" ++ suffix) := by
    intro start kernel suffix
    simp only [String.append_assoc]
  rw [cmdlineFile_eq, cmdlineFile_eq, hassoc, hassoc, String.append_right_inj]

theorem append_dash_eq_iff' {kernel kernel' suffix suffix' : String} :
    kernel ++ "-" ++ suffix = kernel' ++ "-" ++ suffix' ↔ kernel = kernel' ∧ suffix = suffix' ∨
      (∃ rest, kernel' = kernel ++ "-" ++ rest ∧ suffix = rest ++ "-" ++ suffix') ∨
        ∃ rest, kernel = kernel' ++ "-" ++ rest ∧ suffix' = rest ++ "-" ++ suffix := by
  have hdash : "-".toList = ['-'] := rfl
  have hrest : ∀ p : List Char → Prop, (∃ rest : String, p rest.toList) ↔ ∃ rest, p rest := by
    intro p
    exact ⟨fun ⟨rest, h⟩ => ⟨rest.toList, h⟩, fun ⟨rest, h⟩ =>
      ⟨String.ofList rest, by rwa [String.toList_ofList]⟩⟩
  simp only [← String.toList_inj, String.toList_append, hdash, List.append_assoc,
    List.singleton_append]
  rw [append_dash_eq_iff, hrest fun rest => _ = kernel.toList ++ '-' :: rest ∧ _ = rest ++ '-' :: _,
    hrest fun rest => _ = kernel'.toList ++ '-' :: rest ∧ _ = rest ++ '-' :: _]

theorem noSharedName_iff {kernels : List String} {variants : List UkiVariantConfig} :
    NoSharedName kernels variants ↔ ∀ kernel ∈ kernels, ∀ variant ∈ variants, ∀ kernel' ∈ kernels,
      ∀ variant' ∈ variants, kernel ++ "-" ++ variant.suffix = kernel' ++ "-" ++ variant'.suffix →
        kernel = kernel' ∧ variant.suffix = variant'.suffix := by
  constructor
  · intro h kernel hkernel variant hvariant kernel' hkernel' variant' hvariant' heq
    rcases append_dash_eq_iff'.mp heq with hsame | ⟨rest, hkernels, hsuffix⟩ | ⟨rest, hkernels, hsuffix⟩
    · exact hsame
    · exact absurd hsuffix (h kernel hkernel kernel' hkernel' variant hvariant variant' hvariant'
        rest hkernels)
    · exact absurd hsuffix (h kernel' hkernel' kernel hkernel variant' hvariant' variant hvariant
        rest hkernels)
  · intro h kernel hkernel kernel' hkernel' variant hvariant variant' hvariant' rest hkernels hsuffix
    have hsame := h kernel hkernel variant hvariant kernel' hkernel' variant' hvariant'
      (append_dash_eq_iff'.mpr (.inr (.inl ⟨rest, hkernels, hsuffix⟩)))
    have hlength := congrArg String.length (hsame.1.trans hkernels)
    have hdash : "-".length = 1 := rfl
    rw [String.length_append, String.length_append, hdash] at hlength
    omega

/-! ## The preset -/

theorem all_of_all {p q : Char → Bool} {text : String} (h : text.toList.all p)
    (hpq : ∀ c, p c → q c) : text.toList.all q :=
  List.all_eq_true.mpr fun c hc => hpq c (List.all_eq_true.mp h c hc)

theorem not_mem_of_all {p : Char → Bool} {text : String} {c : Char} (h : text.toList.all p)
    (hc : p c = false) : c ∉ text.toList := fun hmem => by
  rw [List.all_eq_true.mp h c hmem] at hc
  cases hc

theorem isWordChar_of_isNameChar (c : Char) (h : isNameChar c) : isWordChar c := by
  by_contra hspecial
  simp only [isWordChar, isLiteral, Bool.and_eq_true, Bool.not_eq_true', List.contains_eq_mem,
    List.mem_cons, List.not_mem_nil, or_false, decide_eq_false_iff_not, not_and_or, not_not] at hspecial
  rcases hspecial with (rfl | rfl | rfl | rfl) | rfl | rfl | rfl <;> exact absurd h (by decide)

theorem isLiteral_of_isWordChar (c : Char) (h : isWordChar c) : isLiteral c := by
  rw [isWordChar, Bool.and_eq_true] at h
  exact h.1

/-- A text that stands in one line. -/
def isInLine (c : Char) : Bool := c != '\n'

theorem isInLine_of_isWordChar (c : Char) (h : isWordChar c) : isInLine c := by
  rw [isInLine, bne_iff_ne]
  rintro rfl
  exact absurd h (by decide)

/-! ## The names of presets -/

/-- The character of a preset's name that a suffix has. -/
def underscore (c : Char) : Char := if c == '-' then '_' else c

theorem presetName_toList (variant : UkiVariantConfig) :
    (presetName variant).toList = variant.suffix.toList.map underscore := by
  rw [presetName, replaceChar, String.toList_ofList, List.map_eq_flatMap]
  refine List.flatMap_congr fun c _ => ?_
  rw [underscore]
  split <;> rfl

theorem underscore_eq_iff {c c' : Char} :
    underscore c = underscore c' ↔ c = c' ∨ isDash c ∧ isDash c' := by
  have hdash : isDash c ↔ c = '_' ∨ c = '-' := by simp [isDash]
  have hdash' : isDash c' ↔ c' = '_' ∨ c' = '-' := by simp [isDash]
  rw [hdash, hdash', underscore, underscore]
  grind

theorem presetName_eq_iff {variant variant' : UkiVariantConfig} :
    presetName variant = presetName variant' ↔ SameButDashes variant.suffix variant'.suffix := by
  rw [← String.toList_inj, presetName_toList, presetName_toList, SameButDashes,
    ← List.forall₂_eq_eq_eq, List.forall₂_map_left_iff, List.forall₂_map_right_iff]
  simp only [underscore_eq_iff]

theorem map_underscore_eq {cs ds : List Char} (hds : ∀ d ∈ ds, isDash d = false) :
    cs.map underscore = ds ↔ cs = ds := by
  have hcases : ∀ c d, isDash d = false → (underscore c = d ↔ c = d) := by
    intro c d hd
    have hself : underscore d = d := by
      rw [underscore, if_neg]
      rintro heq
      rw [beq_iff_eq] at heq
      rw [heq] at hd
      cases hd
    nth_rewrite 1 [← hself]
    rw [underscore_eq_iff, hd]
    simp
  induction cs generalizing ds with
  | nil => rw [List.map_nil]
  | cons c cs ih =>
    cases ds with
    | nil => simp
    | cons d ds =>
      rw [List.forall_mem_cons] at hds
      rw [List.map_cons, List.cons.injEq, List.cons.injEq]
      exact and_congr (hcases c d hds.1) (ih hds.2)

theorem presetName_eq_fallback_iff {variant : UkiVariantConfig} :
    presetName variant = "fallback" ↔ variant.suffix = "fallback" := by
  rw [← String.toList_inj, presetName_toList, map_underscore_eq (forall_mem_of_all (by decide)), String.toList_inj]

theorem isDigit_of_isAlpha {c : Char} (h : c.isAlpha) : c.isDigit = false := by
  have hcase : (decide (c.val ≥ 65 ∧ c.val ≤ 90) || (decide (c.val ≥ 97) && decide (c.val ≤ 122))) =
      true := h
  simp only [Char.isDigit, Bool.or_eq_true, Bool.and_eq_true, decide_eq_true_eq,
    UInt32.le_iff_toNat_le, Bool.and_eq_false_iff, decide_eq_false_iff_not, ge_iff_le] at *
  simp at *
  omega

theorem isVariableName_iff {name : String} : isVariableName name ↔ name.toList ≠ [] ∧
    (∀ c ∈ name.toList, c.isAlphanum ∨ c = '_') ∧ ∀ c ∈ name.toList.head?, c.isDigit = false := by
  rw [isVariableName]
  cases name.toList with
  | nil => simp
  | cons c cs =>
    have hdigit : '_'.isDigit = false := rfl
    have hfirst : c.isAlpha ∨ c = '_' ↔ (c.isAlphanum ∨ c = '_') ∧ c.isDigit = false := by
      rw [Char.isAlphanum, Bool.or_eq_true]
      constructor
      · rintro (halpha | rfl)
        · exact ⟨.inl (.inl halpha), isDigit_of_isAlpha halpha⟩
        · exact ⟨.inr rfl, hdigit⟩
      · rintro ⟨(halpha | hdigit') | rfl, hno⟩
        · exact .inl halpha
        · rw [hno] at hdigit'
          cases hdigit'
        · exact .inr rfl
    simp only [Bool.and_eq_true, Bool.or_eq_true, beq_iff_eq, List.all_eq_true, ne_eq,
      List.cons_ne_nil, not_false_eq_true, true_and, List.forall_mem_cons, List.head?_cons,
      Option.mem_some_iff, forall_eq', hfirst]
    tauto

/-- The names that a shell variable can have begin with what presets of a kind can. -/
theorem isVariableName_presetName_iff {variant : UkiVariantConfig} {ending : String}
    (hending : isVariableName ending) :
    isVariableName (presetName variant ++ ending) ↔ variant.suffix.toList.all isNameChar ∧
      ∀ c ∈ variant.suffix.toList.head?, c.isDigit = false := by
  rw [isVariableName_iff] at hending ⊢
  obtain ⟨hne, hchars, hdigit⟩ := hending
  have hunderscore : ∀ c, (underscore c).isAlphanum ∨ underscore c = '_' ↔ isNameChar c := by
    intro c
    have hdash : '-'.isAlphanum = false := rfl
    simp only [isNameChar, underscore, Bool.or_eq_true, List.contains_eq_mem, List.mem_cons,
      List.not_mem_nil, or_false, decide_eq_true_eq, beq_iff_eq]
    split
    · next h => simp [h]
    · next h => simp [h]
  have hdigits : ∀ c, (underscore c).isDigit = c.isDigit := by
    intro c
    rw [underscore]
    split
    · next h =>
      rw [beq_iff_eq.mp h]
      rfl
    · rfl
  rw [String.toList_append, presetName_toList, List.all_eq_true]
  cases variant.suffix.toList with
  | nil =>
    simp only [List.map_nil, List.nil_append, List.not_mem_nil, false_implies, implies_true,
      List.head?_nil, Option.mem_def, reduceCtorEq, and_self, iff_true]
    exact ⟨hne, hchars, hdigit⟩
  | cons c cs =>
    simp only [List.map_cons, List.cons_append, ne_eq, List.cons_ne_nil, not_false_eq_true, true_and,
      List.forall_mem_cons, List.forall_mem_append, List.forall_mem_map, hunderscore, List.head?_cons,
      Option.mem_some_iff, forall_eq', hdigits]
    exact ⟨fun ⟨⟨hc, hcs, _⟩, hno⟩ => ⟨⟨hc, hcs⟩, hno⟩, fun ⟨⟨hc, hcs⟩, hno⟩ => ⟨⟨hc, hcs, hchars⟩, hno⟩⟩

theorem namedPresets_iff {variants : List UkiVariantConfig} : NamedPresets variants ↔
    ("fallback" :: variants.map presetName).Nodup ∧
      ∀ variant ∈ variants, isVariableName (presetName variant ++ "_uki") := by
  have hnodup : ("fallback" :: variants.map presetName).Nodup ↔
      (∀ variant ∈ variants, variant.suffix ≠ "fallback") ∧ variants.Pairwise fun variant variant' =>
        ¬SameButDashes variant.suffix variant'.suffix := by
    rw [List.nodup_cons, List.Nodup, List.pairwise_map, List.mem_map, not_exists]
    simp only [ne_eq, presetName_eq_iff, presetName_eq_fallback_iff, not_and]
  have hnames : (∀ variant ∈ variants, isVariableName (presetName variant ++ "_uki")) ↔
      (∀ variant ∈ variants, variant.suffix.toList.all isNameChar) ∧
        ∀ variant ∈ variants, ∀ c ∈ variant.suffix.toList.head?, c.isDigit = false := by
    simp only [isVariableName_presetName_iff (by decide : isVariableName "_uki")]
    exact forall₂_and
  rw [hnodup, hnames]
  exact ⟨fun h => ⟨⟨h.notFallback, h.apart⟩, h.nameChars, h.noDigit⟩,
    fun h => ⟨h.1.2, h.1.1, h.2.1, h.2.2⟩⟩

section Preset

variable {kernel : String} {variants : List UkiVariantConfig} {variant : UkiVariantConfig}

theorem suffix_isNameChar (h : isVariableName (presetName variant ++ "_uki")) :
    variant.suffix.toList.all isNameChar :=
  ((isVariableName_presetName_iff (by decide)).mp h).1

theorem presetName_isNameChar (h : isVariableName (presetName variant ++ "_uki")) :
    (presetName variant).toList.all isNameChar := by
  have hsuffix := suffix_isNameChar h
  rw [List.all_eq_true] at hsuffix ⊢
  rw [presetName_toList, List.forall_mem_map]
  intro c hc
  rw [underscore]
  split
  · rfl
  · exact hsuffix c hc

theorem presetName_isWordChar (h : isVariableName (presetName variant ++ "_uki")) :
    (presetName variant).toList.all isWordChar :=
  all_of_all (presetName_isNameChar h) isWordChar_of_isNameChar

theorem suffix_isWordChar (h : isVariableName (presetName variant ++ "_uki")) :
    variant.suffix.toList.all isWordChar :=
  all_of_all (suffix_isNameChar h) isWordChar_of_isNameChar

theorem isVariableName_options (h : isVariableName (presetName variant ++ "_uki")) :
    isVariableName (presetName variant ++ "_options") :=
  (isVariableName_presetName_iff (by decide)).mpr ((isVariableName_presetName_iff (by decide)).mp h)

theorem getLast?_append {text ending : String} (h : ending ≠ "") :
    (text ++ ending).toList.getLast? = ending.toList.getLast? := by
  have hne : ending.toList ≠ [] := by simpa using h
  rw [String.toList_append, List.getLast?_append_of_ne_nil _ hne]

theorem append_ne_of_getLast? {text ending text' : String} (h : ending ≠ "")
    (hlast : ending.toList.getLast? ≠ text'.toList.getLast?) : text ++ ending ≠ text' := by
  rintro rfl
  exact hlast (getLast?_append h).symm

theorem uki_ne_options {name name' : String} : name ++ "_uki" ≠ name' ++ "_options" := by
  refine append_ne_of_getLast? (by decide) ?_
  rw [getLast?_append (by decide)]
  decide

theorem presetEntries_eq : presetEntries kernel variant =
    [presetName variant ++ "_uki" ++ "=\"" ++ ukiPath kernel variant ++ "\"",
      presetName variant ++ "_options" ++ "=\"" ++
        ("--splash /usr/share/systemd/bootctl/splash-arch.bmp --cmdline " ++
          cmdlineFile kernel variant) ++ "\""] := by
  have huki : presetEntries kernel variant =
      [presetName variant ++ "_uki=\"" ++ ukiPath kernel variant ++ "\"",
        presetName variant ++
          "_options=\"--splash /usr/share/systemd/bootctl/splash-arch.bmp " ++
            ("--cmdline " ++ cmdlineFile kernel variant ++ "\"")] := rfl
  have hname : "_uki=\"" = "_uki" ++ "=\"" := rfl
  have hoptions : "_options=\"--splash /usr/share/systemd/bootctl/splash-arch.bmp " =
      "_options" ++ "=\"" ++ "--splash /usr/share/systemd/bootctl/splash-arch.bmp " := rfl
  have hflags : "--splash /usr/share/systemd/bootctl/splash-arch.bmp --cmdline " =
      "--splash /usr/share/systemd/bootctl/splash-arch.bmp " ++ "--cmdline " := rfl
  rw [huki, hname, hoptions, hflags]
  simp only [String.append_assoc]

/-- A text that is made of texts with characters of a kind. -/
theorem all_append {p : Char → Bool} {text text' : String} (h : text.toList.all p)
    (h' : text'.toList.all p) : (text ++ text').toList.all p := by
  rw [String.toList_append, List.all_append, h, h', Bool.and_self]

theorem ukiPath_all {p : Char → Bool} (hkernel : kernel.toList.all p)
    (hsuffix : variant.suffix.toList.all p)
    (hparts : (ukiDirectory ++ "/arch-").toList.all p ∧ "-".toList.all p ∧ ".efi".toList.all p) :
    (ukiPath kernel variant).toList.all p := by
  rw [ukiPath_eq]
  exact all_append (all_append (all_append (all_append hparts.1 hkernel) hparts.2.1) hsuffix)
    hparts.2.2

theorem cmdlineFile_all {p : Char → Bool} (hkernel : kernel.toList.all p)
    (hsuffix : variant.suffix.toList.all p)
    (hparts : "/etc/kernel/cmdline-".toList.all p ∧ "-".toList.all p) :
    (cmdlineFile kernel variant).toList.all p := by
  rw [cmdlineFile_eq]
  exact all_append (all_append (all_append hparts.1 hkernel) hparts.2) hsuffix

/-- The variables that a preset assigns for a variant. -/
def variantVariables (kernel : String) (variant : UkiVariantConfig) : List (String × String) :=
  [(presetName variant ++ "_uki", ukiPath kernel variant),
    (presetName variant ++ "_options",
      "--splash /usr/share/systemd/bootctl/splash-arch.bmp --cmdline " ++
        cmdlineFile kernel variant)]

/-- The line that assigns a variable. -/
def assignmentOf (entry : String × String) : Line := .assigns entry.1 entry.2

theorem readLine_presetEntries (hkernel : kernel.toList.all isWordChar)
    (h : isVariableName (presetName variant ++ "_uki")) :
    (presetEntries kernel variant).map readLine =
      (variantVariables kernel variant).map assignmentOf := by
  have hliteral := all_of_all hkernel isLiteral_of_isWordChar
  have hliteral' := all_of_all (suffix_isWordChar h) isLiteral_of_isWordChar
  rw [presetEntries_eq, List.map_cons, List.map_singleton, readLine_assigns h, readLine_assigns]
  · rfl
  · exact isVariableName_options h
  · exact append_ne_of_getLast? (by decide) (by decide)
  · refine all_append (by decide) (cmdlineFile_all hliteral hliteral' ⟨?_, ?_⟩)
    · decide
    · decide
  · exact append_ne_of_getLast? (by decide) (by decide)
  · refine ukiPath_all hliteral hliteral' ⟨?_, ?_, ?_⟩
    · decide
    · decide
    · decide

theorem presetEntries_isInLine (hkernel : kernel.toList.all isWordChar)
    (h : isVariableName (presetName variant ++ "_uki")) :
    ∀ line ∈ presetEntries kernel variant, line.toList.all isInLine := by
  have hline := all_of_all hkernel isInLine_of_isWordChar
  have hline' := all_of_all (suffix_isWordChar h) isInLine_of_isWordChar
  have hname := all_of_all (presetName_isWordChar h) isInLine_of_isWordChar
  rw [presetEntries_eq, List.forall_mem_cons, List.forall_mem_singleton]
  constructor
  · refine all_append (all_append (all_append (all_append hname ?_) ?_)
      (ukiPath_all hline hline' ⟨?_, ?_, ?_⟩)) ?_ <;> decide
  · refine all_append (all_append (all_append (all_append hname ?_) ?_)
      (all_append ?_ (cmdlineFile_all hline hline' ⟨?_, ?_⟩))) ?_ <;> decide

/-- The lines of a preset before those of its variants. -/
def presetHeader (kernel : String) (names : List String) : List String :=
  ["# mkinitcpio preset file for " ++ kernel ++ " (UKI)",
    "# generated by arch_installer",
    "ALL_config" ++ "=\"" ++ "/etc/mkinitcpio.conf" ++ "\"",
    "ALL_kver" ++ "=\"" ++ ("/boot/vmlinuz-" ++ kernel) ++ "\"",
    "microcode=(/boot/*-ucode.img)",
    "",
    "PRESETS=(" ++ join " " (names.map fun name => "'" ++ name ++ "'") ++ ")",
    "",
    "# fallback initramfs for snapshot UKI generation",
    "fallback_image" ++ "=\"" ++ ("/boot/initramfs-" ++ kernel ++ ".img") ++ "\"",
    ""]

theorem kernelPreset_eq : kernelPreset kernel variants = unlines
    (presetHeader kernel ("fallback" :: variants.map presetName) ++
      variants.flatMap (presetEntries kernel)) := by
  have hkver : "ALL_kver=\"/boot/vmlinuz-" ++ kernel ++ "\"" =
      "ALL_kver" ++ "=\"" ++ ("/boot/vmlinuz-" ++ kernel) ++ "\"" := by
    have hparts : "ALL_kver=\"/boot/vmlinuz-" = "ALL_kver" ++ "=\"" ++ "/boot/vmlinuz-" := rfl
    rw [hparts]
    simp only [String.append_assoc]
  have himage : "fallback_image=\"/boot/initramfs-" ++ kernel ++ ".img\"" =
      "fallback_image" ++ "=\"" ++ ("/boot/initramfs-" ++ kernel ++ ".img") ++ "\"" := by
    have hparts : "fallback_image=\"/boot/initramfs-" =
        "fallback_image" ++ "=\"" ++ "/boot/initramfs-" := rfl
    have hending : ".img\"" = ".img" ++ "\"" := rfl
    rw [hparts, hending]
    simp only [String.append_assoc]
  rw [presetHeader, ← hkver, ← himage]
  rfl

theorem readLine_presetHeader {names : List String} (hkernel : kernel.toList.all isWordChar)
    (hne : names ≠ []) (hnames : ∀ name ∈ names, name.toList.all isNameChar) :
    (presetHeader kernel names).map readLine =
      [.other, .other, .assigns "ALL_config" "/etc/mkinitcpio.conf",
        .assigns "ALL_kver" ("/boot/vmlinuz-" ++ kernel), .other, .other, .presets names, .other,
        .other, .assigns "fallback_image" ("/boot/initramfs-" ++ kernel ++ ".img"), .other] := by
  have hliteral := all_of_all hkernel isLiteral_of_isWordChar
  have htitle : readLine ("# mkinitcpio preset file for " ++ kernel ++ " (UKI)") = .other := by
    have hhash : "# mkinitcpio preset file for " ++ kernel ++ " (UKI)" =
        "#" ++ (" mkinitcpio preset file for " ++ kernel ++ " (UKI)") := by
      have hstart : "# mkinitcpio preset file for " = "#" ++ " mkinitcpio preset file for " := rfl
      rw [hstart]
      simp only [String.append_assoc]
    rw [hhash, readLine_comment]
  have hmicrocode : readLine "microcode=(/boot/*-ucode.img)" = .other := rfl
  have hgenerated : readLine "# generated by arch_installer" = .other :=
    readLine_comment " generated by arch_installer"
  have hempty : readLine "" = .other := readLine_other (by decide)
  have hfallback : readLine "# fallback initramfs for snapshot UKI generation" = .other :=
    readLine_comment " fallback initramfs for snapshot UKI generation"
  simp only [presetHeader, List.map_cons, List.map_nil]
  rw [htitle, hmicrocode, hgenerated, hempty, hfallback, readLine_assigns, readLine_assigns,
    readLine_assigns, readLine_presets hne]
  any_goals decide
  · exact fun name hname => not_mem_of_all (hnames name hname) (by decide)
  · exact fun name hname => not_mem_of_all (hnames name hname) (by decide)
  · exact all_append (all_append (by decide) hliteral) (by decide)
  · exact all_append (by decide) hliteral

theorem presetHeader_isInLine {names : List String} (hkernel : kernel.toList.all isWordChar)
    (hnames : ∀ name ∈ names, name.toList.all isNameChar) :
    ∀ line ∈ presetHeader kernel names, line.toList.all isInLine := by
  have hline := all_of_all hkernel isInLine_of_isWordChar
  have hjoined : (join " " (names.map fun name => "'" ++ name ++ "'")).toList.all isInLine := by
    induction names with
    | nil => rfl
    | cons name names ih =>
      rw [List.forall_mem_cons] at hnames
      have hquoted : ("'" ++ name ++ "'").toList.all isInLine :=
        all_append (all_append (by decide) (all_of_all hnames.1 fun c hc => isInLine_of_isWordChar c (isWordChar_of_isNameChar c hc))) (by decide)
      cases names with
      | nil => exact hquoted
      | cons name' names => exact all_append (all_append hquoted (by decide)) (ih hnames.2)
  simp only [presetHeader, List.forall_mem_cons]
  refine ⟨all_append (all_append (by decide) hline) (by decide), by decide,
    by decide, all_append (all_append (by decide) (all_append (by decide) hline))
      (by decide), by decide, by decide,
    all_append (all_append (by decide) hjoined) (by decide), by decide,
    by decide, all_append (all_append (by decide)
      (all_append (all_append (by decide) hline) (by decide))) (by decide),
    by decide, by simp⟩

/-- The variables that a preset assigns, in order. -/
def presetVariables (kernel : String) (variants : List UkiVariantConfig) : List (String × String) :=
  [("ALL_config", "/etc/mkinitcpio.conf"), ("ALL_kver", "/boot/vmlinuz-" ++ kernel),
    ("fallback_image", "/boot/initramfs-" ++ kernel ++ ".img")] ++
  variants.flatMap (variantVariables kernel)

theorem filterMap_assignmentOf (entries : List (String × String)) :
    (entries.map assignmentOf).filterMap Line.assignment = entries ∧
      (entries.map assignmentOf).filterMap Line.names = [] := by
  constructor
  · rw [List.filterMap_map]
    exact List.filterMap_some
  · rw [List.filterMap_map]
    exact List.filterMap_eq_nil_iff.mpr fun _ _ => rfl

theorem evaluate_kernelPreset_eq (hkernel : kernel.toList.all isWordChar)
    (h : ∀ variant ∈ variants, isVariableName (presetName variant ++ "_uki")) :
    evaluate (kernelPreset kernel variants) = ("fallback" :: variants.map presetName).filterMap
      (build (presetVariables kernel variants).reverse) := by
  have hnames : ∀ name ∈ "fallback" :: variants.map presetName, name.toList.all isNameChar := by
    rw [List.forall_mem_cons, List.forall_mem_map]
    exact ⟨by decide, fun variant hvariant => presetName_isNameChar (h variant hvariant)⟩
  have hlines : ∀ line ∈ presetHeader kernel ("fallback" :: variants.map presetName) ++
      variants.flatMap (presetEntries kernel), '\n' ∉ line.toList := by
    intro line hline hmem
    rw [List.mem_append, List.mem_flatMap] at hline
    have hall : line.toList.all isInLine := by
      rcases hline with hline | ⟨variant, hvariant, hline⟩
      · exact presetHeader_isInLine hkernel hnames line hline
      · exact presetEntries_isInLine hkernel (h variant hvariant) line hline
    exact absurd (List.all_eq_true.mp hall _ hmem) (by decide)
  have hentries : (variants.flatMap (presetEntries kernel)).map readLine =
      (variants.flatMap (variantVariables kernel)).map assignmentOf := by
    rw [List.map_flatMap, List.map_flatMap]
    exact List.flatMap_congr fun variant hvariant => readLine_presetEntries hkernel (h variant hvariant)
  have hempty : readLine "" = .other := readLine_other (by decide)
  obtain ⟨hassigned, hpresets⟩ := filterMap_assignmentOf (variants.flatMap (variantVariables kernel))
  rw [evaluate, kernelPreset_eq, split_unlines hlines, List.map_append, List.map_append,
    readLine_presetHeader hkernel (List.cons_ne_nil _ _) hnames, hentries, List.map_singleton, hempty]
  have hlast : [Line.other].filterMap Line.assignment = [] := rfl
  simp only [List.filterMap_append, hassigned, hpresets, hlast, presetVariables, List.append_nil]
  rfl

theorem mem_presetVariables {entry : String × String} :
    entry ∈ presetVariables kernel variants ↔
      entry ∈ [("ALL_config", "/etc/mkinitcpio.conf"), ("ALL_kver", "/boot/vmlinuz-" ++ kernel),
        ("fallback_image", "/boot/initramfs-" ++ kernel ++ ".img")] ∨
      ∃ variant ∈ variants, entry ∈ variantVariables kernel variant := by
  rw [presetVariables, List.mem_append, List.mem_flatMap]

theorem mem_variantVariables {name : String} :
    name ∈ (variantVariables kernel variant).map Prod.fst ↔
      name = presetName variant ++ "_uki" ∨ name = presetName variant ++ "_options" := by
  simp [variantVariables]

theorem nodup_variantVariables (h : (variants.map presetName).Nodup) :
    ((variants.flatMap (variantVariables kernel)).map Prod.fst).Nodup := by
  induction variants with
  | nil => exact List.nodup_nil
  | cons variant variants ih =>
    rw [List.map_cons, List.nodup_cons] at h
    rw [List.flatMap_cons, List.map_append, List.nodup_append']
    refine ⟨?_, ih h.2, ?_⟩
    · exact List.nodup_cons.mpr ⟨by simp, List.nodup_singleton _⟩
    · intro name hname hothers
      rw [List.map_flatMap, List.mem_flatMap] at hothers
      obtain ⟨variant', hvariant', hname'⟩ := hothers
      have hne : presetName variant ≠ presetName variant' := fun heq => h.1 (by
        rw [heq]
        exact List.mem_map_of_mem hvariant')
      rw [mem_variantVariables] at hname hname'
      rcases hname with rfl | rfl <;> rcases hname' with heq | heq
      · exact hne ((String.append_left_inj _).mp heq)
      · exact uki_ne_options heq
      · exact uki_ne_options heq.symm
      · exact hne ((String.append_left_inj _).mp heq)

theorem nodup_presetVariables (h : (variants.map presetName).Nodup) :
    ((presetVariables kernel variants).map Prod.fst).Nodup := by
  rw [presetVariables, List.map_append, List.nodup_append']
  refine ⟨by simp, nodup_variantVariables h, ?_⟩
  intro name hname hothers
  rw [List.map_flatMap, List.mem_flatMap] at hothers
  obtain ⟨variant, -, hvariant⟩ := hothers
  have hends : name.toList.getLast? = some 'i' ∨ name.toList.getLast? = some 's' := by
    rw [mem_variantVariables] at hvariant
    rcases hvariant with rfl | rfl
    · exact .inl (getLast?_append (by decide))
    · exact .inr (getLast?_append (by decide))
  simp only [List.map_cons, List.map_nil, List.mem_cons, List.not_mem_nil, or_false] at hname
  rcases hname with rfl | rfl | rfl <;> exact absurd hends (by decide)

theorem words_options {file : String} (hne : file ≠ "") (hblank : ' ' ∉ file.toList)
    (htab : '\t' ∉ file.toList) :
    words ("--splash /usr/share/systemd/bootctl/splash-arch.bmp --cmdline " ++ file) =
      ["--splash", "/usr/share/systemd/bootctl/splash-arch.bmp", "--cmdline", file] := by
  have hjoin : "--splash /usr/share/systemd/bootctl/splash-arch.bmp --cmdline " ++ file =
      join " " ["--splash", "/usr/share/systemd/bootctl/splash-arch.bmp", "--cmdline", file] := by
    have hflags : "--splash /usr/share/systemd/bootctl/splash-arch.bmp --cmdline " = "--splash" ++
        " " ++ ("/usr/share/systemd/bootctl/splash-arch.bmp" ++ " " ++ ("--cmdline" ++ " ")) := rfl
    rw [hflags]
    simp only [join, String.append_assoc]
  rw [hjoin]
  refine words_join (List.cons_ne_nil _ _) ?_ ?_
  · simpa using hne.symm
  · simp only [List.forall_mem_cons]
    exact ⟨by decide, by decide, by decide, ⟨hblank, htab⟩, by simp⟩

theorem build_presetName (hkernel : kernel.toList.all isWordChar) (hvariant : variant ∈ variants)
    (hname : isVariableName (presetName variant ++ "_uki"))
    (h : (variants.map presetName).Nodup) :
    build (presetVariables kernel variants).reverse (presetName variant) =
      some ⟨presetName variant, ukiPath kernel variant, cmdlineFile kernel variant⟩ := by
  have hnodup : ((presetVariables kernel variants).reverse.map Prod.fst).Nodup := by
    rw [List.map_reverse, List.nodup_reverse]
    exact nodup_presetVariables h
  have hlookup : ∀ entry ∈ variantVariables kernel variant,
      (presetVariables kernel variants).reverse.lookup entry.1 = some entry.2 := by
    intro entry hentry
    refine lookup_of_mem hnodup (List.mem_reverse.mpr ?_)
    exact mem_presetVariables.mpr (.inr ⟨variant, hvariant, hentry⟩)
  rw [variantVariables, List.forall_mem_cons, List.forall_mem_singleton] at hlookup
  have hfile : (cmdlineFile kernel variant).toList.all isWordChar :=
    cmdlineFile_all hkernel (suffix_isWordChar hname) (by decide)
  have hne : cmdlineFile kernel variant ≠ "" := by
    rw [cmdlineFile_eq]
    simp
  rw [build, hlookup.1, hlookup.2]
  simp only [Option.bind_eq_bind, Option.bind_some, words_options hne (not_mem_of_all hfile (by decide)) (not_mem_of_all hfile (by decide))]
  rfl

theorem build_fallback (h : ("fallback" :: variants.map presetName).Nodup) :
    build (presetVariables kernel variants).reverse "fallback" = none := by
  have hlookup : (presetVariables kernel variants).reverse.lookup ("fallback" ++ "_uki") = none := by
    rw [List.lookup_eq_none_iff]
    intro entry hentry
    rw [bne_iff_ne]
    intro heq
    rcases mem_presetVariables.mp (List.mem_reverse.mp hentry) with hheader | ⟨variant, hmem, hvariant⟩
    · simp only [List.mem_cons, List.not_mem_nil, or_false] at hheader
      rcases hheader with rfl | rfl | rfl <;> exact absurd heq (by simp)
    · rcases mem_variantVariables.mp (List.mem_map_of_mem hvariant) with hname | hname
      · rw [hname, String.append_left_inj] at heq
        refine (List.nodup_cons.mp h).1 ?_
        rw [heq]
        exact List.mem_map_of_mem hmem
      · exact uki_ne_options (heq.trans hname)
  rw [build, hlookup]
  rfl

/-- What a preset builds. -/
theorem evaluate_kernelPreset (hkernel : kernel.toList.all isWordChar) (h : NamedPresets variants) :
    evaluate (kernelPreset kernel variants) = variants.map fun variant =>
      ⟨presetName variant, ukiPath kernel variant, cmdlineFile kernel variant⟩ := by
  obtain ⟨hnodup, hnames⟩ := namedPresets_iff.mp h
  rw [evaluate_kernelPreset_eq hkernel hnames, List.filterMap_cons, build_fallback hnodup,
    List.filterMap_map, ← List.filterMap_eq_map]
  refine List.filterMap_congr fun variant hvariant => ?_
  exact build_presetName hkernel hvariant (hnames variant hvariant) (List.nodup_cons.mp hnodup).2

end Preset

/-! ## The claim holds when the condition does -/

section Claim

variable {kernels : List String} {variants : List UkiVariantConfig}

theorem of_evaluate {kernel : String} (h : evaluate (kernelPreset kernel variants) =
    variants.map fun variant =>
      ⟨presetName variant, ukiPath kernel variant, cmdlineFile kernel variant⟩) :
    ∀ variant ∈ variants, isVariableName (presetName variant ++ "_uki") ∧
      kernel.toList.all isWordChar := by
  intro variant hvariant
  have hmem : (⟨presetName variant, ukiPath kernel variant, cmdlineFile kernel variant⟩ : Build) ∈
      evaluate (kernelPreset kernel variants) := by
    rw [h]
    exact List.mem_map_of_mem (f := fun variant : UkiVariantConfig =>
      (⟨presetName variant, ukiPath kernel variant, cmdlineFile kernel variant⟩ : Build)) hvariant
  obtain ⟨hname, hliteral, hfeed, hblank, htab⟩ := of_mem_evaluate hmem
  refine ⟨hname, List.all_eq_true.mpr fun c hc => ?_⟩
  have huki : c ∈ (ukiPath kernel variant).toList := by
    rw [ukiPath_eq]
    simp only [String.toList_append, List.mem_append, hc, or_true, true_or]
  have hcmdline : c ∈ (cmdlineFile kernel variant).toList := by
    rw [cmdlineFile_eq]
    simp only [String.toList_append, List.mem_append, hc, or_true, true_or]
  rw [isWordChar, List.all_eq_true.mp hliteral c huki, Bool.true_and, Bool.not_eq_true',
    List.contains_eq_mem, decide_eq_false_iff_not]
  simp only [List.mem_cons, List.not_mem_nil, or_false]
  rintro (rfl | rfl | rfl)
  · exact hfeed huki
  · exact htab hcmdline
  · exact hblank hcmdline

theorem ukisApart_iff_namesApart (hne : variants ≠ []) (hnodup : (variants.map (·.suffix)).Nodup) :
    UkisApart kernels variants ↔ NamesApart kernels variants := by
  constructor
  · intro h
    obtain ⟨first, hfirst⟩ := List.exists_mem_of_ne_nil _ hne
    refine ⟨noSharedName_iff.mpr ?_, fun hkernels =>
      namedPresets_iff.mpr ⟨h.names hkernels, ?_⟩, ?_⟩
    · intro kernel hkernel variant hvariant kernel' hkernel' variant' hvariant' heq
      obtain ⟨hsame, rfl⟩ := h.ukiPath kernel hkernel variant hvariant kernel' hkernel' variant'
        hvariant' (ukiPath_eq_iff.mpr heq)
      exact ⟨hsame, rfl⟩
    · obtain ⟨kernel, hkernel⟩ := List.exists_mem_of_ne_nil _ hkernels
      exact fun variant hvariant => (of_evaluate (h.builds kernel hkernel) variant hvariant).1
    · exact fun kernel hkernel => (of_evaluate (h.builds kernel hkernel) first hfirst).2
  · intro h
    have hapart := noSharedName_iff.mp h.noSharedName
    have hvariants : ∀ variant ∈ variants, ∀ variant' ∈ variants,
        variant.suffix = variant'.suffix → variant = variant' := fun variant hvariant variant' hvariant' =>
      List.inj_on_of_nodup_map hnodup hvariant hvariant'
    refine ⟨?_, ?_, fun hkernels =>
      (namedPresets_iff.mp (h.namedPresets hkernels)).1, ?_⟩
    · intro kernel hkernel variant hvariant kernel' hkernel' variant' hvariant' heq
      obtain ⟨hkernels, hsuffix⟩ := hapart kernel hkernel variant hvariant kernel' hkernel' variant'
        hvariant' (ukiPath_eq_iff.mp heq)
      exact ⟨hkernels, hvariants variant hvariant variant' hvariant' hsuffix⟩
    · intro kernel hkernel variant hvariant kernel' hkernel' variant' hvariant' heq
      obtain ⟨hkernels, hsuffix⟩ := hapart kernel hkernel variant hvariant kernel' hkernel' variant'
        hvariant' (cmdlineFile_eq_iff.mp heq)
      exact ⟨hkernels, hvariants variant hvariant variant' hvariant' hsuffix⟩
    · intro kernel hkernel
      exact evaluate_kernelPreset (h.words kernel hkernel)
        (h.namedPresets (List.ne_nil_of_mem hkernel))

theorem nodup_ukiVariants {config : InstallerConfig}
    (h : (config.boot.variants.map (·.suffix)).Nodup) :
    ((ukiVariants config).map (·.suffix)).Nodup := by
  rw [ukiVariants, List.map_cons, List.nodup_cons]
  constructor
  · rw [List.mem_map]
    rintro ⟨variant, hvariant, heq⟩
    exact absurd heq (by simpa using (List.mem_filter.mp hvariant).2)
  · exact h.sublist (List.filter_sublist.map _)

end Claim

/-- Of variants with suffixes that are apart, the UKIs are apart when their names are. -/
theorem ukisApart_iff {config : InstallerConfig} {kernels : List String}
    (hsuffixes : (config.boot.variants.map (·.suffix)).Nodup) :
    UkisApart kernels (ukiVariants config) ↔ NamesApart kernels (ukiVariants config) :=
  ukisApart_iff_namesApart (List.cons_ne_nil _ _) (nodup_ukiVariants hsuffixes)

/-- Two kernels, and a variant next to the plain one. -/
def twoKernels (suffix : String) : InstallerConfig :=
  { sampleConfig with boot := { sampleBoot with
      selectedKernels := ["linux", "linux-lts"],
      variants := [{ suffix := suffix, params := "loglevel=7" }] } }

theorem ukisApart_iff_debug :
    UkisApart ["linux", "linux-lts"] (ukiVariants (twoKernels "debug")) := by
  refine (ukisApart_iff (by decide)).mpr ⟨noSharedName_iff.mpr (by decide), fun _ => ?_, by decide⟩
  exact namedPresets_iff.mpr ⟨by decide, by decide⟩

/-- The plain UKI of `linux-lts` is also the one of `linux` and `lts-default`. -/
theorem not_ukisApart_of_apart : ¬∀ config : InstallerConfig, config.boot.kernelPackages.Nodup →
    (config.boot.variants.map (·.suffix)).Nodup →
      UkisApart config.boot.kernelPackages (ukiVariants config) := by
  intro h
  have hapart := h (twoKernels "lts-default") (by decide) (by decide)
  have hsame := hapart.ukiPath "linux" (by decide) { suffix := "lts-default", params := "loglevel=7" }
    (.tail _ (.head _)) "linux-lts" (by decide) plainVariant (.head _) rfl
  exact absurd hsame.1 (by decide)

end ArchInstaller
