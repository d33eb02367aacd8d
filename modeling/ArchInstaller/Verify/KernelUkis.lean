import ArchInstaller.Python.Digits
import ArchInstaller.Scripts.VerifyInstall
import ArchInstaller.Verify.UkiNames

/-! # Whose UKI a kernel is found bootable by

The name of a UKI holds the kernel, a dash and the suffix, and a kernel is looked for by its name,
a dash and anything. So it is found by the UKIs of every kernel whose name goes on after it. -/

namespace ArchInstaller.VerifyInstall

open PyText

/-- The name of a package: pacman takes letters, digits and `@`, `.`, `_`, `+`, `-`. -/
structure PackageName where
  text : String
  nonempty : text ≠ ""
  chars : ∀ c ∈ text.toList, c.isAlphanum ∨ c ∈ ['@', '.', '_', '+', '-']

/-- A file of the UKI directory: that of a kernel and a variant, or that of a snapshot. -/
inductive Uki where
  | ofVariant (kernel : PackageName) (variant : UkiVariantConfig)
      (oneName : '/' ∉ variant.suffix.toList)
  | ofSnapshot (number : Nat) (kernel : PackageName)

/-- `uki_path`, and `uki_output` of `generate_snapshot_uki`. -/
def Uki.path : Uki → String
  | ofVariant kernel variant _ => ukiPath kernel.text variant
  | ofSnapshot number kernel => s!"{ukiDir}/arch-snapshot-{number}-{kernel.text}.efi"

variable (config : InstallerConfig) (kernels : List PackageName) (ukis : List Uki)

/-- There is the UKI of the kernel itself, for one of the configured variants. -/
def HasOwnUki (kernel : PackageName) : Prop :=
  ∃ variant ∈ ukiVariants config, ukiPath kernel.text variant ∈ ukis.map Uki.path

def passed (kernel : PackageName) : Report := .pass s!"UKI exists for kernel: {kernel.text}"

/-- The kernels that are found bootable are those with a UKI. -/
def ReportsBootable : Prop := ∀ kernel ∈ kernels,
  passed kernel ∈ verifyKernels (join " " (kernels.map PackageName.text)) (ukis.map Uki.path) ↔
    HasOwnUki config ukis kernel

/-- The UKI is of the kernel, or of one whose name goes on with a dash, or of one that the name goes
on from, into the suffix; or it is of a snapshot, and the kernel has a name like that. -/
def TakenFor (kernel : PackageName) : Uki → Prop
  | .ofVariant other variant _ => other.text = kernel.text ∨
      (∃ rest, other.text = kernel.text ++ "-" ++ rest) ∨
      ∃ rest rest', kernel.text = other.text ++ "-" ++ rest ∧ variant.suffix = rest ++ "-" ++ rest'
  | .ofSnapshot number other => kernel.text = "snapshot" ∨
      kernel.text = "snapshot-" ++ toString number ∨
      ∃ rest rest', kernel.text = "snapshot-" ++ toString number ++ "-" ++ rest ∧
        other.text = rest ++ "-" ++ rest'

variable {config kernels ukis}

/-! ## Patterns -/

/-- A character that a pattern takes literally. -/
def isLiteralChar (c : Char) : Bool := c != '*' && c != '?'

theorem glob_literal {start : List Char} (h : ∀ c ∈ start, isLiteralChar c)
    (pattern cs : List Char) : glob (start ++ pattern) cs ↔
      ∃ rest, cs = start ++ rest ∧ glob pattern rest := by
  induction start generalizing cs with
  | nil => simp
  | cons p start ih =>
    obtain ⟨hp, hstart⟩ := List.forall_mem_cons.mp h
    rw [isLiteralChar, Bool.and_eq_true, bne_iff_ne, bne_iff_ne] at hp
    cases cs with
    | nil => simp [glob, hp.1]
    | cons c cs =>
      simp only [List.cons_append, glob, if_neg hp.1, if_neg hp.2]
      rw [Bool.and_eq_true, beq_iff_eq, ih hstart]
      constructor
      · rintro ⟨rfl, rest, rfl, hrest⟩
        exact ⟨rest, rfl, hrest⟩
      · rintro ⟨rest, heq, hrest⟩
        obtain ⟨rfl, rfl⟩ := List.cons.inj heq
        exact ⟨rfl, rest, rfl, hrest⟩

theorem glob_all_literal {pattern : List Char} (h : ∀ c ∈ pattern, isLiteralChar c)
    (cs : List Char) : glob pattern cs ↔ cs = pattern := by
  have hglob := glob_literal h [] cs
  rw [List.append_nil] at hglob
  rw [hglob]
  simp [glob]

theorem glob_asterisk {pattern cs : List Char} :
    glob ('*' :: pattern) cs = anyThen (glob pattern) cs := by
  cases cs <;> rfl

/-- An asterisk stands for any text without a slash. -/
theorem anyThen_iff {rest : List Char → Bool} {cs : List Char} : anyThen rest cs ↔
    ∃ skipped cs', cs = skipped ++ cs' ∧ '/' ∉ skipped ∧ rest cs' := by
  induction cs with
  | nil =>
    constructor
    · exact fun h => ⟨[], [], rfl, List.not_mem_nil, h⟩
    · rintro ⟨skipped, cs', heq, -, h⟩
      obtain ⟨rfl, rfl⟩ := List.nil_eq_append_iff.mp heq
      exact h
  | cons c cs ih =>
    rw [anyThen, Bool.or_eq_true, Bool.and_eq_true, bne_iff_ne, ih]
    constructor
    · rintro (h | ⟨hc, skipped, cs', rfl, hskipped, h⟩)
      · exact ⟨[], c :: cs, rfl, List.not_mem_nil, h⟩
      · refine ⟨c :: skipped, cs', rfl, ?_, h⟩
        rw [List.mem_cons, not_or]
        exact ⟨Ne.symm hc, hskipped⟩
    · rintro ⟨skipped, cs', heq, hskipped, h⟩
      cases skipped with
      | nil =>
        obtain rfl : c :: cs = cs' := heq
        exact .inl h
      | cons c' skipped =>
        obtain ⟨rfl, rfl⟩ := List.cons.inj heq
        rw [List.mem_cons, not_or] at hskipped
        exact .inr ⟨Ne.symm hskipped.1, skipped, cs', rfl, hskipped.2, h⟩

theorem PackageName.ne_of_mem {kernel : PackageName} {c d : Char} (hc : c ∈ kernel.text.toList)
    (hd : ¬ (d.isAlphanum ∨ d ∈ ['@', '.', '_', '+', '-'])) : c ≠ d := by
  rintro rfl
  exact hd (kernel.chars c hc)

theorem PackageName.isLiteralChar {kernel : PackageName} {c : Char}
    (hc : c ∈ kernel.text.toList) : isLiteralChar c := by
  rw [VerifyInstall.isLiteralChar, Bool.and_eq_true, bne_iff_ne, bne_iff_ne]
  exact ⟨kernel.ne_of_mem hc (by decide), kernel.ne_of_mem hc (by decide)⟩

/-- The pattern of a kernel matches the names that go on after the kernel and a dash. -/
theorem glob_kernel_iff (kernel : PackageName) {name : String} (hname : '/' ∉ name.toList) :
    glob (ukiDir ++ "/arch-" ++ kernel.text ++ "-*.efi").toList
        (ukiDir ++ "/arch-" ++ name ++ ".efi").toList ↔
      ∃ rest, name = kernel.text ++ "-" ++ rest := by
  have hstart : ∀ c ∈ (ukiDir ++ "/arch-" ++ kernel.text ++ "-").toList, isLiteralChar c := by
    intro c hc
    rw [String.toList_append, String.toList_append, List.mem_append, List.mem_append] at hc
    rcases hc with (hc | hc) | hc
    · exact List.all_eq_true.mp (by decide : (ukiDir ++ "/arch-").toList.all isLiteralChar) c hc
    · exact PackageName.isLiteralChar hc
    · exact List.all_eq_true.mp (by decide : "-".toList.all isLiteralChar) c hc
  have hpattern : (ukiDir ++ "/arch-" ++ kernel.text ++ "-*.efi").toList =
      (ukiDir ++ "/arch-" ++ kernel.text ++ "-").toList ++ '*' :: ".efi".toList := by
    have hstar : "-*.efi".toList = "-".toList ++ '*' :: ".efi".toList := rfl
    simp only [String.toList_append, hstar, List.append_assoc]
  have hafter : ∀ rest, glob ('*' :: ".efi".toList) rest ↔
      ∃ skipped, rest = skipped ++ ".efi".toList ∧ '/' ∉ skipped := by
    intro rest
    rw [glob_asterisk, anyThen_iff]
    constructor
    · rintro ⟨skipped, cs', rfl, hskipped, hend⟩
      rw [glob_all_literal (forall_mem_of_all (by decide))] at hend
      exact ⟨skipped, by rw [hend], hskipped⟩
    · rintro ⟨skipped, rfl, hskipped⟩
      exact ⟨skipped, ".efi".toList, rfl, hskipped, (glob_all_literal (forall_mem_of_all (by decide)) _).mpr rfl⟩
  rw [hpattern, glob_literal hstart]
  simp only [hafter]
  constructor
  · rintro ⟨_, heq, skipped, rfl, -⟩
    refine ⟨String.ofList skipped, ?_⟩
    have hwhole : (ukiDir ++ "/arch-" ++ name ++ ".efi").toList = (ukiDir ++ "/arch-" ++
        (kernel.text ++ "-" ++ String.ofList skipped) ++ ".efi").toList := by
      rw [heq]
      simp only [String.toList_append, String.toList_ofList, List.append_assoc]
    rwa [String.toList_inj, String.append_left_inj, String.append_right_inj] at hwhole
  · rintro ⟨rest, rfl⟩
    refine ⟨rest.toList ++ ".efi".toList, ?_, rest.toList, rfl, ?_⟩
    · simp only [String.toList_append, List.append_assoc]
    · intro hslash
      exact hname (by simp [hslash])

theorem ifsWords_join (kernels : List PackageName) :
    ifsWords (join " " (kernels.map PackageName.text)) = kernels.map PackageName.text := by
  have hblank : ∀ d : Char, ¬ (d.isAlphanum ∨ d ∈ ['@', '.', '_', '+', '-']) →
      ∀ part ∈ kernels.map PackageName.text, d ∉ part.toList := by
    intro d hd part hpart hmem
    obtain ⟨kernel, -, rfl⟩ := List.mem_map.mp hpart
    exact kernel.ne_of_mem hmem hd rfl
  cases kernels with
  | nil => rfl
  | cons kernel kernels =>
    have hline : replaceChar '\n' " " (join " " ((kernel :: kernels).map PackageName.text)) =
        join " " ((kernel :: kernels).map PackageName.text) :=
      Preset.replaceChar_of_not_mem
        (Preset.not_mem_join (by decide) (hblank '\n' (by decide)))
    rw [ifsWords, hline]
    refine Preset.words_join (by simp) ?_ fun part hpart =>
      ⟨hblank ' ' (by decide) part hpart, hblank '\t' (by decide) part hpart⟩
    intro hempty
    obtain ⟨kernel', -, hkernel'⟩ := List.mem_map.mp hempty
    exact kernel'.nonempty hkernel'

/-! ## The check -/

theorem passed_mem_verifyKernels {kernel : PackageName} {files : List String}
    (hkernel : kernel ∈ kernels) :
    passed kernel ∈ verifyKernels (join " " (kernels.map PackageName.text)) files ↔
      ∃ file ∈ files, glob (ukiDir ++ "/arch-" ++ kernel.text ++ "-*.efi").toList file.toList := by
  rw [verifyKernels, ifsWords_join, List.map_map, List.mem_map]
  simp only [Function.comp_apply, passed]
  constructor
  · rintro ⟨other, -, hreport⟩
    split at hreport
    · next hany =>
      obtain ⟨file, hfile, hglob⟩ := List.any_eq_true.mp hany
      have htext : "UKI exists for kernel: " ++ other.text = "UKI exists for kernel: " ++ kernel.text :=
        Report.pass.inj hreport
      rw [String.append_right_inj] at htext
      rw [htext] at hglob
      exact ⟨file, hfile, hglob⟩
    · cases hreport
  · rintro ⟨file, hfile, hglob⟩
    exact ⟨kernel, hkernel, if_pos (List.any_eq_true.mpr ⟨file, hfile, hglob⟩)⟩

/-- What follows `arch-` in the name of a file, up to `.efi`. -/
def Uki.name : Uki → String
  | ofVariant kernel variant _ => kernel.text ++ "-" ++ variant.suffix
  | ofSnapshot number kernel => "snapshot-" ++ toString number ++ "-" ++ kernel.text

theorem Uki.path_eq (uki : Uki) : uki.path = ukiDir ++ "/arch-" ++ uki.name ++ ".efi" := by
  cases uki with
  | ofVariant kernel variant =>
    have hjoin : ukiDirectory ++ "/arch-" = ukiDir ++ "/arch-" := rfl
    rw [path, ukiPath_eq, name, hjoin]
    simp only [String.append_assoc]
  | ofSnapshot number kernel =>
    have hjoin : "/arch-snapshot-" = "/arch-" ++ "snapshot-" := by decide
    change ukiDir ++ "/arch-snapshot-" ++ toString number ++ "-" ++ kernel.text ++ ".efi" = _
    rw [hjoin, name]
    simp only [String.append_assoc]

theorem Uki.not_mem_name (uki : Uki) : '/' ∉ uki.name.toList := by
  have hkernel : ∀ kernel : PackageName, '/' ∉ kernel.text.toList := fun kernel hmem =>
    kernel.ne_of_mem hmem (by decide) rfl
  cases uki with
  | ofVariant kernel variant oneName =>
    simp only [name, String.toList_append, List.mem_append, not_or]
    exact ⟨⟨hkernel kernel, by decide⟩, oneName⟩
  | ofSnapshot number kernel =>
    simp only [name, String.toList_append, List.mem_append, not_or]
    exact ⟨⟨⟨by decide, not_mem_toString (by decide) number⟩, by decide⟩, hkernel kernel⟩

/-- A text without a dash is not another one that a dash follows. -/
theorem ne_append_dash {text start rest : String} (h : '-' ∉ text.toList) :
    text ≠ start ++ "-" ++ rest := by
  rintro rfl
  refine h ?_
  simp only [String.toList_append, List.mem_append]
  exact .inl (.inr (by decide))

theorem takenFor_iff {kernel : PackageName} {uki : Uki} :
    TakenFor kernel uki ↔ ∃ rest, uki.name = kernel.text ++ "-" ++ rest := by
  cases uki with
  | ofVariant other variant =>
    simp only [TakenFor, Uki.name, append_dash_eq_iff']
    constructor
    · rintro (hsame | ⟨rest, hother⟩ | ⟨rest, rest', hkernel, hsuffix⟩)
      · exact ⟨variant.suffix, .inl ⟨hsame, rfl⟩⟩
      · exact ⟨_, .inr (.inr ⟨rest, hother, rfl⟩)⟩
      · exact ⟨rest', .inr (.inl ⟨rest, hkernel, hsuffix⟩)⟩
    · rintro ⟨rest, ⟨hsame, -⟩ | ⟨between, hkernel, hsuffix⟩ | ⟨between, hother, -⟩⟩
      · exact .inl hsame
      · exact .inr (.inr ⟨between, rest, hkernel, hsuffix⟩)
      · exact .inr (.inl ⟨between, hother⟩)
  | ofSnapshot number other =>
    have hname : Uki.name (.ofSnapshot number other) =
        "snapshot" ++ "-" ++ (toString number ++ "-" ++ other.text) := by
      have hjoin : "snapshot-" = "snapshot" ++ "-" := by decide
      rw [Uki.name, hjoin]
      simp only [String.append_assoc]
    have hjoin : ∀ text, "snapshot-" ++ text = "snapshot" ++ "-" ++ text := fun _ => rfl
    have hnumber : '-' ∉ (toString number).toList := not_mem_toString (by decide) number
    simp only [TakenFor, hname, append_dash_eq_iff']
    constructor
    · rintro (hkernel | hkernel | ⟨rest, rest', hkernel, hother⟩)
      · exact ⟨_, .inl ⟨hkernel.symm, rfl⟩⟩
      · exact ⟨other.text, .inr (.inl ⟨toString number, hkernel, .inl ⟨rfl, rfl⟩⟩)⟩
      · refine ⟨rest', .inr (.inl ⟨toString number ++ "-" ++ rest, ?_, ?_⟩)⟩
        · rw [hkernel, hjoin]
          simp only [String.append_assoc]
        · exact .inr (.inl ⟨rest, rfl, hother⟩)
    · rintro ⟨rest, ⟨hkernel, -⟩ | ⟨between, hkernel, hsame | ⟨after, hbetween, hother⟩ |
        ⟨after, hbetween, -⟩⟩ | ⟨between, hsnapshot, -⟩⟩
      · exact .inl hkernel.symm
      · rw [hsame.1] at *
        exact .inr (.inl hkernel)
      · refine .inr (.inr ⟨after, rest, ?_, hother⟩)
        rw [hkernel, hbetween, hjoin]
        simp only [String.append_assoc]
      · exact absurd hbetween (ne_append_dash hnumber)
      · exact absurd hsnapshot (ne_append_dash (by decide))

theorem passed_mem_iff {kernel : PackageName} (hkernel : kernel ∈ kernels) :
    passed kernel ∈ verifyKernels (join " " (kernels.map PackageName.text)) (ukis.map Uki.path) ↔
      ∃ uki ∈ ukis, TakenFor kernel uki := by
  rw [passed_mem_verifyKernels hkernel]
  simp only [List.mem_map, exists_exists_and_eq_and, takenFor_iff, Uki.path_eq,
    glob_kernel_iff kernel (Uki.not_mem_name _)]

/-- An own UKI is found by its name. -/
theorem HasOwnUki.takenFor {kernel : PackageName} (h : HasOwnUki config ukis kernel) :
    ∃ uki ∈ ukis, TakenFor kernel uki := by
  obtain ⟨variant, -, hpath⟩ := h
  obtain ⟨uki, huki, hsame⟩ := List.mem_map.mp hpath
  refine ⟨uki, huki, takenFor_iff.mpr ⟨variant.suffix, ?_⟩⟩
  have hown : ukiPath kernel.text variant =
      ukiDir ++ "/arch-" ++ (kernel.text ++ "-" ++ variant.suffix) ++ ".efi" := by
    rw [ukiPath_eq]
    simp only [String.append_assoc]
    rfl
  rwa [uki.path_eq, hown, String.append_left_inj, String.append_right_inj] at hsame

/-- Exactly the kernels with a UKI are found bootable if and only if every kernel has its own UKI or
is found by none. -/
theorem reportsBootable_iff (config : InstallerConfig) (kernels : List PackageName)
    (ukis : List Uki) : ReportsBootable config kernels ukis ↔ ∀ kernel ∈ kernels,
      HasOwnUki config ukis kernel ∨ ∀ uki ∈ ukis, ¬ TakenFor kernel uki := by
  refine forall₂_congr fun kernel hkernel => ?_
  rw [passed_mem_iff hkernel]
  constructor
  · intro h
    by_cases hown : HasOwnUki config ukis kernel
    · exact .inl hown
    · exact .inr fun uki huki htaken => hown (h.mp ⟨uki, huki, htaken⟩)
  · rintro (hown | hnone)
    · exact ⟨fun _ => hown, fun _ => hown.takenFor⟩
    · refine ⟨fun ⟨uki, huki, htaken⟩ => absurd htaken (hnone uki huki), fun hown => hown.takenFor⟩

def linux : PackageName := ⟨"linux", by decide, forall_mem_of_all (by decide)⟩

def linuxLts : PackageName := ⟨"linux-lts", by decide, forall_mem_of_all (by decide)⟩

/-- Only the LTS kernel has a UKI, and the other one is found bootable by it. -/
theorem not_reportsBootable : ¬ ∀ config kernels ukis, ReportsBootable config kernels ukis := by
  intro h
  have hpassed : passed linux ∈ verifyKernels (join " " ([linux, linuxLts].map PackageName.text))
      ([Uki.ofVariant linuxLts plainVariant (by decide)].map Uki.path) := by decide
  obtain ⟨variant, hvariant, hown⟩ := (h sampleConfig [linux, linuxLts]
    [.ofVariant linuxLts plainVariant (by decide)] linux List.mem_cons_self).mp hpassed
  obtain rfl : variant = plainVariant := by simpa [ukiVariants, sampleConfig, sampleBoot] using hvariant
  exact absurd hown (by decide)

end ArchInstaller.VerifyInstall
