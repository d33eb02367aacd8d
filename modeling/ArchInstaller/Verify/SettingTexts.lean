import Mathlib.Data.List.TakeWhile
import ArchInstaller.Config.EnvironmentText
import ArchInstaller.Setup.Registry
import ArchInstaller.Verify.ExportImport

/-! # Texts of settings

The values that the environment gives are values of the declared types, and every value but a
negative number can be given. -/

namespace ArchInstaller

open PyData PyText

/-! ## The claim -/

/-- The same text but for the case of ASCII letters. -/
def SameLetters (text text' : String) : Prop :=
  text.toList.map Char.toLower = text'.toList.map Char.toLower

/-- A text with blanks around it. -/
def BlanksAround (text part : String) : Prop :=
  ∃ before after : List Char, part.toList = before ++ text.toList ++ after ∧
    before.all isSpace ∧ after.all isSpace

/-- A text of a value. Python writes no number with more digits than it reads. -/
def Renders : (type : FieldType) → type.Value → String → Prop
  | .bool, truth, text => SameLetters text (if truth then "true" else "false")
  | .int, number, text => text = toString number ∧ text.length ≤ Unicode.maxStrDigits
  | .enum type, member, text => SameLetters text (type.value member)
  | .tuple (.enum type), members, text => ∃ parts, text = join "," parts ∧
    List.Forall₂ (fun member part => ∃ text, SameLetters text (type.value member) ∧
      BlanksAround text part) members parts
  | _, _, _ => False

/-- A text is read as a value of the declared type, which the builder takes as it is, or refused. -/
def AcceptsText (unicode : Unicode) (settingPath : String) (type : FieldType) (text origin : String) :
    Prop :=
  match readSettingText unicode settingPath text origin with
  | .error error => error.isConfigurationError
  | .ok value => ∃ typed : type.Value, value = type.data typed ∧
    ∀ path missing, (convert type value path).run missing = .ok (some typed, missing)

/-! ## Declared types -/

/-- An ASCII character in lower case that is neither a blank nor a comma. -/
def isEnumChar (c : Char) : Bool := c.toNat < 128 && c.toLower == c && !isSpace c && c != ','

def isEnumText (text : String) : Bool := text.toList.all isEnumChar

/-- The types of settings that texts are read as. -/
def FieldType.isTextType : FieldType → Bool
  | .str | .int | .bool => true
  | .enum type => type.members.all fun member => isEnumText (type.value member)
  | .tuple .str => true
  | .tuple (.enum type) =>
    type.members.all fun member => isEnumText (type.value member) && type.value member != ""
  | _ => false

/-- Every setting that has a variable is declared, with such a type. -/
theorem environmentVariablePaths_textTypes :
    ∀ entry ∈ environmentVariablePaths, (settingType entry.2).any FieldType.isTextType := by
  decide

theorem isTextType_item {type : EnumType} (h : (FieldType.tuple (.enum type)).isTextType) :
    (FieldType.enum type).isTextType ∧ ∀ member, type.value member ≠ "" := by
  have hmembers : type.members.all fun member =>
      isEnumText (type.value member) && type.value member != "" := h
  simp only [List.all_eq_true, Bool.and_eq_true, bne_iff_ne] at hmembers
  exact ⟨List.all_eq_true.mpr fun member hmember => (hmembers member hmember).1,
    fun member => (hmembers member (type.complete member)).2⟩

theorem convert_data : ∀ (type : FieldType), type.isTextType → ∀ (value : type.Value) (path : String)
    (missing : List String),
    (convert type (type.data value) path).run missing = .ok (some value, missing)
  | .str, _, _, _, _ | .int, _, _, _, _ | .bool, _, _, _, _ => rfl
  | .enum type, _, member, path, missing => by
    rw [FieldType.data, convert, convertEnum_eq_ok_iff.mpr (.inr rfl)]
    rfl
  | .tuple .str, _, items, path, missing =>
    convertItems_map (fun value path missing => convert_data .str rfl value path missing) path items 0
      missing
  | .tuple (.enum type), h, items, path, missing =>
    convertItems_map (fun value path missing => convert_data (.enum type) (isTextType_item h).1 value
      path missing) path items 0 missing

/-! ## What is read -/

section

variable {unicode : Unicode}

/-- What a list of texts is read as. -/
theorem mapM_fromText {item : FieldType} {label : String}
    (h : ∀ text value, fromText unicode item text label = .ok value →
      ∃ typed : item.Value, value = item.data typed) {texts : List String} {values : List PyValue}
    (hok : (texts.mapM fun text => fromText unicode item text label) = .ok values) :
    ∃ typed : List item.Value, values = typed.map item.data := by
  induction texts generalizing values with
  | nil =>
    cases hok
    exact ⟨[], rfl⟩
  | cons text texts ih =>
    rw [List.mapM_cons] at hok
    cases hfirst : fromText unicode item text label with
    | error error =>
      rw [hfirst] at hok
      cases hok
    | ok value =>
      rw [hfirst] at hok
      cases hrest : texts.mapM fun text => fromText unicode item text label with
      | error error =>
        simp only [hrest] at hok
        cases hok
      | ok rest =>
        simp only [hrest] at hok
        cases hok
        obtain ⟨typed, rfl⟩ := h text value hfirst
        obtain ⟨typed', rfl⟩ := ih hrest
        exact ⟨typed :: typed', rfl⟩

/-- The texts of a list's items. -/
def itemTexts (text : String) : List String := ((split "," text).map strip).filter (· != "")

theorem ok_fromText_tuple {item : FieldType} {text label : String} {value : PyValue}
    (h : fromText unicode (.tuple item) text label = .ok value) :
    ∃ values, ((itemTexts text).mapM fun text => fromText unicode item text label) = .ok values ∧
      value = .tuple values := by
  rw [fromText] at h
  change ((itemTexts text).mapM fun text => fromText unicode item text label) >>= _ = _ at h
  cases hitems : (itemTexts text).mapM fun text => fromText unicode item text label with
  | error error =>
    rw [hitems] at h
    cases h
  | ok values =>
    rw [hitems] at h
    cases h
    exact ⟨values, rfl, rfl⟩

theorem error_fromText_tuple {item : FieldType} {text label : String} {error : TextError}
    (h : fromText unicode (.tuple item) text label = .error error) :
    ∃ found, fromText unicode item found label = .error error := by
  have hmapM : ∀ texts : List String,
      (texts.mapM fun text => fromText unicode item text label) = .error error →
        ∃ found, fromText unicode item found label = .error error := by
    intro texts herror
    induction texts with
    | nil => cases herror
    | cons text texts ih =>
      rw [List.mapM_cons] at herror
      cases hfirst : fromText unicode item text label with
      | error error' =>
        rw [hfirst] at herror
        cases herror
        exact ⟨text, hfirst⟩
      | ok value =>
        rw [hfirst] at herror
        cases hrest : texts.mapM fun text => fromText unicode item text label with
        | error error' =>
          simp only [hrest] at herror
          cases herror
          exact ih hrest
        | ok rest =>
          simp only [hrest] at herror
          cases herror
  rw [fromText] at h
  change ((itemTexts text).mapM fun text => fromText unicode item text label) >>= _ = _ at h
  cases hitems : (itemTexts text).mapM fun text => fromText unicode item text label with
  | error error' =>
    rw [hitems] at h
    cases h
    exact hmapM _ hitems
  | ok values =>
    rw [hitems] at h
    cases h

/-- What a text is read as is a value of the type. -/
theorem exists_typed : ∀ {type : FieldType}, type.isTextType → ∀ {text label : String} {value : PyValue},
    fromText unicode type text label = .ok value → ∃ typed : type.Value, value = type.data typed
  | .str, _, text, label, value, h => ⟨text, by cases h; rfl⟩
  | .int, _, text, label, value, h => by
    rw [fromText] at h
    split at h
    · cases h
    · split at h
      · next number _ =>
        cases h
        exact ⟨number, rfl⟩
      · cases h
  | .bool, _, text, label, value, h => by
    rw [fromText] at h
    split at h
    · cases h
      exact ⟨true, rfl⟩
    · split at h
      · cases h
        exact ⟨false, rfl⟩
      · cases h
  | .enum type, _, text, label, value, h => by
    rw [fromText] at h
    split at h
    · next member _ =>
      cases h
      exact ⟨member, rfl⟩
    · cases h
  | .tuple .str, _, text, label, value, h => by
    obtain ⟨values, hitems, rfl⟩ := ok_fromText_tuple h
    obtain ⟨typed, rfl⟩ := mapM_fromText (fun _ _ => exists_typed rfl) hitems
    exact ⟨typed, rfl⟩
  | .tuple (.enum type), htext, text, label, value, h => by
    obtain ⟨values, hitems, rfl⟩ := ok_fromText_tuple h
    obtain ⟨typed, rfl⟩ := mapM_fromText (fun _ _ => exists_typed (isTextType_item htext).1) hitems
    exact ⟨typed, rfl⟩

/-- What a text is refused with, unless it is one of digits that are no number. -/
theorem error_fromText : ∀ {type : FieldType}, type.isTextType → ∀ {text label : String}
    {error : TextError}, (type = .int → unicode.isdigit text → (unicode.int text).isSome) →
      fromText unicode type text label = .error error → error.isConfigurationError
  | .str, _, text, label, error, _, h => by cases h
  | .int, _, text, label, error, hnumber, h => by
    rw [fromText] at h
    split at h
    · cases h
      rfl
    · next hdigits =>
      split at h
      · cases h
      · next hnone =>
        have hsome := hnumber rfl (by simpa using hdigits)
        rw [hnone] at hsome
        cases hsome
  | .bool, _, text, label, error, _, h => by
    rw [fromText] at h
    split at h
    · cases h
    · split at h
      · cases h
      · cases h
        rfl
  | .enum type, _, text, label, error, _, h => by
    rw [fromText] at h
    split at h
    · cases h
    · cases h
      rfl
  | .tuple .str, _, text, label, error, _, h => by
    obtain ⟨found, hfound⟩ := error_fromText_tuple h
    have htext : FieldType.str.isTextType := rfl
    exact error_fromText htext nofun hfound
  | .tuple (.enum type), htext, text, label, error, _, h => by
    obtain ⟨found, hfound⟩ := error_fromText_tuple h
    exact error_fromText (isTextType_item htext).1 nofun hfound

/-! ## Texts of values -/

theorem toLower_of_not_upper {c : Char} (h : ¬(65 ≤ c.toNat ∧ c.toNat ≤ 90)) : c.toLower = c := by
  have hupper : ¬(c.val ≥ 65 ∧ c.val ≤ 90) := by
    simp only [UInt32.le_iff_toNat_le, ge_iff_le]
    exact h
  exact dif_neg hupper

/-- Every letter of a text in any case is that of a text in lower case. -/
theorem exists_char_of_sameLetters {text text' : String} (h : SameLetters text text') :
    ∀ c ∈ text.toList, ∃ c' ∈ text'.toList, c.toLower = c'.toLower := by
  intro c hc
  have hmem : c.toLower ∈ text.toList.map Char.toLower := List.mem_map_of_mem hc
  rw [show text.toList.map Char.toLower = text'.toList.map Char.toLower from h] at hmem
  obtain ⟨c', hc', heq⟩ := List.mem_map.mp hmem
  exact ⟨c', hc', heq.symm⟩

theorem isEnumChar_iff {c : Char} : isEnumChar c ↔
    c.toNat < 128 ∧ c.toLower = c ∧ isSpace c = false ∧ c ≠ ',' := by
  simp [isEnumChar, and_assoc]

/-- A character that is an enumeration's but for its case. -/
theorem of_toLower_isEnumChar {c c' : Char} (h : c.toLower = c'.toLower) (hc' : isEnumChar c') :
    c.toNat < 128 ∧ isSpace c = false ∧ c ≠ ',' := by
  obtain ⟨hascii, hlower, hspace, hcomma⟩ := isEnumChar_iff.mp hc'
  rw [hlower] at h
  have hc : c.toNat < 128 := by
    by_contra hlarge
    rw [toLower_of_not_upper (by omega)] at h
    rw [h] at hlarge
    exact hlarge hascii
  refine ⟨hc, ?_, ?_⟩
  · by_contra hblank
    rw [Bool.not_eq_false] at hblank
    have hupper : ¬(65 ≤ c.toNat ∧ c.toNat ≤ 90) := by
      unfold isSpace at hblank
      simp at hblank
      omega
    rw [toLower_of_not_upper hupper] at h
    rw [h, hspace] at hblank
    cases hblank
  · rintro rfl
    exact hcomma h.symm

variable (unicode) in
theorem lower_of_sameLetters {text text' : String} (h : SameLetters text text')
    (htext : isEnumText text') : unicode.lower text = text' := by
  have hchars := List.all_eq_true.mp htext
  have hascii : ∀ c ∈ text.toList, c.toNat < 128 := by
    intro c hc
    obtain ⟨c', hc', heq⟩ := exists_char_of_sameLetters h c hc
    exact (of_toLower_isEnumChar heq (hchars c' hc')).1
  have hself : text'.toList.map Char.toLower = text'.toList :=
    (List.map_congr_left fun c hc => (isEnumChar_iff.mp (hchars c hc)).2.1).trans (List.map_id _)
  rw [unicode.lower_ascii text hascii, PyText.lower,
    show text.toList.map Char.toLower = text'.toList.map Char.toLower from h, hself,
    String.ofList_toList]

theorem fromText_enum {type : EnumType} (htext : (FieldType.enum type).isTextType)
    {member : type.Member} {text label : String} (h : SameLetters text (type.value member)) :
    fromText unicode (.enum type) text label = .ok (.member (type.value member)) := by
  have hlower := lower_of_sameLetters unicode h
    (List.all_eq_true.mp htext member (type.complete member))
  rw [fromText, hlower, convertEnum_eq_ok_iff.mpr (.inr rfl)]

theorem exists_of_forall₂_right {α β : Type} {R : α → β → Prop} {xs : List α} {ys : List β}
    (h : List.Forall₂ R xs ys) {y : β} (hy : y ∈ ys) : ∃ x, x ∈ xs ∧ R x y := by
  induction h with
  | nil => cases hy
  | @cons x y' xs ys hxy _ ih =>
    rcases List.mem_cons.mp hy with rfl | hy
    · exact ⟨x, .head xs, hxy⟩
    · obtain ⟨x', hx', hxy'⟩ := ih hy
      exact ⟨x', .tail x hx', hxy'⟩

/-- A text without blanks is left when those around it are stripped. -/
theorem strip_blanksAround {text part : String} (h : BlanksAround text part)
    (hblank : ∀ c ∈ text.toList, isSpace c = false) : strip part = text := by
  obtain ⟨before, after, hpart, hbefore, hafter⟩ := h
  rw [List.all_eq_true] at hbefore hafter
  have hend : ∀ cs : List Char, (∀ c ∈ cs, isSpace c = false) → rstripChars (cs ++ after) = cs := by
    intro cs hcs
    rw [rstripChars, List.reverse_append, List.dropWhile_append_of_pos (by simpa using hafter)]
    cases hreverse : cs.reverse with
    | nil => simpa using hreverse.symm
    | cons c rest =>
      have hc : c ∈ cs := by
        rw [← List.mem_reverse, hreverse]
        exact .head rest
      rw [List.dropWhile_cons_of_neg (by simp [hcs c hc]), ← hreverse, List.reverse_reverse]
  rw [strip, hpart, List.append_assoc, List.dropWhile_append_of_pos hbefore]
  cases htext : text.toList with
  | nil =>
    have hall : after.dropWhile isSpace = [] := List.dropWhile_eq_nil_iff.mpr hafter
    rw [List.nil_append, hall, show text = "" by simpa using htext]
    rfl
  | cons c cs =>
    rw [htext] at hblank
    rw [List.cons_append, List.dropWhile_cons_of_neg (by simp [hblank c (.head cs)]),
      ← List.cons_append, hend _ hblank, ← htext, String.ofList_toList]

theorem fromText_int {number : Int} {text label : String} (hnumber : 0 ≤ number)
    (h : Renders .int number text) : fromText unicode .int text label = .ok (.int number) := by
  obtain ⟨rfl, hlength⟩ := h
  obtain ⟨n, rfl⟩ := Int.eq_ofNat_of_zero_le hnumber
  have hisdigit : unicode.isdigit (toString (n : Int)) := by
    have htext : (toString (n : Int)).toList = Nat.toDigits 10 n := toString_nat_toList n
    rw [Unicode.isdigit, htext, Bool.and_eq_true, List.all_eq_true]
    refine ⟨by simp [Nat.toDigits_ne_nil], fun c hc => unicode.isDigit_of_decimal c ?_⟩
    rw [unicode.decimal_of_digit (isDigit_of_toDigits hc)]
    rfl
  rw [fromText, hisdigit, unicode.int_toString hlength]
  rfl

theorem fromText_bool {truth : Bool} {text label : String} (h : Renders .bool truth text) :
    fromText unicode .bool text label = .ok (.bool truth) := by
  cases truth with
  | true =>
    have hlower := lower_of_sameLetters unicode h (by decide)
    rw [fromText, hlower]
    rfl
  | false =>
    have hlower := lower_of_sameLetters unicode h (by decide)
    rw [fromText, hlower]
    rfl

theorem fromText_list {type : EnumType} (htext : (FieldType.tuple (.enum type)).isTextType)
    {members : List type.Member} {text label : String} (h : Renders (.tuple (.enum type)) members text) :
    fromText unicode (.tuple (.enum type)) text label =
      .ok ((FieldType.tuple (.enum type)).data members) := by
  obtain ⟨parts, rfl, hparts⟩ := h
  obtain ⟨henum, hne⟩ := isTextType_item htext
  have hchar : ∀ member, ∀ text, SameLetters text (type.value member) → ∀ c ∈ text.toList,
      isSpace c = false ∧ c ≠ ',' := by
    intro member text hletters c hc
    obtain ⟨c', hc', heq⟩ := exists_char_of_sameLetters hletters c hc
    have hmember := List.all_eq_true.mp henum member (type.complete member)
    exact (of_toLower_isEnumChar heq (List.all_eq_true.mp hmember c' hc')).2
  have hsplit : ∀ part ∈ parts, ',' ∉ part.toList := by
    intro part hpart hmem
    obtain ⟨member, -, text, hletters, before, after, hchars, hbefore, hafter⟩ :=
      exists_of_forall₂_right hparts hpart
    rw [hchars, List.mem_append, List.mem_append] at hmem
    rcases hmem with (hmem | hmem) | hmem
    · exact absurd (List.all_eq_true.mp hbefore _ hmem) (by decide)
    · exact (hchar member text hletters _ hmem).2 rfl
    · exact absurd (List.all_eq_true.mp hafter _ hmem) (by decide)
  have hread : ((parts.map strip).filter (· != "")).mapM
      (fun text => fromText unicode (.enum type) text label) =
        .ok (members.map (FieldType.enum type).data) := by
    clear hsplit
    induction hparts with
    | nil => rfl
    | @cons member part members parts hfirst _ ih =>
      obtain ⟨text, hletters, hblanks⟩ := hfirst
      have hstrip := strip_blanksAround hblanks fun c hc => (hchar member text hletters c hc).1
      have htextNe : (text != "") = true := by
        rw [bne_iff_ne]
        rintro rfl
        refine hne member ?_
        have hnil : [] = (type.value member).toList.map Char.toLower := hletters
        simpa using hnil.symm
      have hkept : (text :: parts.map strip).filter (· != "") =
          text :: (parts.map strip).filter (· != "") := List.filter_cons_of_pos htextNe
      rw [List.map_cons, hstrip, hkept, List.mapM_cons, fromText_enum henum hletters, ih]
      rfl
  have hitems : itemTexts (join "," parts) = (parts.map strip).filter (· != "") := by
    cases parts with
    | nil => decide
    | cons part parts =>
      have hjoined : split "," (join "," (part :: parts)) = part :: parts :=
        split_join ',' (List.cons_ne_nil _ _) hsplit
      rw [itemTexts, hjoined]
  rw [fromText]
  change ((itemTexts (join "," parts)).mapM fun text => fromText unicode (.enum type) text label) >>= _ = _
  rw [hitems, hread]
  rfl

end

/-! ## Every setting with a variable -/

theorem acceptsText {unicode : Unicode} {settingPath : String} {type : FieldType}
    (htype : settingType settingPath = some type) (htext : type.isTextType) {text origin : String}
    (h : type = .int → unicode.isdigit text → (unicode.int text).isSome) :
    AcceptsText unicode settingPath type text origin := by
  rw [AcceptsText, readSettingText, htype]
  dsimp only
  split
  · next error herror => exact error_fromText htext h herror
  · next value hvalue =>
    obtain ⟨typed, rfl⟩ := exists_typed htext hvalue
    exact ⟨typed, rfl, convert_data type htext typed⟩

theorem fromText_renders {unicode : Unicode} : ∀ {type : FieldType}, type.isTextType →
    ∀ {value : type.Value} {text label : String}, Renders type value text →
      (∀ number : Int, type.data value = .int number → 0 ≤ number) →
        fromText unicode type text label = .ok (type.data value)
  | .str, _, _, _, _, h, _ => h.elim
  | .int, _, number, _, _, h, hnumber => fromText_int (hnumber number rfl) h
  | .bool, _, _, _, _, h, _ => fromText_bool h
  | .enum _, htext, _, _, _, h, _ => fromText_enum htext h
  | .tuple .str, _, _, _, _, h, _ => h.elim
  | .tuple (.enum _), htext, _, _, _, h, _ => fromText_list htext h

theorem readSettingText_reads (unicode : Unicode) {name settingPath : String}
    (h : (name, settingPath) ∈ environmentVariablePaths) :
    ∃ type, settingType settingPath = some type ∧
      (∀ text origin, (type = .int → unicode.isdigit text → (unicode.int text).isSome) →
        AcceptsText unicode settingPath type text origin) ∧
      ∀ (value : type.Value) text origin, Renders type value text →
        (∀ number : Int, type.data value = .int number → 0 ≤ number) →
          readSettingText unicode settingPath text origin = .ok (type.data value) := by
  have hdeclared := environmentVariablePaths_textTypes _ h
  cases htype : settingType settingPath with
  | none =>
    rw [htype] at hdeclared
    cases hdeclared
  | some type =>
    rw [htype] at hdeclared
    refine ⟨type, rfl, fun text origin hnumber => acceptsText htype hdeclared hnumber, ?_⟩
    intro value text origin hrenders hnumber
    rw [readSettingText, htype]
    exact fromText_renders hdeclared hrenders hnumber

theorem readSettingText_reads_size :
    readSettingText unicode14 "storage.swap.size_mb" "4096" "SWAP_SIZE_MB" = .ok (.int 4096) := by
  obtain ⟨type, htype, -, hrenders⟩ := readSettingText_reads unicode14
    (by decide : ("SWAP_SIZE_MB", "storage.swap.size_mb") ∈ environmentVariablePaths)
  have hint : settingType "storage.swap.size_mb" = some .int := by rfl
  obtain rfl : FieldType.int = type := Option.some.inj (hint.symm.trans htype)
  exact hrenders (4096 : Int) "4096" "SWAP_SIZE_MB" ⟨rfl, by decide⟩ fun number h => by
    cases h
    decide

/-- A negative number is a value of the size of the swap file, but no text of it is read. -/
theorem not_readSettingText_reads : ¬∀ (unicode : Unicode) (name settingPath : String),
    (name, settingPath) ∈ environmentVariablePaths →
    ∃ type, settingType settingPath = some type ∧
      (∀ text origin, AcceptsText unicode settingPath type text origin) ∧
      ∀ (value : type.Value) text origin, Renders type value text →
        readSettingText unicode settingPath text origin = .ok (type.data value) := by
  intro h
  obtain ⟨type, htype, -, hrenders⟩ := h unicode14 "SWAP_SIZE_MB" "storage.swap.size_mb"
    (by decide)
  have hint : settingType "storage.swap.size_mb" = some .int := by rfl
  obtain rfl : FieldType.int = type := Option.some.inj (hint.symm.trans htype)
  have hread := hrenders (-5 : Int) "-5" "SWAP_SIZE_MB" ⟨rfl, by decide⟩
  have hrefused : readSettingText unicode14 "storage.swap.size_mb" "-5" "SWAP_SIZE_MB" =
      .error (.notWholeNumber "SWAP_SIZE_MB (storage.swap.size_mb)" "-5") := by rfl
  rw [hrefused] at hread
  cases hread

end ArchInstaller
