import ArchInstaller.Tui.TextFields

/-! # What a text field submits

`getch` delivers the bytes of a character one by one, and a field takes only the printable keys of
ASCII, so that other characters are passed over without a word. A field submits what was typed
exactly when the text was empty again after every such character. -/

namespace ArchInstaller.Tui

open PyText

/-! ## The claim -/

/-- Whether a character is text, and none of the keys that edit or submit. -/
def isText (c : Char) : Bool := !(keyEscape :: enterKeys ++ backspaceKeys).contains c.toNat || 127 < c.toNat

/-- What the user does before pressing Enter. -/
inductive Edit where
  | type (c : Char) (h : isText c)
  | escape
  | backspace (key : Nat) (h : key ∈ backspaceKeys)

/-- The keys that `getch` delivers: a character comes as the bytes of its encoding. -/
def Edit.keys : Edit → List Nat
  | .type c _ => (String.utf8EncodeChar c).map UInt8.toNat
  | .escape => [keyEscape]
  | .backspace key _ => [key]

def Edit.apply (text : List Char) : Edit → List Char
  | .type c _ => text ++ [c]
  | .escape => []
  | .backspace .. => text.dropLast

/-- The text that the user has typed. -/
def resultingText (edits : List Edit) : List Char := edits.foldl Edit.apply []

/-- A field submits the text, or what it inherits where the text is empty, or shows an error. -/
def SubmitsTyped (inherited : Option (Inherited String)) (edits : List Edit) : TextEnd → Prop
  | .submitted value rest => rest = [] ∧ (value = String.ofList (resultingText edits) ∨
      resultingText edits = [] ∧ inherited.map (·.value) = some value)
  | .editing entry => entry.error ≠ ""

/-- A password that is submitted is the text that was typed, twice; else an error was shown. -/
def SubmitsPassword (edits edits' : List Edit) (refused : Prop) : PasswordEnd → Prop
  | .submitted value rest => rest = [] ∧ value = String.ofList (resultingText edits) ∧
      value = String.ofList (resultingText edits')
  | .editing entry => entry.error ≠ "" ∨ refused
  | .mismatch => True

/-! ## The condition -/

/-- Typing a character that the field takes, or editing. -/
def Edit.isTaken : Edit → Bool
  | .type c _ => isPrintableKey c.toNat
  | _ => true

/-- The text was empty again after every character that the field does not take. -/
def TakenAsTyped (edits : List Edit) : Prop :=
  ∀ before edit after, edits = before ++ edit :: after → edit.isTaken ∨
    ∃ rest, rest <+: after ∧ resultingText (before ++ edit :: rest) = []

/-- What is left when the other characters are passed over. -/
def takenText (edits : List Edit) : List Char := resultingText (edits.filter Edit.isTaken)

theorem resultingText_append (edits : List Edit) (edit : Edit) :
    resultingText (edits ++ [edit]) = edit.apply (resultingText edits) := by
  simp [resultingText]

theorem takenText_append (edits : List Edit) (edit : Edit) :
    takenText (edits ++ [edit]) =
      if edit.isTaken then edit.apply (takenText edits) else takenText edits := by
  rw [takenText, List.filter_append]
  split
  · next h => rw [List.filter_cons_of_pos h, List.filter_nil, resultingText_append, takenText]
  · next h => rw [List.filter_cons_of_neg h, List.filter_nil, List.append_nil, takenText]

theorem takenAsTyped_of_empty {edits : List Edit} (h : resultingText edits = []) :
    TakenAsTyped edits := fun _ _ after heq => .inr ⟨after, List.prefix_refl _, heq ▸ h⟩

theorem takenAsTyped_append {edits : List Edit} {edit : Edit}
    (hne : resultingText (edits ++ [edit]) ≠ []) :
    TakenAsTyped (edits ++ [edit]) ↔ TakenAsTyped edits ∧ edit.isTaken := by
  constructor
  · intro h
    refine ⟨fun before edit' after heq => ?_, ?_⟩
    · refine (h before edit' (after ++ [edit]) (by simp [heq])).imp_right ?_
      rintro ⟨rest, hrest, hempty⟩
      rcases List.prefix_concat_iff.mp hrest with rfl | hrest
      · exact absurd (by simpa [heq] using hempty) hne
      · exact ⟨rest, hrest, hempty⟩
    · rcases h edits edit [] rfl with htaken | ⟨rest, hrest, hempty⟩
      · exact htaken
      · rw [List.prefix_nil.mp hrest] at hempty
        exact absurd hempty hne
  · rintro ⟨h, htaken⟩ before edit' after heq
    rcases List.eq_nil_or_concat after with rfl | ⟨after, last, rfl⟩
    · obtain ⟨rfl, hedit⟩ := List.append_inj' heq rfl
      obtain rfl : edit = edit' := by simpa using hedit
      exact .inl htaken
    · rw [List.concat_eq_append, ← List.cons_append, ← List.append_assoc] at heq
      rw [List.concat_eq_append]
      obtain ⟨rfl, -⟩ := List.append_inj' heq rfl
      exact (h before edit' after rfl).imp_right fun hrest =>
        ⟨hrest.choose, hrest.choose_spec.1.trans (List.prefix_append _ _), hrest.choose_spec.2⟩

/-- Characters that are passed over make the field's text shorter for as long as the text is not
empty. -/
theorem takenText_eq_or_lt (edits : List Edit) :
    takenText edits = resultingText edits ∨
      (takenText edits).length < (resultingText edits).length := by
  induction edits using List.reverseRecOn with
  | nil => exact .inl rfl
  | append_singleton edits edit ih =>
    rw [takenText_append, resultingText_append]
    by_cases htaken : edit.isTaken = true
    · rw [if_pos htaken]
      cases edit with
      | type c h =>
        simp only [Edit.apply, List.length_append, List.length_singleton]
        exact ih.imp (fun heq => by rw [heq]) fun hlt => by omega
      | escape => exact .inl rfl
      | backspace key h =>
        simp only [Edit.apply, List.length_dropLast]
        rcases ih with heq | hlt
        · exact .inl (by rw [heq])
        · by_cases hempty : (resultingText edits).length ≤ 1
          · refine .inl ?_
            rw [List.eq_nil_of_length_eq_zero (by omega : (takenText edits).length = 0)]
            exact (List.eq_nil_of_length_eq_zero (by rw [List.length_dropLast]; omega)).symm
          · exact .inr (by omega)
    · rw [if_neg htaken]
      cases edit with
      | type c h =>
        simp only [Edit.apply, List.length_append, List.length_singleton]
        rcases ih with heq | hlt
        · exact .inr (by rw [heq]; omega)
        · exact .inr (by omega)
      | escape => exact absurd rfl htaken
      | backspace key h => exact absurd rfl htaken

theorem takenText_eq_iff (edits : List Edit) :
    takenText edits = resultingText edits ↔ TakenAsTyped edits := by
  induction edits using List.reverseRecOn with
  | nil => exact ⟨fun _ => takenAsTyped_of_empty rfl, fun _ => rfl⟩
  | append_singleton edits edit ih =>
    by_cases hempty : resultingText (edits ++ [edit]) = []
    · refine ⟨fun _ => takenAsTyped_of_empty hempty, fun _ => ?_⟩
      rcases takenText_eq_or_lt (edits ++ [edit]) with heq | hlt
      · exact heq
      · rw [hempty] at hlt
        exact absurd hlt (Nat.not_lt_zero _)
    · rw [takenAsTyped_append hempty, ← ih, takenText_append]
      rw [resultingText_append] at hempty ⊢
      split
      · next htaken =>
        rw [and_iff_left htaken]
        refine ⟨fun heq => ?_, fun heq => by rw [heq]⟩
        cases edit with
        | type c h => simpa [Edit.apply] using heq
        | escape => exact absurd rfl hempty
        | backspace key h =>
          refine (takenText_eq_or_lt edits).resolve_right fun hlt => ?_
          have hlength := congrArg List.length heq
          have hpos := List.length_pos_of_ne_nil hempty
          simp only [Edit.apply, List.length_dropLast] at hlength hpos
          omega
      · next htaken =>
        refine ⟨fun heq => ?_, fun h => absurd h.2 htaken⟩
        cases edit with
        | type c h =>
          have hlength := congrArg List.length heq
          simp only [Edit.apply, List.length_append, List.length_singleton] at hlength
          rcases takenText_eq_or_lt edits with heq' | hlt
          · rw [heq'] at hlength
            omega
          · omega
        | escape => exact absurd rfl htaken
        | backspace key h => exact absurd rfl htaken

/-! ## The keys -/

/-- The bytes of a character outside of ASCII are none of the keys that a field takes. -/
theorem mem_utf8EncodeChar {c : Char} (h : 127 < c.toNat) {byte : UInt8}
    (hbyte : byte ∈ String.utf8EncodeChar c) : 128 ≤ byte.toNat ∧ byte.toNat < 256 := by
  refine ⟨?_, byte.toNat_lt⟩
  have hval : 127 < c.val.toNat := h
  have hbytes : ∃ n, byte = UInt8.ofNat n ∧ 128 ≤ n ∧ n < 256 := by
    simp only [String.utf8EncodeChar, if_neg (not_le.mpr hval)] at hbyte
    split at hbyte
    · simp only [List.mem_cons, List.not_mem_nil, or_false] at hbyte
      rcases hbyte with rfl | rfl <;> exact ⟨_, rfl, by omega, by omega⟩
    · split at hbyte
      · simp only [List.mem_cons, List.not_mem_nil, or_false] at hbyte
        rcases hbyte with rfl | rfl | rfl <;> exact ⟨_, rfl, by omega, by omega⟩
      · simp only [List.mem_cons, List.not_mem_nil, or_false] at hbyte
        rcases hbyte with rfl | rfl | rfl | rfl <;> exact ⟨_, rfl, by omega, by omega⟩
  obtain ⟨n, rfl, hlow, hhigh⟩ := hbytes
  rwa [UInt8.toNat_ofNat_of_lt' (by simpa using hhigh)]

theorem utf8EncodeChar_ascii {c : Char} (h : c.toNat ≤ 127) :
    (String.utf8EncodeChar c).map UInt8.toNat = [c.toNat] := by
  have hval : c.val.toNat ≤ 127 := h
  rw [String.utf8EncodeChar, if_pos hval, List.map_singleton,
    UInt8.toNat_ofNat_of_lt' (by have hsize : UInt8.size = 256 := rfl; omega)]
  rfl

/-- A key that a field does not know. -/
theorem press_unknown {entry : TextEntry} {key : Nat}
    (hkey : (keyEscape :: enterKeys ++ backspaceKeys).contains key = false)
    (hprintable : isPrintableKey key = false) : entry.press key = (none, entry) := by
  rw [List.cons_append, List.contains_cons, List.contains_append, Bool.or_eq_false_iff,
    Bool.or_eq_false_iff] at hkey
  obtain ⟨hescape, henter, hbackspace⟩ := hkey
  simp only [TextEntry.press, henter, hescape, hbackspace, hprintable, Bool.false_eq_true, if_false]

theorem press_printable {entry : TextEntry} {key : Nat} (h : isPrintableKey key) :
    entry.press key =
      (none, { entry with typed := entry.typed.push (Char.ofNat key), error := "" }) := by
  have hrange : 32 ≤ key ∧ key < 127 := by simpa [isPrintableKey] using h
  have henter : enterKeys.contains key = false := by
    simp only [enterKeys, List.contains_eq_mem, decide_eq_false_iff_not, List.mem_cons,
      List.not_mem_nil, or_false]
    omega
  have hbackspace : backspaceKeys.contains key = false := by
    simp only [backspaceKeys, List.contains_eq_mem, decide_eq_false_iff_not, List.mem_cons,
      List.not_mem_nil, or_false]
    omega
  have hescape : (key == keyEscape) = false := by
    rw [beq_eq_false_iff_ne, keyEscape]
    omega
  simp only [TextEntry.press, henter, hescape, hbackspace, h, Bool.false_eq_true, if_false, if_true]

/-- Keys that change nothing. -/
theorem textInput_unknown {entry : TextEntry} {keys : List Nat}
    (h : ∀ key ∈ keys, entry.press key = (none, entry)) (rest : List Nat) :
    textInput entry (keys ++ rest) = textInput entry rest := by
  induction keys with
  | nil => rfl
  | cons key keys ih =>
    rw [List.forall_mem_cons] at h
    rw [List.cons_append, textInput, h.1]
    exact ih h.2

/-- The field after one edit. -/
theorem textInput_edit (entry : TextEntry) (edit : Edit) (rest : List Nat) :
    ∃ error, textInput entry (edit.keys ++ rest) = textInput { entry with
      typed := String.ofList (if edit.isTaken then edit.apply entry.typed.toList
        else entry.typed.toList), error } rest := by
  cases edit with
  | type c h =>
    by_cases hprintable : isPrintableKey c.toNat = true
    · have hascii : c.toNat ≤ 127 := by
        simp only [isPrintableKey, Bool.and_eq_true, decide_eq_true_eq] at hprintable
        omega
      refine ⟨"", ?_⟩
      rw [Edit.keys, utf8EncodeChar_ascii hascii, List.singleton_append, textInput,
        press_printable hprintable]
      simp [Edit.isTaken, hprintable, Edit.apply, Char.ofNat_toNat]
    · refine ⟨entry.error, ?_⟩
      have hunknown : ∀ key ∈ (String.utf8EncodeChar c).map UInt8.toNat,
          entry.press key = (none, entry) := by
        intro key hkey
        by_cases hascii : c.toNat ≤ 127
        · rw [utf8EncodeChar_ascii hascii, List.mem_singleton] at hkey
          subst hkey
          refine press_unknown ?_ (by simpa using hprintable)
          have htext := h
          rw [isText, Bool.or_eq_true, Bool.not_eq_true', decide_eq_true_eq] at htext
          exact htext.resolve_right (by omega)
        · rw [List.mem_map] at hkey
          obtain ⟨byte, hbyte, rfl⟩ := hkey
          obtain ⟨hlow, hhigh⟩ := mem_utf8EncodeChar (by omega) hbyte
          refine press_unknown ?_ ?_
          · simp only [keyEscape, enterKeys, backspaceKeys, List.contains_eq_mem,
              decide_eq_false_iff_not, List.mem_cons, List.not_mem_nil, or_false,
              List.cons_append, List.nil_append]
            omega
          · simp only [isPrintableKey, Bool.and_eq_false_iff, decide_eq_false_iff_not]
            omega
      rw [Edit.keys, textInput_unknown hunknown]
      simp [Edit.isTaken, hprintable]
  | escape => exact ⟨"", rfl⟩
  | backspace key h =>
    refine ⟨"", ?_⟩
    have htyped : sliceTo (-1) entry.typed = String.ofList entry.typed.toList.dropLast := by
      rw [sliceTo, if_neg (by decide), List.dropLast_eq_take, String.length_toList]
      congr 2
      omega
    have hpress : entry.press key =
        (none, { entry with typed := String.ofList entry.typed.toList.dropLast, error := "" }) := by
      rw [← htyped]
      rcases (by simpa [backspaceKeys] using h : key = 263 ∨ key = 127 ∨ key = 8) with
        rfl | rfl | rfl <;> rfl
    rw [Edit.keys, List.singleton_append, textInput, hpress]
    rfl

/-- The field after all edits. -/
theorem textInput_edits (entry : TextEntry) (edits : List Edit) (rest : List Nat) :
    ∃ error, textInput entry (edits.flatMap Edit.keys ++ rest) = textInput { entry with
      typed := String.ofList ((edits.filter Edit.isTaken).foldl Edit.apply entry.typed.toList),
      error } rest := by
  induction edits generalizing entry with
  | nil => exact ⟨entry.error, by simp⟩
  | cons edit edits ih =>
    obtain ⟨error, hedit⟩ := textInput_edit entry edit (edits.flatMap Edit.keys ++ rest)
    obtain ⟨error', hedits⟩ := ih { entry with
      typed := String.ofList (if edit.isTaken then edit.apply entry.typed.toList
        else entry.typed.toList), error }
    refine ⟨error', ?_⟩
    rw [List.flatMap_cons, List.append_assoc, hedit, hedits, List.filter_cons, String.toList_ofList]
    split
    · rfl
    · rfl

/-! ## Enter -/

variable {inherited : Option (Inherited String)} {required : Bool}

/-- The value that a field submits where this was typed. -/
def submittedText (inherited : Option (Inherited String)) (text : List Char) : String :=
  if text = [] then (inherited.map (·.value)).getD "" else String.ofList text

theorem ofList_eq_empty {text : List Char} : String.ofList text = "" ↔ text = [] :=
  String.ofList_eq_empty_iff

theorem ofList_ne_empty {text : List Char} (h : text ≠ []) : String.ofList text ≠ "" :=
  ofList_eq_empty.not.mpr h

theorem press_enter {entry : TextEntry} {key : Nat} (hkey : key ∈ enterKeys) :
    entry.press key = entry.submit := by
  rw [TextEntry.press, if_pos (by simpa using hkey)]

theorem submit_eq (entry : TextEntry) (text : List Char) (h : entry.typed = String.ofList text) :
    entry.submit = if submittedText entry.inherited text = "" ∧ entry.required = true then
      (none, { entry with error := "This field is required." })
        else (some (submittedText entry.inherited text), entry) := by
  have hvalue : (if entry.typed == "" then (entry.inherited.map (·.value)).getD "" else entry.typed) =
      submittedText entry.inherited text := by
    rw [submittedText, h]
    by_cases hempty : text = []
    · rw [hempty]
      rfl
    · rw [if_neg hempty, if_neg (by simpa using ofList_ne_empty hempty)]
  dsimp only [TextEntry.submit]
  rw [hvalue]
  simp only [Bool.and_eq_true, beq_iff_eq]

/-- Typing into a field, whether it has refused something or not, and pressing Enter. -/
theorem textInput_enter (error : String) (edits : List Edit) {enter : Nat}
    (henter : enter ∈ enterKeys) (rest : List Nat) :
    textInput ⟨inherited, required, "", error⟩ (edits.flatMap Edit.keys ++ enter :: rest) =
      if submittedText inherited (takenText edits) = "" ∧ required = true then
        textInput ⟨inherited, required, "", "This field is required."⟩ rest
      else .submitted (submittedText inherited (takenText edits)) rest := by
  obtain ⟨error', hedits⟩ := textInput_edits ⟨inherited, required, "", error⟩ edits (enter :: rest)
  have htaken : (edits.filter Edit.isTaken).foldl Edit.apply "".toList = takenText edits := rfl
  rw [hedits, textInput, press_enter henter, htaken, submit_eq _ (takenText edits) rfl]
  by_cases hrefused : submittedText inherited (takenText edits) = "" ∧ required = true
  · have hempty : takenText edits = [] := by
      by_contra hne
      have hvalue := hrefused.1
      rw [submittedText, if_neg hne] at hvalue
      exact hne (by simpa using congrArg String.toList hvalue)
    rw [if_pos hrefused, if_pos hrefused, hempty]
  · rw [if_neg hrefused, if_neg hrefused]

/-- The error of a field is on its screen. -/
theorem draw_error {entry : TextEntry} (h : entry.error ≠ "") (size : Size) (title prompt : String)
    (masked : Bool) : addnstr (contentStart + 2 + 4) borderPad entry.error
      (size.columns - borderPad * 2 - 1) ⟨5, false⟩ ∈ entry.draw size title prompt masked := by
  simp only [TextEntry.draw, beq_eq_false_iff_ne.mpr h, List.mem_append]
  simp

theorem submitsTyped_iff (edits : List Edit) {enter : Nat} (henter : enter ∈ enterKeys) :
    SubmitsTyped inherited edits (textInput (.start inherited required)
      (edits.flatMap Edit.keys ++ [enter])) ↔
      TakenAsTyped edits ∨ takenText edits = [] ∧
        ((inherited.map (·.value)).getD "" = "" ∧ required = true ∨
          (inherited.map (·.value)).getD "" = String.ofList (resultingText edits)) := by
  have hshorter := takenText_eq_or_lt edits
  rw [TextEntry.start, textInput_enter "" edits henter, ← takenText_eq_iff]
  by_cases hempty : takenText edits = []
  · have hvalue : submittedText inherited (takenText edits) =
        (inherited.map (·.value)).getD "" := if_pos hempty
    rw [hvalue, and_iff_right hempty]
    by_cases hrefused : (inherited.map (·.value)).getD "" = "" ∧ required = true
    · rw [if_pos hrefused]
      exact ⟨fun _ => .inr (.inl hrefused), fun _ => by simp [textInput, SubmitsTyped]⟩
    · rw [if_neg hrefused, SubmitsTyped, and_iff_right rfl, or_iff_right hrefused]
      constructor
      · rintro (heq | ⟨hnothing, -⟩)
        · exact .inr heq
        · exact .inl (hempty.trans hnothing.symm)
      · rintro (heq | heq)
        · rw [hempty] at heq
          cases inherited with
          | none => exact .inl (by rw [← heq]; rfl)
          | some inherited => exact .inr ⟨heq.symm, rfl⟩
        · exact .inl heq
  · have hvalue : submittedText inherited (takenText edits) = String.ofList (takenText edits) :=
      if_neg hempty
    have hne := ofList_ne_empty hempty
    rw [hvalue, if_neg fun hrefused => hne hrefused.1, SubmitsTyped, and_iff_right rfl]
    constructor
    · rintro (heq | ⟨hnothing, -⟩)
      · exact .inl (by simpa using congrArg String.toList heq)
      · rw [hnothing] at hshorter
        exact absurd (hshorter.resolve_right (Nat.not_lt_zero _)) hempty
    · rintro (heq | ⟨hnothing, -⟩)
      · exact .inl (by rw [heq])
      · exact absurd hnothing hempty

section Password

variable {keys rest : List Nat} {password confirm : String} {entry : TextEntry}

theorem passwordInput_editing (h : textInput (.start none true) keys = .editing entry) :
    passwordInput keys = .editing entry := by
  rw [passwordInput]
  split
  · next entry' h' =>
    obtain rfl : entry = entry' := by simpa [h] using h'
    rfl
  · next h' => simp [h] at h'

theorem passwordInput_confirm_editing
    (h : textInput (.start none true) keys = .submitted password rest)
    (hconfirm : textInput (.start none true) rest = .editing entry) :
    passwordInput keys = .editing entry := by
  rw [passwordInput]
  split
  · next h' => simp [h] at h'
  · next password' rest' h' =>
    obtain ⟨rfl, rfl⟩ : password = password' ∧ rest = rest' := by simpa [h] using h'
    split
    · next entry' hconfirm' =>
      obtain rfl : entry = entry' := by simpa [hconfirm] using hconfirm'
      rfl
    · next hconfirm' => simp [hconfirm] at hconfirm'

theorem passwordInput_done (h : textInput (.start none true) keys = .submitted password rest)
    (hconfirm : textInput (.start none true) rest = .submitted confirm []) :
    passwordInput keys = if password = confirm then .submitted password [] else .mismatch := by
  rw [passwordInput]
  split
  · next h' => simp [h] at h'
  · next password' rest' h' =>
    obtain ⟨rfl, rfl⟩ : password = password' ∧ rest = rest' := by simpa [h] using h'
    split
    · next hconfirm' => simp [hconfirm] at hconfirm'
    · next confirm' left hconfirm' =>
      obtain ⟨rfl, rfl⟩ : confirm = confirm' ∧ [] = left := by simpa [hconfirm] using hconfirm'
      simp only [beq_iff_eq]

end Password

theorem submittedText_none (text : List Char) : submittedText none text = String.ofList text := by
  by_cases hempty : text = []
  · rw [hempty]
    rfl
  · exact if_neg hempty

theorem submitsPassword_iff (edits edits' : List Edit) {enter enter' : Nat}
    (henter : enter ∈ enterKeys) (henter' : enter' ∈ enterKeys) :
    SubmitsPassword edits edits' (∃ entry, textInput (.start none true)
      (edits.flatMap Edit.keys ++ [enter]) = .editing entry ∧ entry.error ≠ "")
        (passwordInput (edits.flatMap Edit.keys ++ enter :: (edits'.flatMap Edit.keys ++ [enter']))) ↔
      TakenAsTyped edits ∧ TakenAsTyped edits' ∨ takenText edits = [] ∨
        takenText edits ≠ takenText edits' := by
  have hfirst : ∀ error rest, textInput ⟨none, true, "", error⟩
      (edits.flatMap Edit.keys ++ enter :: rest) = if takenText edits = [] then
        textInput ⟨none, true, "", "This field is required."⟩ rest
      else .submitted (String.ofList (takenText edits)) rest := by
    intro error rest
    rw [textInput_enter error edits henter rest, submittedText_none]
    simp only [and_true, ofList_eq_empty]
  have hsecond : ∀ error, textInput ⟨none, true, "", error⟩
      (edits'.flatMap Edit.keys ++ [enter']) = if takenText edits' = [] then
        .editing ⟨none, true, "", "This field is required."⟩
      else .submitted (String.ofList (takenText edits')) [] := by
    intro error
    rw [textInput_enter error edits' henter' [], submittedText_none]
    simp only [and_true, ofList_eq_empty]
    rfl
  by_cases hempty : takenText edits = []
  · refine ⟨fun _ => .inr (.inl hempty), fun _ => ?_⟩
    have hrefused : ∃ entry, textInput (.start none true)
        (edits.flatMap Edit.keys ++ [enter]) = .editing entry ∧ entry.error ≠ "" := by
      refine ⟨⟨none, true, "", "This field is required."⟩, ?_, by decide⟩
      rw [TextEntry.start, hfirst "" [], if_pos hempty]
      rfl
    have hkeys := hfirst "" (edits'.flatMap Edit.keys ++ [enter'])
    rw [if_pos hempty, hsecond] at hkeys
    split at hkeys
    · rw [passwordInput_editing hkeys]
      exact .inr hrefused
    · rw [passwordInput_confirm_editing hkeys rfl]
      exact .inr hrefused
  · have hkeys := hfirst "" (edits'.flatMap Edit.keys ++ [enter'])
    rw [if_neg hempty] at hkeys
    have hconfirm := hsecond ""
    by_cases hempty' : takenText edits' = []
    · rw [if_pos hempty'] at hconfirm
      rw [passwordInput_confirm_editing hkeys hconfirm]
      refine ⟨fun _ => .inr (.inr fun heq => hempty (heq.trans hempty')), fun _ => .inl ?_⟩
      exact by decide
    · rw [if_neg hempty'] at hconfirm
      rw [passwordInput_done hkeys hconfirm]
      by_cases heq : takenText edits = takenText edits'
      · rw [if_pos (congrArg _ heq), SubmitsPassword, and_iff_right rfl, String.ofList_inj,
          String.ofList_inj, ← takenText_eq_iff, ← takenText_eq_iff, heq]
        refine ⟨.inl, fun h => h.resolve_right ?_⟩
        rintro (hnothing | hne)
        · exact hempty' hnothing
        · exact hne rfl
      · rw [if_neg fun h => heq (String.ofList_injective h)]
        exact ⟨fun _ => .inr (.inr heq), fun _ => trivial⟩

/-! ## Both widgets -/

/-- A field submits what was typed exactly when the text was empty again after each character that
it does not take, or when nothing is left and it is refused or happens to be what is inherited. A
password is submitted as it was typed exactly when this holds of both entries, or nothing is left
of the first, or what is left of them differs. -/
theorem submits_iff (inherited : Option (Inherited String)) (required : Bool)
    (edits edits' : List Edit) {enter enter' : Nat} (henter : enter ∈ enterKeys)
    (henter' : enter' ∈ enterKeys) :
    (SubmitsTyped inherited edits (textInput (.start inherited required)
      (edits.flatMap Edit.keys ++ [enter])) ↔
        TakenAsTyped edits ∨ takenText edits = [] ∧
          ((inherited.map (·.value)).getD "" = "" ∧ required = true ∨
            (inherited.map (·.value)).getD "" = String.ofList (resultingText edits))) ∧
    (SubmitsPassword edits edits' (∃ entry, textInput (.start none true)
      (edits.flatMap Edit.keys ++ [enter]) = .editing entry ∧ entry.error ≠ "")
        (passwordInput
          (edits.flatMap Edit.keys ++ enter :: (edits'.flatMap Edit.keys ++ [enter']))) ↔
            TakenAsTyped edits ∧ TakenAsTyped edits' ∨ takenText edits = [] ∨
              takenText edits ≠ takenText edits') :=
  ⟨submitsTyped_iff edits henter, submitsPassword_iff edits edits' henter henter'⟩

/-- `pä`, as a user types it. -/
def shortPassword : List Edit := [.type 'p' (by decide), .type 'ä' (by decide)]

theorem submits_iff_shortPassword : ¬ SubmitsTyped none shortPassword
    (textInput (.start none true) (shortPassword.flatMap Edit.keys ++ [10])) := by
  have henter : 10 ∈ enterKeys := by decide
  rw [(submits_iff none true shortPassword shortPassword henter henter).1, ← takenText_eq_iff]
  decide

/-- The password `pä` is taken as `p`, both times. -/
theorem not_submits_typed : ¬ (∀ (inherited : Option (Inherited String)) (required : Bool)
      (edits : List Edit) (enter : Nat), enter ∈ enterKeys → SubmitsTyped inherited edits
        (textInput (.start inherited required) (edits.flatMap Edit.keys ++ [enter]))) ∧
    ¬ (∀ (edits edits' : List Edit) (enter enter' : Nat), enter ∈ enterKeys → enter' ∈ enterKeys →
      SubmitsPassword edits edits' (∃ entry, textInput (.start none true)
        (edits.flatMap Edit.keys ++ [enter]) = .editing entry ∧ entry.error ≠ "")
          (passwordInput
            (edits.flatMap Edit.keys ++ enter :: (edits'.flatMap Edit.keys ++ [enter'])))) := by
  have htext : takenText shortPassword ≠ resultingText shortPassword := by decide
  have hempty : takenText shortPassword ≠ [] := by decide
  constructor
  · intro h
    rcases (submitsTyped_iff shortPassword (by decide : 10 ∈ enterKeys)).mp
      (h none true shortPassword 10 (by decide)) with htaken | hnothing
    · exact htext ((takenText_eq_iff _).mpr htaken)
    · exact hempty hnothing.1
  · intro h
    rcases (submitsPassword_iff shortPassword shortPassword (by decide : 10 ∈ enterKeys)
      (by decide : 10 ∈ enterKeys)).mp (h shortPassword shortPassword 10 10 (by decide) (by decide))
        with htaken | hnothing | hdiffer
    · exact htext ((takenText_eq_iff _).mpr htaken.1)
    · exact hempty hnothing
    · exact hdiffer rfl

end ArchInstaller.Tui
