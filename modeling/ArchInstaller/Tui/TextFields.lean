import ArchInstaller.Tui.Widgets

/-! # The text fields

`TextEntry`, `text_input` and `password_input_with_confirm` of `tui/widgets.py`, run on the keys
that `getch` delivers. -/

namespace ArchInstaller.Tui

open PyText

structure TextEntry where
  inherited : Option (Inherited String)
  required : Bool
  typed : String
  error : String

/-- A field in which nothing was typed. -/
def TextEntry.start (inherited : Option (Inherited String)) (required : Bool) : TextEntry :=
  ⟨inherited, required, "", ""⟩

/-- `_submit`. -/
def TextEntry.submit (entry : TextEntry) : Option String × TextEntry :=
  let value := if entry.typed == "" then (entry.inherited.map (·.value)).getD "" else entry.typed
  if value == "" && entry.required then
    (none, { entry with error := "This field is required." })
  else (some value, entry)

/-- `press`: the value that is submitted, if any, and the field afterwards. -/
def TextEntry.press (entry : TextEntry) (key : Nat) : Option String × TextEntry :=
  if enterKeys.contains key then entry.submit
  else if key == keyEscape then (none, { entry with typed := "", error := "" })
  else if backspaceKeys.contains key then
    (none, { entry with typed := sliceTo (-1) entry.typed, error := "" })
  else if isPrintableKey key then
    (none, { entry with typed := entry.typed.push (Char.ofNat key), error := "" })
  else (none, entry)

def inheritedHint (inherited : Inherited String) (typed : String) (masked : Bool) : String :=
  let shown := if masked then "(hidden)" else inherited.value
  let origin := s!"Inherited from {inherited.source}: {shown}"
  if typed == "" then s!"{origin}  (Enter keeps it, typing replaces it)"
  else s!"{origin}  (overridden, Esc restores it)"

/-- `_draw_text_entry`. -/
def TextEntry.draw (entry : TextEntry) (size : Size) (title prompt : String) (masked : Bool) :
    List Write :=
  let lineWidth : Int := size.columns - borderPad * 2 - 1
  let fieldRow := contentStart + 2
  let fieldWidth : Int := size.columns - borderPad * 2 - 4
  let displayText := if masked then times "*" entry.typed.length else entry.typed
  let visibleText := ljust fieldWidth (sliceFrom (-fieldWidth) displayText)
  drawTitle size title ++
  [⟨contentStart, borderPad, prompt, ⟨4, false⟩⟩,
    ⟨fieldRow - 1, borderPad, "┌" ++ times "─" (fieldWidth + 2) ++ "┐", normal⟩,
    ⟨fieldRow, borderPad, "│ ", normal⟩,
    ⟨fieldRow, borderPad + 2, visibleText, ⟨1, false⟩⟩,
    ⟨fieldRow, borderPad + 2 + visibleText.length, " │", normal⟩,
    ⟨fieldRow + 1, borderPad, "└" ++ times "─" (fieldWidth + 2) ++ "┘", normal⟩] ++
  (match entry.inherited with
    | some inherited => [addnstr (fieldRow + 3) borderPad
        (inheritedHint inherited entry.typed masked) lineWidth ⟨3, false⟩]
    | none => []) ++
  (if entry.error == "" then []
    else [addnstr (fieldRow + 4) borderPad entry.error lineWidth ⟨5, false⟩]) ++
  drawHelp size "[Enter] Confirm  [Esc] Clear  [Ctrl+C] Quit"

/-- `text_input` on some keys: the value submitted, with the keys that are left, or the field that
still waits. -/
inductive TextEnd where
  | submitted (value : String) (rest : List Nat)
  | editing (entry : TextEntry)

def textInput : TextEntry → List Nat → TextEnd
  | entry, [] => .editing entry
  | entry, key :: keys =>
    match entry.press key with
    | (some value, _) => .submitted value keys
    | (none, entry) => textInput entry keys

theorem textInput_length {entry : TextEntry} {keys rest : List Nat} {value : String}
    (h : textInput entry keys = .submitted value rest) : rest.length < keys.length := by
  induction keys generalizing entry with
  | nil => cases h
  | cons key keys ih =>
    rw [textInput] at h
    split at h
    · cases h
      exact Nat.lt_succ_self _
    · exact (ih h).trans (Nat.lt_succ_self _)

/-- `password_input_with_confirm` on some keys: `mismatch` is the screen that says so. -/
inductive PasswordEnd where
  | submitted (value : String) (rest : List Nat)
  | editing (entry : TextEntry)
  | mismatch

def passwordInput (keys : List Nat) : PasswordEnd :=
  match _hfirst : textInput (.start none true) keys with
  | .editing entry => .editing entry
  | .submitted password confirmKeys =>
    match _hsecond : textInput (.start none true) confirmKeys with
    | .editing entry => .editing entry
    | .submitted confirm rest =>
      if password == confirm then .submitted password rest
      else
        match rest with
        | [] => .mismatch
        | _ :: keys => passwordInput keys
termination_by keys.length
decreasing_by
  have hlength := textInput_length _hfirst
  have hlength' := textInput_length _hsecond
  rw [List.length_cons] at hlength'
  omega

/-- What the screen says after two passwords that differ. -/
def drawMismatch (size : Size) (title : String) : List Write :=
  drawTitle size title ++
  [⟨contentStart + 2, borderPad, "Passwords do not match. Try again.", ⟨5, true⟩⟩] ++
  drawHelp size "Press any key to retry..."

end ArchInstaller.Tui
