import ArchInstaller.Setup.Session
import ArchInstaller.Tui.TextFields

/-! # The curses front-end

`tui/curses_frontend.py`, and `confirm_screen` of `tui/widgets.py`: each question of the setup is a
widget, run on the sizes of the window and the keys. That text fields fail in windows that are too
small is left out. -/

namespace ArchInstaller.Tui

open PyData PyText

/-- `_title`. -/
def screenTitle (step label : String) : String := s!"{step}: {label}"

/-- `_options`: menus pick by position, so values of any type work the same way. -/
def optionsOf (choices : List Choice) : List MenuOption :=
  choices.zipIdx.map fun (choice, position) => ⟨toString position, choice.label⟩

/-- `_positions_of`. -/
def positionsOf (choices : List Choice) (values : List PyValue) : List String :=
  (choices.zipIdx.filter fun (choice, _) => values.any fun value => value.eq choice.value).map
    fun (_, position) => toString position

/-- `choices[int(chosen)]`. -/
def chosenChoice (choices : List Choice) (chosen : String) : Option Choice :=
  (parseInt chosen).bind fun position => choices[position.toNat]?

/-- Without a value an exception was raised. -/
def WidgetEnd.ofOption {α : Type} : WidgetEnd (Option α) → WidgetEnd α
  | .returned (some value) => .returned value
  | .returned none | .failed => .failed
  | .quit => .quit
  | .waiting => .waiting

/-! ## The last screen -/

def summaryValueWidth : Nat := 32

/-- `_fitted`. -/
def fitted (value : String) : String :=
  if value.length ≤ summaryValueWidth then ljust summaryValueWidth value
  else sliceTo (summaryValueWidth - 1) value ++ "…"

/-- `label.partition(".")`, where there is a dot. -/
def partitionDot (label : String) : Option (String × String) :=
  match label.toList.span (· != '.') with
  | (_, []) => none
  | (group, _ :: field) => some (String.ofList group, String.ofList field)

/-- `_summary_rows`, below this group. -/
def summaryRows (currentGroup : String) : List (String × String × String) → List ListRow
  | [] => []
  | (label, value, source) :: items =>
    match partitionDot label with
    | none =>
      ⟨s!"  {ljust 27 label} {fitted value} {source}", .plain⟩ :: summaryRows currentGroup items
    | some (group, field) =>
      (if group == currentGroup then [] else [⟨s!"  [{group}]", .heading⟩]) ++
        ⟨s!"    {ljust 25 field} {fitted value} {source}", .plain⟩ :: summaryRows group items

/-- The list behind `confirm_screen`; its state says whether the last key confirmed. -/
def confirmList (title : String) (items : List (String × String × String)) : ListMenu Bool where
  title
  helpText := "[↑↓] Scroll  [y] Confirm  [n] Cancel"
  rowCount := (summaryRows "" items).length
  drawRow _ index _ := (summaryRows "" items).getD index ⟨"", .plain⟩
  handleKey key _ _ :=
    let confirmed := key == 'y'.toNat || key == 'Y'.toNat
    (confirmed, confirmed || key == 'n'.toNat || key == 'N'.toNat || key == keyQ)
  description := ""
  status _ := "Proceed with installation? [y/n]"
  showCursor := false

def confirmScreen (title : String) (items : List (String × String × String))
    (inputs : List (Size × Nat)) : List Drawn × WidgetEnd Bool :=
  let (drawn, ending) := runList (confirmList title items) 0 false inputs
  (drawn, ending.map Prod.snd)

/-! ## The front-end -/

def keepSecretValue : String := "keep"

/-- `SECRET_OPTIONS`. -/
def secretOptions : List MenuOption :=
  [⟨keepSecretValue, "Keep the inherited password"⟩, ⟨"replace", "Enter a new password"⟩]

/-- `switch`. -/
def switchScreen (step label onLabel offLabel description : String)
    (inherited : Option (Inherited Bool)) (inputs : List (Size × Nat)) : WidgetEnd PyValue :=
  let options := [⟨"off", offLabel⟩, ⟨"on", onLabel⟩]
  let shown := inherited.map fun inherited =>
    { value := if inherited.value then "on" else "off", source := inherited.source }
  (radioMenu (screenTitle step label) options shown description inputs).2.map fun chosen =>
    .bool (chosen == "on")

/-- The inherited choice that `choose_one` shows. -/
def shownPosition (choices : List Choice) (inherited : Option (Inherited PyValue)) :
    Option (Inherited String) :=
  inherited.bind fun inherited =>
    (positionsOf choices [inherited.value]).head?.map fun position =>
      { value := position, source := inherited.source }

/-- `choose_one`. -/
def chooseOneScreen (step label description : String) (choices : List Choice)
    (inherited : Option (Inherited PyValue)) (inputs : List (Size × Nat)) : WidgetEnd PyValue :=
  ((radioMenu (screenTitle step label) (optionsOf choices) (shownPosition choices inherited)
    description inputs).2.map fun chosen =>
      (chosenChoice choices chosen).map Choice.value).ofOption

/-- `choose_many`. -/
def chooseManyScreen (step label description : String) (choices : List Choice)
    (inherited : Option (Inherited (List PyValue))) (inputs : List (Size × Nat)) :
    WidgetEnd PyValue :=
  let shown := inherited.map fun inherited =>
    { value := positionsOf choices inherited.value, source := inherited.source }
  ((checkboxMenu (screenTitle step label) (optionsOf choices) shown description inputs).2.map
    fun chosen => (chosen.mapM (chosenChoice choices)).map fun chosen =>
      .list (chosen.map Choice.value)).ofOption

/-- A text field on the keys. -/
def textScreen (inherited : Option (Inherited String)) (keys : List Nat) : WidgetEnd PyValue :=
  match textInput (.start inherited true) keys with
  | .submitted value _ => .returned (.str value)
  | .editing _ => .waiting

/-- `password_input_with_confirm` on the keys. -/
def newPasswordScreen (keys : List Nat) : WidgetEnd PyValue :=
  match passwordInput keys with
  | .submitted value _ => .returned (.str value)
  | .editing _ | .mismatch => .waiting

/-- `CursesFrontend`: the screen of each request. Questions of other kinds do not come up. -/
def screen (ask : Ask) (inputs : List (Size × Nat)) : WidgetEnd PyValue :=
  match ask with
  | .switch step (.switch label onLabel offLabel description) inherited =>
    switchScreen step label onLabel offLabel description inherited inputs
  | .chooseOne step (.chooseOne label _ description _) choices inherited =>
    chooseOneScreen step label description choices inherited inputs
  | .chooseMany step (.chooseMany label choices description) inherited =>
    chooseManyScreen step label description choices inherited inputs
  | .enterText _ (.enterText _ _) inherited => textScreen inherited (inputs.map Prod.snd)
  | .keepSecret step (.enterSecret label _ _) source =>
    (radioMenu (screenTitle step label) secretOptions none s!"{label}: inherited from {source}."
      inputs).2.map fun kept => .bool (kept == keepSecretValue)
  | .enterSecret _ (.enterSecret _ _ confirm) =>
    if confirm then newPasswordScreen (inputs.map Prod.snd)
    else textScreen none (inputs.map Prod.snd)
  | .review rows =>
    (confirmScreen "Configuration Summary"
      (rows.map fun row => (s!"{row.step}.{row.label}", row.value, row.source)) inputs).2.map .bool
  | _ => .failed

end ArchInstaller.Tui
