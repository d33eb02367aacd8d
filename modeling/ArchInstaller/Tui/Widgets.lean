import Mathlib.Data.Finset.SymmDiff
import ArchInstaller.Python.Text
import ArchInstaller.Setup.Frontend

/-! # The curses widgets

`tui/widgets.py`. A widget is run on the sizes that the window has when it is drawn and on the keys
that are pressed. What a widget draws is a list of writes; one that starts outside of the window
raises `curses.error`. -/

namespace PyText

/-- `text[:n]`. -/
def sliceTo (n : Int) (s : String) : String :=
  String.ofList (if 0 ≤ n then s.toList.take n.toNat else s.toList.take (s.length + n).toNat)

/-- `text[n:]`. -/
def sliceFrom (n : Int) (s : String) : String :=
  String.ofList (if 0 ≤ n then s.toList.drop n.toNat else s.toList.drop (s.length + n).toNat)

/-- `text * n`. -/
def times (s : String) (n : Int) : String :=
  String.ofList (List.replicate n.toNat s.toList).flatten

/-- `text.ljust(width)`. -/
def ljust (width : Int) (s : String) : String := s ++ times " " (width - s.length)

/-- `text.center(width)`: an odd blank goes to the left where the width is odd. -/
def center (width : Int) (s : String) : String :=
  let blanks := width - s.length
  let left := blanks / 2 + (if blanks % 2 == 1 && width % 2 == 1 then 1 else 0)
  times " " left ++ s ++ times " " (blanks - left)

end PyText

namespace ArchInstaller.Tui

open PyText

/-! ## The window -/

/-- `getmaxyx`. -/
structure Size where
  rows : Nat
  columns : Nat

structure Attributes where
  colorPair : Nat
  bold : Bool
  deriving DecidableEq

structure Write where
  row : Int
  column : Int
  text : String
  attributes : Attributes
  deriving DecidableEq

/-- Whether the write starts in the window. -/
def Write.fits (size : Size) (write : Write) : Bool :=
  0 ≤ write.row && write.row < size.rows && 0 ≤ write.column && write.column < size.columns

def normal : Attributes := ⟨0, false⟩

/-- `addnstr`. -/
def addnstr (row column : Int) (text : String) (count : Int) (attributes : Attributes) : Write :=
  ⟨row, column, if count < 0 then text else sliceTo count text, attributes⟩

structure MenuOption where
  value : String
  label : String
  deriving DecidableEq

inductive RowStyle where
  | plain
  | marked
  | heading
  deriving DecidableEq

structure ListRow where
  text : String
  style : RowStyle
  deriving DecidableEq

def keyDown : Nat := 258
def keyUp : Nat := 259
def keyEscape : Nat := 27
def keySpace : Nat := 32
def keyQ : Nat := 113
def enterKeys : List Nat := [343, 10, 13]
def backspaceKeys : List Nat := [263, 127, 8]

/-- `PRINTABLE_KEYS`. -/
def isPrintableKey (key : Nat) : Bool := 32 ≤ key && key < 127

def borderPad : Int := 2
def titleRow : Int := 1
def contentStart : Int := 4
def helpRowOffset : Int := 2

def drawTitle (size : Size) (title : String) : List Write :=
  let width : Int := size.columns - borderPad * 2
  [⟨titleRow, borderPad, sliceTo (width - 1) (center width title), ⟨1, true⟩⟩,
    ⟨titleRow + 1, borderPad, times "─" (width - 1), normal⟩]

def drawHelp (size : Size) (helpText : String) : List Write :=
  [⟨size.rows - helpRowOffset, borderPad, sliceTo (size.columns - borderPad * 2 - 1) helpText,
    ⟨3, false⟩⟩]

def inheritedTag {α : Type} : Option (Inherited α) → String
  | some inherited => s!"  (inherited from {inherited.source})"
  | none => ""

def rowAttributes : RowStyle → Attributes
  | .plain => ⟨4, false⟩
  | .marked => ⟨2, false⟩
  | .heading => ⟨1, true⟩

/-- The attributes of the row under the cursor. -/
def highlight : Attributes := ⟨6, true⟩

/-! ## Lists -/

/-- What `run_list` is called with; `drawRow`, `handleKey` and `status` read the state of the
widget. With a cursor there is at least one row. -/
structure ListMenu (σ : Type) where
  title : String
  helpText : String
  rowCount : Nat
  drawRow : σ → Nat → Bool → ListRow
  handleKey : Nat → Nat → σ → σ × Bool
  description : String
  status : σ → String
  showCursor : Bool

variable {σ : Type}

def ListMenu.firstRow (menu : ListMenu σ) : Int :=
  contentStart + if menu.description == "" then 0 else 1

def ListMenu.visibleRows (menu : ListMenu σ) (size : Size) : Nat :=
  let statusRow : Int := size.rows - helpRowOffset - 1
  (max 1 (statusRow - 1 - menu.firstRow)).toNat

/-- With a cursor the view follows it; without one the cursor is the first visible row. -/
def ListMenu.scroll (menu : ListMenu σ) (size : Size) (cursor : Nat) : Nat :=
  if menu.showCursor then cursor + 1 - menu.visibleRows size else cursor

/-- The row with this index, at its place on the screen. -/
def ListMenu.writeRow (menu : ListMenu σ) (size : Size) (cursor : Nat) (state : σ) (index : Nat) :
    Write :=
  let width : Int := size.columns - borderPad * 2 - 1
  let hasCursor := menu.showCursor && index == cursor
  let row := menu.drawRow state index hasCursor
  addnstr (menu.firstRow + (index - menu.scroll size cursor : Int)) borderPad (ljust width row.text)
    width (if hasCursor then highlight else rowAttributes row.style)

/-- The rows between the scroll offset and the end of the list or of the view. -/
def ListMenu.drawnRows (menu : ListMenu σ) (size : Size) (cursor : Nat) : List Nat :=
  let scroll := menu.scroll size cursor
  List.range' scroll (min menu.rowCount (scroll + menu.visibleRows size) - scroll)

/-- `_draw_list`. -/
def ListMenu.draw (menu : ListMenu σ) (size : Size) (cursor : Nat) (state : σ) : List Write :=
  let width : Int := size.columns - borderPad * 2 - 1
  let statusRow : Int := size.rows - helpRowOffset - 1
  let visibleRows := menu.visibleRows size
  let indicatorColumn : Int := size.columns - borderPad - 3
  drawTitle size menu.title ++
  (if menu.description == "" then []
    else [addnstr (contentStart - 1) borderPad menu.description width ⟨4, false⟩]) ++
  (menu.drawnRows size cursor).map (menu.writeRow size cursor state) ++
  (if menu.scroll size cursor > 0 then [⟨menu.firstRow - 1, indicatorColumn, "▲", ⟨3, false⟩⟩]
    else []) ++
  (if menu.scroll size cursor + visibleRows < menu.rowCount then
    [⟨menu.firstRow + visibleRows, indicatorColumn, "▼", ⟨3, false⟩⟩] else []) ++
  (if menu.status state == "" then []
    else [addnstr statusRow borderPad (menu.status state) width ⟨5, true⟩]) ++
  drawHelp size menu.helpText

/-- How a widget ends: `failed` is an exception, `waiting` one that still waits for a key. -/
inductive WidgetEnd (α : Type) where
  | returned (value : α)
  | quit
  | failed
  | waiting
  deriving DecidableEq

def WidgetEnd.map {α β : Type} (f : α → β) : WidgetEnd α → WidgetEnd β
  | .returned value => .returned (f value)
  | .quit => .quit
  | .failed => .failed
  | .waiting => .waiting

/-- A list that was drawn, and the key that was pressed then. -/
structure Drawn where
  size : Size
  cursor : Nat
  writes : List Write
  key : Nat

/-- `last_position`. -/
def ListMenu.lastPosition (menu : ListMenu σ) (size : Size) : Nat :=
  if menu.showCursor then menu.rowCount - 1 else menu.rowCount - menu.visibleRows size

/-- `run_list` from a cursor position, for the sizes of the window and the keys. -/
def runList (menu : ListMenu σ) : Nat → σ → List (Size × Nat) → List Drawn × WidgetEnd (Nat × σ)
  | _, _, [] => ([], .waiting)
  | cursor, state, (size, key) :: inputs =>
    let writes := menu.draw size cursor state
    if !writes.all (Write.fits size) then ([], .failed)
    else
      let drawn : Drawn := ⟨size, cursor, writes, key⟩
      let goOn (cursor : Nat) (state : σ) :=
        let (later, ending) := runList menu cursor state inputs
        (drawn :: later, ending)
      if key == keyUp then goOn (cursor - 1) state
      else if key == keyDown then goOn (min (cursor + 1) (menu.lastPosition size)) state
      else
        let (state, accepted) := menu.handleKey key cursor state
        if accepted then ([drawn], .returned (cursor, state))
        else if key == keyQ then ([drawn], .quit)
        else goOn cursor state

/-- The row of the inherited option, or the first. -/
def startRow (options : List MenuOption) (inherited : Option (Inherited String)) : Nat :=
  ((options.findIdx? fun option => some option.value == inherited.map (·.value)).getD 0)

/-- The list behind `radio_menu`. -/
def radioList (title : String) (options : List MenuOption) (inherited : Option (Inherited String))
    (description : String) : ListMenu Unit where
  title
  helpText := "[↑↓] Navigate  [Enter] Select  [q] Quit"
  rowCount := options.length
  drawRow _ index hasCursor :=
    let option := options.getD index ⟨"", ""⟩
    let marker := if hasCursor then " ▸ " else "   "
    let tag := if some option.value == inherited.map (·.value) then inheritedTag inherited else ""
    ⟨s!"{marker}{option.label}{tag}", .plain⟩
  handleKey key _ state := (state, enterKeys.contains key)
  description
  status _ := ""
  showCursor := true

def radioMenu (title : String) (options : List MenuOption) (inherited : Option (Inherited String))
    (description : String) (inputs : List (Size × Nat)) : List Drawn × WidgetEnd String :=
  let (drawn, ending) := runList (radioList title options inherited description)
    (startRow options inherited) () inputs
  (drawn, ending.map fun chosen => (options.getD chosen.1 ⟨"", ""⟩).value)

/-- The list behind `checkbox_menu`; its state holds the values that are ticked. -/
def checkboxList (title : String) (options : List MenuOption)
    (inherited : Option (Inherited (List String))) (description : String) :
    ListMenu (Finset String) where
  title
  helpText := "[↑↓] Navigate  [Space] Toggle  [Enter] Confirm  [q] Quit"
  rowCount := options.length
  drawRow checked index _ :=
    let option := options.getD index ⟨"", ""⟩
    let box := if option.value ∈ checked then "[✓]" else "[ ]"
    let tag := if option.value ∈ (inherited.map (·.value)).getD [] then inheritedTag inherited
      else ""
    ⟨s!" {box} {option.label}{tag}", if option.value ∈ checked then .marked else .plain⟩
  handleKey key cursor checked :=
    if key == keySpace then (symmDiff checked {(options.getD cursor ⟨"", ""⟩).value}, false)
    else (checked, enterKeys.contains key)
  description
  status _ := ""
  showCursor := true

def checkboxMenu (title : String) (options : List MenuOption)
    (inherited : Option (Inherited (List String))) (description : String)
    (inputs : List (Size × Nat)) : List Drawn × WidgetEnd (List String) :=
  let (drawn, ending) := runList (checkboxList title options inherited description) 0
    ((inherited.map (·.value)).getD []).toFinset inputs
  (drawn, ending.map fun chosen =>
    (options.filter fun option => option.value ∈ chosen.2).map (·.value))

end ArchInstaller.Tui
