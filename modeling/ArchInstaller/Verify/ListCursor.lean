import Mathlib.Algebra.Group.Nat.Even
import ArchInstaller.Tui.Widgets

/-! # The row that is highlighted is the one that is chosen

Whatever the sizes of the window and the keys, each list that is drawn has one highlighted row, the
one under the cursor, and the menus return what was highlighted. Boxes are ticked by value: options
that share a value are ticked together. -/

namespace ArchInstaller.Tui

open PyText

variable {σ : Type} {menu : ListMenu σ} {size : Size} {cursor start : Nat} {state : σ}
  {inputs : List (Size × Nat)}

/-! ## The claim -/

/-- The writes of highlighted rows. -/
def Drawn.highlighted (drawn : Drawn) : List Write :=
  drawn.writes.filter (·.attributes == highlight)

/-- One row is highlighted, in the window, and it is the one under the cursor. -/
structure ListMenu.Highlights (menu : ListMenu σ) (drawn : Drawn) : Prop where
  valid : drawn.cursor < menu.rowCount
  highlighted : ∃ state line, drawn.highlighted =
    [addnstr line borderPad
      (ljust (drawn.size.columns - borderPad * 2 - 1) (menu.drawRow state drawn.cursor true).text)
      (drawn.size.columns - borderPad * 2 - 1) highlight]
  onScreen : ∀ write ∈ drawn.highlighted, write.fits drawn.size

/-- How often Space was pressed while an option with this value was highlighted. -/
def presses (options : List MenuOption) (drawns : List Drawn) (value : String) : Nat :=
  drawns.countP fun drawn =>
    drawn.key == keySpace && (options[drawn.cursor]?).map (·.value) == some value

/-- How often Space was pressed while the row with this index was highlighted. -/
def pressesOnRow (drawns : List Drawn) (index : Nat) : Nat :=
  drawns.countP fun drawn => drawn.key == keySpace && drawn.cursor == index

/-! ## One drawing -/

theorem visibleRows_pos : 0 < menu.visibleRows size := by
  simp only [ListMenu.visibleRows]
  omega

theorem mem_drawnRows (hcursor : menu.showCursor) (hvalid : cursor < menu.rowCount) :
    cursor ∈ menu.drawnRows size cursor := by
  have hvisible : 0 < menu.visibleRows size := visibleRows_pos
  simp only [ListMenu.drawnRows, ListMenu.scroll, hcursor, if_true, List.mem_range'_1]
  omega

theorem writeRow_highlighted {index : Nat} :
    (menu.writeRow size cursor state index).attributes == highlight ↔
      menu.showCursor ∧ index = cursor := by
  simp only [ListMenu.writeRow, addnstr]
  split
  · next h => simpa using h
  · next h =>
    have hstyle : ∀ style, rowAttributes style ≠ highlight := by
      intro style
      cases style <;> decide
    simpa [hstyle] using h

/-- Nothing else than the row under the cursor has the attributes of a highlighted row. -/
theorem draw_filter (hcursor : menu.showCursor) (hvalid : cursor < menu.rowCount) :
    (menu.draw size cursor state).filter (·.attributes == highlight) =
      [menu.writeRow size cursor state cursor] := by
  have hrows : ((menu.drawnRows size cursor).map (menu.writeRow size cursor state)).filter
      (·.attributes == highlight) = [menu.writeRow size cursor state cursor] := by
    have hmap : ((·.attributes == highlight) ∘ menu.writeRow size cursor state) = (· == cursor) := by
      funext index
      rw [Function.comp_apply, Bool.eq_iff_iff, writeRow_highlighted, beq_iff_eq]
      exact and_iff_right hcursor
    have hnodup : (menu.drawnRows size cursor).Nodup := List.nodup_range'
    rw [List.filter_map, hmap, List.filter_beq,
      List.count_eq_one_of_mem hnodup (mem_drawnRows hcursor hvalid)]
    rfl
  simp only [ListMenu.draw, List.filter_append, hrows]
  have htitle : (drawTitle size menu.title).filter (·.attributes == highlight) = [] := by
    simp [drawTitle, normal, highlight]
  have hhelp : (drawHelp size menu.helpText).filter (·.attributes == highlight) = [] := by
    simp [drawHelp, highlight]
  rw [htitle, hhelp]
  split <;> split <;> split <;> split <;> simp [addnstr, highlight]

theorem highlights_draw (hcursor : menu.showCursor) (hvalid : cursor < menu.rowCount)
    (hfits : (menu.draw size cursor state).all (Write.fits size)) (key : Nat) :
    menu.Highlights ⟨size, cursor, menu.draw size cursor state, key⟩ where
  valid := hvalid
  highlighted := by
    refine ⟨state, menu.firstRow + (cursor - menu.scroll size cursor : Int), ?_⟩
    rw [Drawn.highlighted, draw_filter hcursor hvalid]
    simp [ListMenu.writeRow, hcursor]
  onScreen write hwrite := List.all_eq_true.mp hfits write (List.mem_filter.mp hwrite).1

/-! ## The loop -/

variable (menu size cursor state inputs) in
/-- What one key leads to. -/
theorem runList_cons (key : Nat) :
    runList menu cursor state ((size, key) :: inputs) = ([], .failed) ∨
    (menu.draw size cursor state).all (Write.fits size) ∧
      let drawn : Drawn := ⟨size, cursor, menu.draw size cursor state, key⟩
      (∃ cursor', (cursor' = cursor - 1 ∨ cursor' = min (cursor + 1) (menu.lastPosition size)) ∧
        (key = keyUp ∨ key = keyDown) ∧
          runList menu cursor state ((size, key) :: inputs) =
            (drawn :: (runList menu cursor' state inputs).1, (runList menu cursor' state inputs).2)) ∨
      (∃ state', menu.handleKey key cursor state = (state', true) ∧
        runList menu cursor state ((size, key) :: inputs) = ([drawn], .returned (cursor, state'))) ∨
      runList menu cursor state ((size, key) :: inputs) = ([drawn], .quit) ∨
      ∃ state', menu.handleKey key cursor state = (state', false) ∧
        runList menu cursor state ((size, key) :: inputs) =
          (drawn :: (runList menu cursor state' inputs).1,
            (runList menu cursor state' inputs).2) := by
  rw [runList]
  split
  · exact .inl rfl
  · next hfits =>
    refine .inr ⟨by simpa using hfits, ?_⟩
    split
    · next hup => exact .inl ⟨cursor - 1, .inl rfl, .inl (by simpa using hup), rfl⟩
    · split
      · next hdown =>
        exact .inl ⟨_, .inr rfl, .inr (by simpa using hdown), rfl⟩
      · rcases hhandle : menu.handleKey key cursor state with ⟨state', accepted⟩
        cases accepted with
        | true => exact .inr (.inl ⟨state', rfl, rfl⟩)
        | false =>
          by_cases hq : (key == keyQ) = true
          · exact .inr (.inr (.inl (by simp [hq])))
          · exact .inr (.inr (.inr ⟨state', rfl, by simp [hq]⟩))

/-- Every list that is drawn has its cursor in range and highlighted. -/
theorem runList_highlights (hcursor : menu.showCursor) (hvalid : cursor < menu.rowCount)
    {drawn : Drawn} (hdrawn : drawn ∈ (runList menu cursor state inputs).1) :
    menu.Highlights drawn := by
  induction inputs generalizing cursor state with
  | nil => simp [runList] at hdrawn
  | cons input inputs ih =>
    obtain ⟨size, key⟩ := input
    rcases runList_cons menu size cursor state inputs key with hfailed | ⟨hfits, hnext⟩
    · simp [hfailed] at hdrawn
    have hfirst := highlights_draw hcursor hvalid hfits key
    rcases hnext with ⟨cursor', hmoved, -, heq⟩ | ⟨_, -, heq⟩ | heq | ⟨state', -, heq⟩
    · have hvalid' : cursor' < menu.rowCount := by
        rw [ListMenu.lastPosition, if_pos hcursor] at hmoved
        omega
      rw [heq, List.mem_cons] at hdrawn
      rcases hdrawn with rfl | hdrawn
      · exact hfirst
      · exact ih hvalid' hdrawn
    · rw [heq, List.mem_singleton] at hdrawn
      exact hdrawn ▸ hfirst
    · rw [heq, List.mem_singleton] at hdrawn
      exact hdrawn ▸ hfirst
    · rw [heq, List.mem_cons] at hdrawn
      rcases hdrawn with rfl | hdrawn
      · exact hfirst
      · exact ih hvalid hdrawn

/-- A list that is left was left at the cursor of its last drawing, with the key pressed then. -/
theorem runList_returned {cursor' : Nat} {state' : σ}
    (h : (runList menu cursor state inputs).2 = .returned (cursor', state')) :
    ∃ last before, (runList menu cursor state inputs).1.getLast? = some last ∧
      last.cursor = cursor' ∧ menu.handleKey last.key last.cursor before = (state', true) := by
  induction inputs generalizing cursor state with
  | nil => simp [runList] at h
  | cons input inputs ih =>
    obtain ⟨size, key⟩ := input
    rcases runList_cons menu size cursor state inputs key with hfailed | ⟨-, hnext⟩
    · simp [hfailed] at h
    rcases hnext with ⟨next, -, -, heq⟩ | ⟨after, hhandle, heq⟩ | heq | ⟨after, -, heq⟩
    · rw [heq] at h ⊢
      obtain ⟨last, before, hlast, hend⟩ := ih h
      exact ⟨last, before, by simp [List.getLast?_cons, hlast], hend⟩
    · rw [heq] at h ⊢
      obtain ⟨rfl, rfl⟩ : cursor = cursor' ∧ after = state' := by simpa using h
      exact ⟨_, state, rfl, rfl, hhandle⟩
    · simp [heq] at h
    · rw [heq] at h ⊢
      obtain ⟨last, before, hlast, hend⟩ := ih h
      exact ⟨last, before, by simp [List.getLast?_cons, hlast], hend⟩

/-! ## The boxes -/

variable {options : List MenuOption} {title description : String}

theorem presses_cons (drawn : Drawn) (drawns : List Drawn) (value : String) :
    presses options (drawn :: drawns) value = presses options drawns value +
      if drawn.key = keySpace ∧ (options[drawn.cursor]?).map (·.value) = some value then 1
      else 0 := by
  rw [presses, List.countP_cons]
  simp [presses]

/-- A value is ticked at the end if it was ticked at first and toggled an even number of times, or
not ticked and toggled an odd number of times. -/
theorem mem_checked {inherited : Option (Inherited (List String))} {checked checked' : Finset String}
    {cursor' : Nat} (hvalid : cursor < options.length) (value : String)
    (h : (runList (checkboxList title options inherited description) cursor checked inputs).2 =
      .returned (cursor', checked')) :
    value ∈ checked' ↔ (value ∈ checked ↔ Even (presses options
      (runList (checkboxList title options inherited description) cursor checked inputs).1 value)) := by
  induction inputs generalizing cursor checked with
  | nil => simp [runList] at h
  | cons input inputs ih =>
    obtain ⟨size, key⟩ := input
    rcases runList_cons (checkboxList title options inherited description) size cursor checked
      inputs key with hfailed | ⟨-, hnext⟩
    · simp [hfailed] at h
    rcases hnext with ⟨next, hmoved, hkey, heq⟩ | ⟨after, hhandle, heq⟩ | heq | ⟨after, hhandle, heq⟩
    · have hvalid' : next < options.length := by
        have hlast : (checkboxList title options inherited description).lastPosition size =
          options.length - 1 := rfl
        rw [hlast] at hmoved
        omega
      have hspace : key ≠ keySpace := by
        rcases hkey with rfl | rfl <;> decide
      rw [heq] at h ⊢
      rw [ih hvalid' h, presses_cons, if_neg fun hpress => hspace hpress.1, Nat.add_zero]
    · rw [heq] at h ⊢
      obtain ⟨rfl, rfl⟩ : cursor = cursor' ∧ after = checked' := by simpa using h
      have hspace : key ≠ keySpace := by
        rintro rfl
        simp [checkboxList] at hhandle
      have hsame : checked = after := by
        simp only [checkboxList, beq_iff_eq, if_neg hspace, Prod.mk.injEq] at hhandle
        exact hhandle.1
      rw [presses_cons, if_neg fun hpress => hspace hpress.1, hsame]
      simp [presses]
    · simp [heq] at h
    · rw [heq] at h ⊢
      rw [ih hvalid h, presses_cons]
      obtain ⟨option, hoption⟩ : ∃ option, options[cursor]? = some option :=
        ⟨options[cursor], List.getElem?_eq_getElem hvalid⟩
      by_cases hspace : key = keySpace
      · subst hspace
        obtain rfl : symmDiff checked {option.value} = after := by
          simpa [checkboxList, hoption] using hhandle
        rw [Finset.mem_symmDiff, Finset.mem_singleton]
        by_cases hvalue : option.value = value
        · rw [if_pos ⟨rfl, by simp [hoption, hvalue]⟩, Nat.even_add_one, hvalue]
          tauto
        · have hne : value ≠ option.value := fun heq => hvalue heq.symm
          rw [if_neg (by simpa [hoption] using hvalue), Nat.add_zero]
          tauto
      · have hsame : checked = after := by
          simp only [checkboxList, beq_iff_eq, if_neg hspace, Prod.mk.injEq] at hhandle
          exact hhandle.1
        rw [if_neg fun hpress => hspace hpress.1, Nat.add_zero, hsame]

/-! ## The menus -/

theorem startRow_lt {inherited : Option (Inherited String)} (h : options ≠ []) :
    startRow options inherited < options.length := by
  rw [startRow]
  cases hfound : options.findIdx? fun option => some option.value == inherited.map (·.value) with
  | none => exact List.length_pos_of_ne_nil h
  | some index => exact (List.findIdx?_eq_some_iff_getElem.mp hfound).1

theorem radioMenu_returned {inherited : Option (Inherited String)} {value : String}
    (hne : options ≠ [])
    (h : (radioMenu title options inherited description inputs).2 = .returned value) :
    ∃ last option, (radioMenu title options inherited description inputs).1.getLast? = some last ∧
      (radioList title options inherited description).Highlights last ∧ last.key ∈ enterKeys ∧
        options[last.cursor]? = some option ∧ option.value = value := by
  rw [radioMenu] at h ⊢
  cases hend : (runList (radioList title options inherited description)
      (startRow options inherited) () inputs).2 with
  | returned chosen =>
    obtain ⟨cursor, state⟩ := chosen
    obtain ⟨last, before, hlast, rfl, hhandle⟩ := runList_returned hend
    have hhighlights : (radioList title options inherited description).Highlights last :=
      runList_highlights rfl (startRow_lt hne) (List.mem_of_getLast? hlast)
    have hvalid : last.cursor < options.length := hhighlights.valid
    have hoption : options[last.cursor]? = some options[last.cursor] :=
      List.getElem?_eq_getElem hvalid
    refine ⟨last, options[last.cursor], hlast, hhighlights, ?_, hoption, ?_⟩
    · simpa [radioList] using hhandle
    · simpa [hend, WidgetEnd.map, hoption] using h
  | quit | failed | waiting => simp [hend, WidgetEnd.map] at h

theorem checkboxMenu_returned {inherited : Option (Inherited (List String))} {values : List String}
    (hne : options ≠ [])
    (h : (checkboxMenu title options inherited description inputs).2 = .returned values) :
    values = (options.filter fun option => decide
      (option.value ∈ (inherited.map (·.value)).getD [] ↔ Even (presses options
        (checkboxMenu title options inherited description inputs).1 option.value))).map (·.value) := by
  rw [checkboxMenu] at h ⊢
  cases hend : (runList (checkboxList title options inherited description) 0
      ((inherited.map (·.value)).getD []).toFinset inputs).2 with
  | returned chosen =>
    obtain ⟨cursor, checked⟩ := chosen
    obtain rfl : (options.filter fun option => option.value ∈ checked).map (·.value) = values := by
      simpa [hend, WidgetEnd.map] using h
    refine congrArg _ (List.filter_congr fun option _ => ?_)
    rw [decide_eq_decide, mem_checked (List.length_pos_of_ne_nil hne) option.value hend,
      List.mem_toFinset]
  | quit | failed | waiting => simp [hend, WidgetEnd.map] at h

/-- Two options that share a value. -/
def sharedValue : List MenuOption := [⟨"a", "A"⟩, ⟨"a", "B"⟩]

def spaceThenEnter : List (Size × Nat) := [(⟨24, 100⟩, keySpace), (⟨24, 100⟩, 10)]

theorem checkboxMenu_sharedValue :
    (checkboxMenu "" sharedValue none "" spaceThenEnter).2 = .returned ["a", "a"] ∧
      ∀ drawn ∈ (checkboxMenu "" sharedValue none "" spaceThenEnter).1, drawn.cursor = 0 := by
  decide

end ArchInstaller.Tui
