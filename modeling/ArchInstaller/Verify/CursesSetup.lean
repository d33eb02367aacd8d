import ArchInstaller.Tui.CursesFrontend
import ArchInstaller.Verify.SetupAnswers
import ArchInstaller.Verify.TextEntry

/-! # Enter on every screen

What the curses screens return has the right kind. Enter alone returns the inherited value, except
on a menu where that is not one of the choices: there it returns the first choice. -/

namespace ArchInstaller

open Interaction PyData PyText Tui

/-! ## Screens -/

/-- The screen of the request returns the answer, in some windows and for some keys. -/
def Curses (ask : Ask) (answer : PyValue) : Prop := ∃ inputs, screen ask inputs = .returned answer

/-- Enter is the only key that is pressed. -/
def Entered (ask : Ask) (answer : PyValue) : Prop :=
  ∃ size, ∃ key ∈ enterKeys, screen ask [(size, key)] = .returned answer

/-- The inherited value can be chosen. -/
def Ask.Covered : Ask → Prop
  | .switch _ _ inherited => inherited.isSome
  | .chooseOne _ _ choices (some inherited) => ∃ choice ∈ choices, inherited.value.eq choice.value
  | .chooseMany _ question (some inherited) =>
    ∀ value ∈ inherited.value, ∃ choice ∈ question.choiceValues, value.eq choice
  | .chooseOne _ _ _ none | .chooseMany _ _ none => False
  | .enterText .. | .keepSecret .. => True
  | .enterSecret .. | .review _ => False

section

variable {choices : List Choice} {inputs : List (Size × Nat)} {value : PyValue} {step : String}
  {question : Question}

theorem returned_of_map {α β : Type} {f : α → β} {ending : WidgetEnd α} {value : β}
    (h : ending.map f = .returned value) :
    ∃ chosen, ending = .returned chosen ∧ f chosen = value := by
  cases ending <;> simp_all [WidgetEnd.map]

theorem returned_of_ofOption {α : Type} {ending : WidgetEnd (Option α)} {value : α}
    (h : ending.ofOption = .returned value) : ending = .returned (some value) := by
  cases ending with
  | returned chosen => cases chosen <;> simp_all [WidgetEnd.ofOption]
  | _ => cases h

theorem mem_of_chosenChoice {chosen : String} {choice : Choice}
    (h : chosenChoice choices chosen = some choice) : choice ∈ choices := by
  obtain ⟨position, -, hchoice⟩ := Option.bind_eq_some_iff.mp h
  exact List.mem_of_getElem? hchoice

theorem textScreen_returned {inherited : Option (Inherited String)} {keys : List Nat}
    (h : textScreen inherited keys = .returned value) : ∃ text rest,
      textInput (.start inherited true) keys = .submitted text rest ∧ value = .str text := by
  rw [textScreen] at h
  split at h
  · next text rest heq => exact ⟨text, rest, heq, (WidgetEnd.returned.inj h).symm⟩
  · cases h

theorem newPasswordScreen_returned {keys : List Nat}
    (h : newPasswordScreen keys = .returned value) :
    ∃ text rest, passwordInput keys = .submitted text rest ∧ value = .str text := by
  rw [newPasswordScreen] at h
  split at h
  · next text rest heq => exact ⟨text, rest, heq, (WidgetEnd.returned.inj h).symm⟩
  · cases h
  · cases h

theorem forall₂_of_mapM_some {α β : Type} {f : α → Option β} {xs : List α} {ys : List β}
    (h : xs.mapM f = some ys) : List.Forall₂ (fun x y => f x = some y) xs ys := by
  induction xs generalizing ys with
  | nil =>
    cases h
    exact .nil
  | cons x xs ih =>
    rw [List.mapM_cons] at h
    obtain ⟨y, hy, h⟩ := Option.bind_eq_some_iff.mp h
    obtain ⟨rest, hrest, h⟩ := Option.bind_eq_some_iff.mp h
    cases h
    exact .cons hy (ih hrest)

/-- Every answer of the curses front-end has the kind of its question. -/
theorem Curses.kind {ask : Ask} {answer : PyValue} (h : Curses ask answer) : ask.Kind answer := by
  obtain ⟨inputs, h⟩ := h
  rw [screen.eq_def] at h
  split at h
  · obtain ⟨chosen, -, rfl⟩ := returned_of_map h
    exact ⟨_, rfl⟩
  · obtain ⟨chosen, -, hchosen⟩ := returned_of_map (returned_of_ofOption h)
    obtain ⟨choice, hchoice, rfl⟩ := Option.map_eq_some_iff.mp hchosen
    exact List.mem_map_of_mem (mem_of_chosenChoice hchoice)
  · next label choices description _ =>
    obtain ⟨chosen, -, hchosen⟩ := returned_of_map (returned_of_ofOption h)
    obtain ⟨picked, hpicked, rfl⟩ := Option.map_eq_some_iff.mp hchosen
    refine ⟨_, rfl, ?_⟩
    intro value hvalue
    obtain ⟨choice, hchoice, rfl⟩ := List.mem_map.mp hvalue
    have hall := forall₂_of_mapM_some hpicked
    obtain ⟨position, -, hposition⟩ := exists_of_forall₂ hall.flip hchoice
    exact List.mem_map_of_mem (mem_of_chosenChoice hposition)
  · obtain ⟨text, rest, -, rfl⟩ := textScreen_returned h
    exact ⟨text, rfl⟩
  · obtain ⟨chosen, -, rfl⟩ := returned_of_map h
    exact ⟨_, rfl⟩
  · split at h
    · obtain ⟨text, rest, -, rfl⟩ := newPasswordScreen_returned h
      exact ⟨text, rfl⟩
    · obtain ⟨text, rest, -, rfl⟩ := textScreen_returned h
      exact ⟨text, rfl⟩
  · obtain ⟨chosen, -, rfl⟩ := returned_of_map h
    exact ⟨_, rfl⟩
  · cases h

/-! ## Positions -/

theorem chosenChoice_toString (position : Nat) :
    chosenChoice choices (toString position) = choices[position]? := by
  have hparsed : parseInt (toString position) = some (position : Int) := by
    have htext : toString position = String.ofList (Nat.toDigits 10 position) := by
      rw [← toString_nat_toList, String.ofList_toList]
    rw [htext, parseInt_digits (fun _ hc => Nat.isDigit_of_mem_toDigits (by decide) (by decide) hc)
      Nat.toDigits_ne_nil]
    exact congrArg (fun value : Nat => some (value : Int)) Nat.ofDigitChars_ten_toDigits
  rw [chosenChoice, hparsed]
  rfl

theorem mem_positionsOf {position : Nat} {values : List PyValue} :
    toString position ∈ positionsOf choices values ↔
      ∃ choice, choices[position]? = some choice ∧ ∃ value ∈ values, value.eq choice.value := by
  simp only [positionsOf, List.mem_map, List.mem_filter, List.any_eq_true, Prod.exists,
    List.mk_mem_zipIdx_iff_getElem?]
  constructor
  · rintro ⟨choice, position', ⟨hchoice, hvalue⟩, heq⟩
    obtain rfl := toString_nat_inj heq
    exact ⟨choice, hchoice, hvalue⟩
  · rintro ⟨choice, hchoice, hvalue⟩
    exact ⟨choice, position, ⟨hchoice, hvalue⟩, rfl⟩

theorem exists_position {position : String} {values : List PyValue}
    (h : position ∈ positionsOf choices values) : ∃ index : Nat, position = toString index := by
  obtain ⟨⟨choice, index⟩, -, rfl⟩ := List.mem_map.mp h
  exact ⟨index, rfl⟩

theorem getElem?_optionsOf {index : Nat} :
    (optionsOf choices)[index]? =
      choices[index]?.map fun choice => ⟨toString index, choice.label⟩ := by
  simp only [optionsOf, List.getElem?_map, List.getElem?_zipIdx, Option.map_map, Nat.zero_add]
  rfl

/-! ## Enter -/

variable {size : Size} {key : Nat}

theorem runList_enter {σ : Type} {menu : ListMenu σ} {cursor : Nat} {state : σ} {last : Nat × σ}
    (hkey : key ∈ enterKeys) (hhandle : menu.handleKey key cursor state = (state, true))
    (h : (runList menu cursor state [(size, key)]).2 = .returned last) :
    last = (cursor, state) := by
  have hkeys : key ≠ keyUp ∧ key ≠ keyDown := by
    constructor <;> rintro rfl <;> exact absurd hkey (by decide)
  rw [runList] at h
  split at h
  · cases h
  · simp only [beq_iff_eq, if_neg hkeys.1, if_neg hkeys.2, hhandle, if_true] at h
    exact (WidgetEnd.returned.inj h).symm

theorem radioMenu_enter {title description chosen : String} {options : List MenuOption}
    {inherited : Option (Inherited String)} (hkey : key ∈ enterKeys)
    (h : (radioMenu title options inherited description [(size, key)]).2 = .returned chosen) :
    chosen = (options.getD (startRow options inherited) ⟨"", ""⟩).value := by
  obtain ⟨last, hlast, rfl⟩ := returned_of_map h
  rw [runList_enter hkey (by simp [radioList, hkey]) hlast]

theorem checkboxMenu_enter {title description : String} {options : List MenuOption}
    {inherited : Option (Inherited (List String))} {chosen : List String} (hkey : key ∈ enterKeys)
    (h : (checkboxMenu title options inherited description [(size, key)]).2 = .returned chosen) :
    chosen = (options.filter fun option =>
      option.value ∈ (inherited.map (·.value)).getD []).map (·.value) := by
  obtain ⟨last, hlast, rfl⟩ := returned_of_map h
  have hspace : key ≠ keySpace := by
    rintro rfl
    exact absurd hkey (by decide)
  rw [runList_enter hkey (by simp [checkboxList, hkey, hspace]) hlast]
  simp only [List.mem_toFinset]

/-- The row of an option with the inherited value. -/
theorem value_startRow {options : List MenuOption} {inherited : Inherited String}
    (h : ∃ option ∈ options, option.value = inherited.value) :
    (options.getD (startRow options (some inherited)) ⟨"", ""⟩).value = inherited.value := by
  rw [startRow]
  cases hfound : options.findIdx? fun option =>
      some option.value == (some inherited).map (·.value) with
  | none =>
    obtain ⟨option, hoption, hvalue⟩ := h
    have hno := List.findIdx?_eq_none_iff.mp hfound option hoption
    simp [hvalue] at hno
  | some index =>
    obtain ⟨hlt, hvalue, -⟩ := List.findIdx?_eq_some_iff_getElem.mp hfound
    rw [Option.getD_some, List.getD_eq_getElem?_getD, List.getElem?_eq_getElem hlt,
      Option.getD_some]
    simpa using hvalue

theorem startRow_none {options : List MenuOption} : startRow options none = 0 := by
  have hnone : (options.findIdx? fun option =>
      some option.value == (none : Option (Inherited String)).map (·.value)) = none :=
    List.findIdx?_eq_none_iff.mpr fun _ _ => rfl
  rw [startRow, hnone, Option.getD_none]

/-- Enter on a menu: the inherited choice, or else the first. -/
theorem chooseOneScreen_enter {step label description : String}
    {inherited : Option (Inherited PyValue)} (hkey : key ∈ enterKeys)
    (h : chooseOneScreen step label description choices inherited [(size, key)] = .returned value) :
    (∀ shown, inherited = some shown → (∃ choice ∈ choices, shown.value.eq choice.value) →
      shown.value.eq value) ∧
    ((∀ shown, inherited = some shown → ¬∃ choice ∈ choices, shown.value.eq choice.value) →
      choices.head?.map Choice.value = some value) := by
  obtain ⟨chosen, hchosen, hvalue⟩ := returned_of_map (returned_of_ofOption h)
  have hrow := radioMenu_enter hkey hchosen
  constructor
  · rintro shown rfl ⟨choice, hchoice, heq⟩
    obtain ⟨index, hindex⟩ := List.getElem?_of_mem hchoice
    have hmem : toString index ∈ positionsOf choices [shown.value] :=
      mem_positionsOf.mpr ⟨choice, hindex, shown.value, List.mem_singleton_self _, heq⟩
    obtain ⟨position, positions, hpositions⟩ := List.exists_cons_of_ne_nil (List.ne_nil_of_mem hmem)
    have hfirst : position ∈ positionsOf choices [shown.value] := hpositions ▸ List.mem_cons_self
    obtain ⟨first, rfl⟩ := exists_position hfirst
    obtain ⟨choice', hchoice', value', hvalue', heq'⟩ := mem_positionsOf.mp hfirst
    rw [shownPosition, Option.bind_some, hpositions, List.head?_cons, Option.map_some,
      value_startRow] at hrow
    · rw [hrow, chosenChoice_toString, hchoice', Option.map_some, Option.some.injEq] at hvalue
      rw [← hvalue, ← List.mem_singleton.mp hvalue']
      exact heq'
    · refine ⟨⟨toString first, choice'.label⟩, List.mem_of_getElem? (i := first) ?_, rfl⟩
      rw [getElem?_optionsOf, hchoice', Option.map_some]
  · intro hnone
    have hshown : shownPosition choices inherited = none := by
      cases inherited with
      | none => rfl
      | some shown =>
        have hempty : positionsOf choices [shown.value] = [] := by
          rw [List.eq_nil_iff_forall_not_mem]
          intro position hposition
          obtain ⟨index, rfl⟩ := exists_position hposition
          obtain ⟨choice, hchoice, value', hvalue', heq⟩ := mem_positionsOf.mp hposition
          rw [List.mem_singleton.mp hvalue'] at heq
          exact hnone shown rfl ⟨choice, List.mem_of_getElem? hchoice, heq⟩
        rw [shownPosition, Option.bind_some, hempty]
        rfl
    rw [hshown, startRow_none] at hrow
    cases choices with
    | nil =>
      have hempty : (chosenChoice [] chosen).map Choice.value = none := by
        rw [hrow]
        rfl
      rw [hempty] at hvalue
      cases hvalue
    | cons choice choices =>
      have hfirst : chosen = toString 0 := hrow
      rw [hfirst, chosenChoice_toString] at hvalue
      simpa using hvalue

theorem chooseManyScreen_enter {step label description : String}
    {inherited : Option (Inherited (List PyValue))} (hkey : key ∈ enterKeys)
    (h : chooseManyScreen step label description choices inherited [(size, key)] =
      .returned value) :
    ∃ picked : List Choice, value = .list (picked.map Choice.value) ∧ ∀ choice, choice ∈ picked ↔
      choice ∈ choices ∧ ∃ value ∈ (inherited.map (·.value)).getD [], value.eq choice.value := by
  obtain ⟨chosen, hchosen, hvalue⟩ := returned_of_map (returned_of_ofOption h)
  obtain ⟨picked, hpicked, rfl⟩ := Option.map_eq_some_iff.mp hvalue
  have hmapped := forall₂_of_mapM_some hpicked
  have hticked := checkboxMenu_enter hkey hchosen
  have hpositions : (Option.map (fun x : Inherited (List String) => x.value)
      (inherited.map fun inherited =>
        ⟨positionsOf choices inherited.value, inherited.source⟩)).getD [] =
        positionsOf choices ((inherited.map (·.value)).getD []) := by
    cases inherited with
    | none => simp [positionsOf]
    | some inherited => rfl
  rw [hpositions] at hticked
  have hmem : ∀ position, position ∈ chosen ↔
      position ∈ positionsOf choices ((inherited.map (·.value)).getD []) := by
    intro position
    rw [hticked, List.mem_map]
    constructor
    · rintro ⟨option, hoption, rfl⟩
      simpa using (List.mem_filter.mp hoption).2
    · intro hposition
      obtain ⟨index, rfl⟩ := exists_position hposition
      obtain ⟨choice, hchoice, -⟩ := mem_positionsOf.mp hposition
      refine ⟨⟨toString index, choice.label⟩,
        List.mem_filter.mpr ⟨?_, by simpa using hposition⟩, rfl⟩
      refine List.mem_of_getElem? (i := index) ?_
      rw [getElem?_optionsOf, hchoice, Option.map_some]
  refine ⟨picked, rfl, fun choice => ⟨fun hchoice => ?_, ?_⟩⟩
  · obtain ⟨position, hposition, hpick⟩ := exists_of_forall₂ hmapped.flip hchoice
    have hposition := (hmem position).mp hposition
    obtain ⟨index, rfl⟩ := exists_position hposition
    obtain ⟨choice', hchoice', hshown⟩ := mem_positionsOf.mp hposition
    obtain rfl : choice' = choice := by
      rw [chosenChoice_toString, hchoice'] at hpick
      exact Option.some.inj hpick
    exact ⟨List.mem_of_getElem? hchoice', hshown⟩
  · rintro ⟨hchoice, hshown⟩
    obtain ⟨index, hindex⟩ := List.getElem?_of_mem hchoice
    have hposition := (hmem (toString index)).mpr (mem_positionsOf.mpr ⟨choice, hindex, hshown⟩)
    obtain ⟨choice', hchoice', hpick⟩ := exists_of_forall₂ hmapped hposition
    rw [chosenChoice_toString, hindex] at hpick
    exact Option.some.inj hpick ▸ hchoice'

theorem textScreen_enter {inherited : Option (Inherited String)} (hkey : key ∈ enterKeys)
    (h : textScreen inherited [key] = .returned value) :
    ∃ shown, inherited = some shown ∧ value = .str shown.value := by
  obtain ⟨text, rest, hsubmitted, rfl⟩ := textScreen_returned h
  rw [textInput, press_enter hkey, submit_eq _ [] rfl] at hsubmitted
  split at hsubmitted
  · next heq =>
    split at heq
    · cases heq
    · next hrefused =>
      cases inherited with
      | none => exact absurd ⟨rfl, rfl⟩ hrefused
      | some shown =>
        cases heq
        cases hsubmitted
        exact ⟨shown, rfl, rfl⟩
  · next heq =>
    split at heq
    · cases heq
      cases hsubmitted
    · cases heq

/-- Enter alone enters no password. -/
theorem newPasswordScreen_enter (hkey : key ∈ enterKeys) : newPasswordScreen [key] = .waiting := by
  cases hend : newPasswordScreen [key] with
  | returned value =>
    obtain ⟨text, rest, hsubmitted, rfl⟩ := newPasswordScreen_returned hend
    obtain ⟨entry, hediting⟩ : ∃ entry, textInput (.start none true) [key] = .editing entry := by
      rw [textInput, press_enter hkey]
      exact ⟨_, rfl⟩
    rw [passwordInput_editing hediting] at hsubmitted
    cases hsubmitted
  | quit | failed =>
    rw [newPasswordScreen] at hend
    split at hend <;> cases hend
  | waiting => rfl

/-- Enter returns what can be chosen of what is shown. -/
theorem Entered.unchanged {ask : Ask} {answer : PyValue} (h : Entered ask answer)
    (hcovered : ask.Covered) : ask.Unchanged answer := by
  obtain ⟨size, key, hkey, h⟩ := h
  rw [screen.eq_def] at h
  split at h
  · next step label onLabel offLabel description inherited =>
    obtain ⟨shown, rfl⟩ := Option.isSome_iff_exists.mp hcovered
    obtain ⟨chosen, hchosen, rfl⟩ := returned_of_map h
    have hrow := radioMenu_enter hkey hchosen
    obtain ⟨value, source⟩ := shown
    cases value with
    | false => rw [hrow]; rfl
    | true => rw [hrow]; rfl
  · next step label _ description _ choices inherited =>
    cases inherited with
    | none => exact absurd hcovered id
    | some shown => exact (chooseOneScreen_enter hkey h).1 shown rfl hcovered
  · next step label choices description inherited =>
    cases inherited with
    | none => exact absurd hcovered id
    | some shown =>
      obtain ⟨picked, rfl, hpicked⟩ := chooseManyScreen_enter hkey h
      refine ⟨_, rfl, fun value hvalue => ?_, fun value hvalue => ?_⟩
      · obtain ⟨choice, hchoice, rfl⟩ := List.mem_map.mp hvalue
        exact ((hpicked choice).mp hchoice).2
      · obtain ⟨_, hmem, heq⟩ := hcovered value hvalue
        obtain ⟨choice, hchoice, rfl⟩ := List.mem_map.mp hmem
        exact ⟨_, List.mem_map_of_mem ((hpicked choice).mpr ⟨hchoice, value, hvalue, heq⟩), heq⟩
  · obtain ⟨shown, rfl, rfl⟩ := textScreen_enter hkey h
    rfl
  · obtain ⟨chosen, hchosen, rfl⟩ := returned_of_map h
    have hrow := radioMenu_enter hkey hchosen
    rw [startRow_none] at hrow
    rw [hrow]
    rfl
  · exact absurd hcovered id
  · exact absurd hcovered id
  · cases h

theorem Entered.first {inherited : Option (Inherited PyValue)} {answer : PyValue}
    (h : Entered (.chooseOne step question choices inherited) answer)
    (hshown : ∀ shown, inherited = some shown →
      ¬∃ choice ∈ choices, shown.value.eq choice.value) :
    choices.head?.map Choice.value = some answer := by
  obtain ⟨size, key, hkey, h⟩ := h
  cases question with
  | chooseOne => exact (chooseOneScreen_enter hkey h).2 hshown
  | _ => cases h

/-! ## What can be chosen -/

theorem eq_none_of_eq {value : PyValue} (h : PyValue.none.eq value) : value = .none := by
  cases value <;> simp_all [PyValue.eq, PyValue.eqScalar, PyValue.text, PyValue.number]

/-- An inherited value that is not among the choices does not come back from them. -/
theorem value_chosenValue {previous : Option SettingValue} {answer : PyValue}
    (hmem : answer ∈ choices.map Choice.value)
    (hcovered : ¬(Ask.chooseOne step question choices (inheritedValue? previous)).Covered) :
    (chosenValue previous answer).value = answer := by
  obtain ⟨choice, hchoice, rfl⟩ := List.mem_map.mp hmem
  cases previous with
  | none => rfl
  | some setting =>
    rw [chosenValue]
    split
    · next heq =>
      obtain ⟨value, source⟩ := setting
      cases value with
      | none => exact (eq_none_of_eq heq).symm
      | _ => exact absurd ⟨choice, hchoice, heq⟩ hcovered
    · rfl

theorem int_eq_int {number number' : Int} :
    (PyValue.int number).eq (.int number') = true ↔ number = number' := by
  simp [PyValue.eq, PyValue.eqScalar, PyValue.text, PyValue.number, PyFloat.eq_iff]

theorem mem_swapSizeChoices_int {disks : List Disk} {size size' : Int} :
    (∃ choice ∈ swapSizeChoices (.int size) disks, choice.value = .int size') ↔
      size' ∈ swapPresetsMb ∨ size' = size ∧ 0 < size := by
  simp only [swapSizeChoices, List.mem_map, List.mem_mergeSort, List.mem_append]
  constructor
  · rintro ⟨_, ⟨_, ⟨preset, hpreset, rfl⟩ | hinherited, rfl⟩, hvalue⟩
    · cases hvalue
      exact .inl hpreset
    · split at hinherited
      · next hadded =>
        obtain rfl := List.mem_singleton.mp hinherited
        cases hvalue
        exact .inr ⟨rfl, by simpa using (Bool.and_eq_true_iff.mp hadded).1⟩
      · cases hinherited
  · intro hsize
    by_cases hpreset : size' ∈ swapPresetsMb
    · exact ⟨_, ⟨_, .inl ⟨size', hpreset, rfl⟩, rfl⟩, rfl⟩
    · obtain ⟨rfl, hpos⟩ := hsize.resolve_left hpreset
      refine ⟨_, ⟨(size', .int size', toString size'), .inr ?_, rfl⟩, rfl⟩
      rw [if_pos (by simp [hpos, hpreset])]
      exact List.mem_singleton_self _

theorem presets_pos : ∀ size ∈ swapPresetsMb, 0 < size := by decide

/-- A text that is not empty, and the path of a detected disk where that is asked for, or a size
above zero. -/
def CanBeChosen (disks : List Disk) (path : String) (value : PyValue) : Prop :=
  if path ∈ diskPaths then ∃ disk ∈ disks, value.text = some disk.path
  else (∃ text, text ≠ "" ∧ value.text = some text) ∨ ∃ size, 0 < size ∧ value = .int size

theorem ne_none_of_text {value : PyValue} {text : String} (h : value.text = some text) :
    value ≠ .none := by
  rintro rfl
  cases h

/-- A member of an enumeration is among the choices if it is not empty. -/
theorem mem_enumChoices_iff {type : FieldType} (henum : isEnumOf choices type)
    {converted : type.Value} (hreads : type.Reads value converted) :
    (value ≠ .none ∧ ∃ choice ∈ choices, value.eq choice.value) ↔
      (∃ text, text ≠ "" ∧ value.text = some text) ∨ ∃ size, 0 < size ∧ value = .int size := by
  cases type with
  | enum type =>
    simp only [isEnumOf, Bool.and_eq_true, List.all_eq_true, Option.any_eq_true, bne_iff_ne,
      Bool.or_eq_true, beq_iff_eq, List.any_eq_true] at henum
    obtain ⟨member, hmember⟩ := (isLeaf_viewOf_iff.mp hreads.fits).2
    constructor
    · rintro ⟨-, choice, hchoice, hsame⟩
      obtain ⟨text, htext, hne⟩ := henum.1 choice hchoice
      exact .inl ⟨text, hne, text_of_eq hsame htext⟩
    · rintro (⟨text, hne, htext⟩ | ⟨size, -, hsize⟩)
      · rcases hmember with ⟨hnone, -⟩ | hmember
        · exact absurd hnone (ne_none_of_text htext)
        · obtain rfl := Option.some.inj (htext.symm.trans hmember)
          obtain ⟨choice, hchoice, hoffered⟩ :=
            (henum.2 member (type.complete member)).resolve_left hne
          exact ⟨ne_none_of_text htext, choice, hchoice, eq_of_text htext hoffered⟩
      · rw [hsize] at hmember
        rcases hmember with ⟨hnone, -⟩ | htext
        · cases hnone
        · cases htext
  | _ => cases henum

/-- A disk is among the choices if it is detected. -/
theorem mem_diskChoices_iff {disks : List Disk} {shown : PyValue} :
    (value ≠ .none ∧ ∃ choice ∈ detectedDiskChoices shown disks, value.eq choice.value) ↔
      ∃ disk ∈ disks, value.text = some disk.path := by
  constructor
  · rintro ⟨-, choice, hchoice, hsame⟩
    obtain ⟨disk, hdisk, rfl⟩ := List.mem_map.mp hchoice
    exact ⟨disk, hdisk, text_of_eq hsame rfl⟩
  · rintro ⟨disk, hdisk, htext⟩
    exact ⟨ne_none_of_text htext, _, List.mem_map_of_mem hdisk, eq_of_text htext rfl⟩

/-- A size is among the choices made with it if it is above zero. -/
theorem mem_sizeChoices_iff {disks : List Disk} {size : Int} :
    (PyValue.int size ≠ .none ∧
      ∃ choice ∈ swapSizeChoices (.int size) disks, (PyValue.int size).eq choice.value) ↔
      (∃ text, text ≠ "" ∧ (PyValue.int size).text = some text) ∨
        ∃ size', 0 < size' ∧ PyValue.int size = .int size' := by
  constructor
  · rintro ⟨-, choice, hchoice, hsame⟩
    obtain ⟨size', hvalue⟩ : ∃ size', choice.value = .int size' := by
      rcases mem_swapSizeChoices hchoice with ⟨size', hvalue, -⟩ | heq
      · exact ⟨size', hvalue⟩
      · cases heq
    rw [hvalue, int_eq_int] at hsame
    subst hsame
    refine .inr ⟨size, ?_, rfl⟩
    rcases mem_swapSizeChoices_int.mp ⟨choice, hchoice, hvalue⟩ with hpreset | ⟨-, hpos⟩
    · exact presets_pos size hpreset
    · exact hpos
  · rintro (⟨text, -, htext⟩ | ⟨size', hpos, heq⟩)
    · cases htext
    · cases heq
      obtain ⟨choice, hchoice, hvalue⟩ := mem_swapSizeChoices_int.mpr (.inr ⟨rfl, hpos⟩)
      exact ⟨by simp, choice, hchoice, by rw [hvalue, int_eq_int]⟩

/-- Which inherited values of a menu Enter keeps. -/
theorem covered_iff {inherited : List (String × SettingValue)} {disks : List Disk}
    (haccepted : Accepted inherited) {entry : String × StepSetting} (hentry : entry ∈ setupSettings)
    {label description typedPrompt : String} {source : ChoiceSource}
    (hquestion : entry.2.question = some (.chooseOne label source description typedPrompt))
    {previous : SettingValue} (hprevious : inherited.lookup entry.2.path = some previous) :
    (Ask.chooseOne step question (source.available disks (some previous))
      (inheritedValue? (some previous))).Covered ↔
        CanBeChosen disks entry.2.path previous.value := by
  have hcovered : (Ask.chooseOne step question (source.available disks (some previous))
      (inheritedValue? (some previous))).Covered ↔ previous.value ≠ .none ∧
        ∃ choice ∈ source.available disks (some previous), previous.value.eq choice.value := by
    obtain ⟨value, origin⟩ := previous
    cases value <;> simp [inheritedValue?, Ask.Covered]
  rw [hcovered, CanBeChosen]
  cases suits_setupSettings entry hentry with
  | unasked heq | switch heq | text heq | secret heq | many heq => simp [heq] at hquestion
  | offered heq htype hne htexts hpath =>
    obtain rfl : source = .offered _ := by
      simp only [heq, Option.some.injEq, Question.chooseOne.injEq] at hquestion
      exact hquestion.2.1.symm
    rw [if_neg hpath]
    obtain ⟨type, henum, converted, hreads⟩ := haccepted.reads htype hprevious
    exact mem_enumChoices_iff henum hreads
  | disk heq htype hpath =>
    obtain rfl : source = .computed detectedDiskChoices := by
      simp only [heq, Option.some.injEq, Question.chooseOne.injEq] at hquestion
      exact hquestion.2.1.symm
    rw [if_pos hpath, ChoiceSource.available]
    exact mem_diskChoices_iff
  | size heq htype hpath =>
    obtain rfl : source = .computed swapSizeChoices := by
      simp only [heq, Option.some.injEq, Question.chooseOne.injEq] at hquestion
      exact hquestion.2.1.symm
    obtain ⟨type, hint, converted, hreads⟩ := haccepted.reads htype hprevious
    obtain ⟨size, hsize⟩ := eq_int_of_reads hint hreads
    rw [if_neg (by rw [hpath]; decide), ChoiceSource.available, Option.map_some,
      Option.getD_some, hsize]
    exact mem_sizeChoices_iff

/-! ## Sessions -/

/-- What a session on the curses screens leaves of what was inherited, where Enter was pressed: all
of it but for menus on which it cannot be chosen, and those leave their first choice. -/
structure KeepsOnEnter (inherited : List (String × SettingValue)) (disks : List Disk)
    (exchanges : List (Ask × PyValue)) (answers : List (String × PyValue)) : Prop where
  keeps : ∀ entry ∈ setupSettings, (∀ x ∈ exchanges, ∀ question, entry.2.question = some question →
    x.1.subject = some (entry.1, question.label) → Entered x.1 x.2 ∧ x.1.Covered) →
      ((applyTuiChoices inherited answers).lookup entry.2.path).map SettingValue.value =
        (inherited.lookup entry.2.path).map SettingValue.value
  same : (∀ x ∈ exchanges, x.1.subject ≠ none → Entered x.1 x.2 ∧ x.1.Covered) →
    plainValues (applyTuiChoices inherited answers) = plainValues inherited
  menus : ∀ {step question choices shown answer},
    (Ask.chooseOne step question choices shown, answer) ∈ exchanges →
      Entered (.chooseOne step question choices shown) answer → ∃ entry ∈ setupSettings,
        IsMenu inherited disks entry (.chooseOne step question choices shown) ∧
        ∀ previous, inherited.lookup entry.2.path = some previous →
          (CanBeChosen disks entry.2.path previous.value →
            ((applyTuiChoices inherited answers).lookup entry.2.path).map SettingValue.value =
              some previous.value) ∧
          (¬CanBeChosen disks entry.2.path previous.value →
            ((applyTuiChoices inherited answers).lookup entry.2.path).map SettingValue.value =
              choices.head?.map Choice.value)

end

/-! ## A disk that is not there -/

/-- Enter on every screen, and `y` on the last. -/
def enterKey : Ask → Nat
  | .review _ => 'y'.toNat
  | _ => 10

def enterAnswer (ask : Ask) : PyValue :=
  match screen ask [(⟨24, 80⟩, enterKey ask)] with
  | .returned answer => answer
  | _ => .none

/-- The sample wants `/dev/sda`, and the machine has another disk. -/
def enterSession : Simulation Ask PyValue SetupError (List (String × PyValue)) Unit :=
  simulate (fun s ask => (enterAnswer ask, s))
    (runSetup scalarBuiltins inheritedSample [⟨"/dev/sdc", "Model", "1T"⟩]) 40 ()

def answersAtOnce (ask : Ask) : Bool :=
  match screen ask [(⟨24, 80⟩, enterKey ask)] with
  | .returned _ => true
  | _ => false

theorem curses_enterAnswer {ask : Ask} (h : answersAtOnce ask) : Curses ask (enterAnswer ask) := by
  rw [answersAtOnce] at h
  split at h
  · next answer hreturned =>
    refine ⟨_, hreturned.trans ?_⟩
    rw [enterAnswer, hreturned]
  · cases h

end ArchInstaller
