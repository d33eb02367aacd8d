import ArchInstaller.Interaction.Ending
import ArchInstaller.Verify.SetupRuns

/-! # Answers of the right kind

A front-end that answers each question with a value of the question's kind never makes the setup
fail, but for a list that is null, and what it returns unchanged is what is configured. -/

namespace ArchInstaller

open Interaction PyData PyText

/-! ## Kinds -/

def Question.choiceValues : Question → List PyValue
  | chooseMany _ choices _ => choices.map Choice.value
  | _ => []

/-- The answer is one that the method of the front-end is declared to return. -/
def Ask.Kind (ask : Ask) (answer : PyValue) : Prop :=
  match ask with
  | .switch .. | .keepSecret .. | .review _ => ∃ truth, answer = .bool truth
  | .chooseOne _ _ choices _ => answer ∈ choices.map Choice.value
  | .chooseMany _ question _ => ∃ values, answer = .list values ∧ values ⊆ question.choiceValues
  | .enterText .. | .enterSecret .. => ∃ text, answer = .str text

/-- The front-end was shown an inherited value, and this is it again; a selection has no order. -/
def Ask.Unchanged (ask : Ask) (answer : PyValue) : Prop :=
  match ask with
  | .switch _ _ (some inherited) => answer = .bool inherited.value
  | .chooseOne _ _ _ (some inherited) => inherited.value.eq answer
  | .chooseMany _ _ (some inherited) => ∃ values, answer = .list values ∧
    (∀ value ∈ values, ∃ value' ∈ inherited.value, value'.eq value) ∧
      ∀ value' ∈ inherited.value, ∃ value ∈ values, value'.eq value
  | .enterText _ _ (some inherited) => answer = .str inherited.value
  | .keepSecret .. => answer = .bool true
  | _ => False

/-- Front-ends whose answers have the right kind. -/
def kindly : Machine Ask PyValue Unit := fun _ ask answer _ => ask.Kind answer

theorem replays_kindly_iff {exchanges : List (Ask × PyValue)} :
    Replays kindly () exchanges () ↔ ∀ x ∈ exchanges, x.1.Kind x.2 := by
  induction exchanges with
  | nil => simp
  | cons x exchanges ih => simp [ih, kindly]

/-! ## Questions and the types of their settings -/

def isBool : FieldType → Bool
  | .bool => true
  | _ => false

def isStr : FieldType → Bool
  | .str => true
  | _ => false

def isInt : FieldType → Bool
  | .int => true
  | _ => false

/-- Members that are all among the choices, but for an empty one, and the choices are texts. -/
def isEnumOf (choices : List Choice) : FieldType → Bool
  | .enum type =>
    (choices.all fun choice => choice.value.text.any (· != "")) &&
      type.members.all fun member => type.value member == "" ||
        choices.any fun choice => choice.value.text == some (type.value member)
  | _ => false

/-- A selection of members that are all among the choices. -/
def isSelectionOf (choices : List Choice) : FieldType → Bool
  | .tuple (.enum type) => type.members.all fun member => type.value member != "" &&
    choices.any fun choice => choice.value.text == some (type.value member)
  | _ => false

/-- The only selection. -/
def desktopsPath : String := "packages.selected_desktops"

/-- The only number. -/
def swapSizePath : String := "storage.swap.size_mb"

/-- The settings that are chosen among the disks of the machine. -/
def diskPaths : List String := ["storage.target_disk", "usb_boot.device"]

/-- The question asks for values of the setting's type. -/
inductive Suits (setting : StepSetting) : Prop
  | unasked (hquestion : setting.question = none)
  | switch {label onLabel offLabel description : String}
    (hquestion : setting.question = some (.switch label onLabel offLabel description))
    (htype : isSettingPath isBool setting.path)
  | text {label prompt : String} (hquestion : setting.question = some (.enterText label prompt))
    (htype : isSettingPath isStr setting.path)
  | secret {label prompt : String} {confirm : Bool}
    (hquestion : setting.question = some (.enterSecret label prompt confirm))
  | many {label description : String} {choices : List Choice}
    (hquestion : setting.question = some (.chooseMany label choices description))
    (htype : isSettingPath (isSelectionOf choices) setting.path)
    (htexts : choices.all fun choice => choice.value.text.isSome)
    (hpath : setting.path = desktopsPath)
  | offered {label description typedPrompt : String} {choices : List Choice}
    (hquestion : setting.question =
      some (.chooseOne label (.offered choices) description typedPrompt))
    (htype : isSettingPath (isEnumOf choices) setting.path) (hne : choices.isEmpty = false)
    (htexts : choices.all fun choice => choice.value.text.isSome) (hpath : setting.path ∉ diskPaths)
  | disk {label description typedPrompt : String}
    (hquestion : setting.question =
      some (.chooseOne label (.computed detectedDiskChoices) description typedPrompt))
    (htype : isSettingPath isStr setting.path) (hpath : setting.path ∈ diskPaths)
  | size {label description typedPrompt : String}
    (hquestion : setting.question =
      some (.chooseOne label (.computed swapSizeChoices) description typedPrompt))
    (htype : isSettingPath isInt setting.path) (hpath : setting.path = swapSizePath)

theorem suits_setupSettings : ∀ entry ∈ setupSettings, Suits entry.2 := by
  simp only [setupSettings, installStepSettings, migrationStagingSettings, usbBootDriveSettings,
    storageSettings, packagesSettings, systemSettings, dockerSettings, bootableSnapshotsSettings,
    snapshotNotificationsSettings, firewallSettings, List.flatMap_cons, List.flatMap_nil,
    List.map_cons, List.map_nil, List.cons_append, List.nil_append, List.append_nil,
    List.forall_mem_cons]
  repeat' apply And.intro
  all_goals
    first
    | exact .switch rfl (by decide)
    | exact .text rfl (by decide)
    | exact .secret rfl
    | exact .disk rfl (by decide) (by decide)
    | exact .size rfl (by decide) rfl
    | exact .offered rfl (by decide) rfl rfl (by decide)
    | exact .many rfl (by decide) rfl rfl
    | exact .unasked rfl
    | exact fun _ hmem => absurd hmem List.not_mem_nil

/-! ## Values that are accepted -/

/-- Each inherited value is accepted for its setting. -/
def Accepted (inherited : List (String × SettingValue)) : Prop :=
  ∀ {type : FieldType} (setting : Setting InstallerConfig.fields type) (previous : SettingValue),
    inherited.lookup setting.path = some previous →
      ∃ converted, type.Reads previous.value converted

section

variable {inherited : List (String × SettingValue)} {value : PyValue} {previous : SettingValue}
  {type : FieldType} {path : String}

theorem Accepted.reads (h : Accepted inherited) {kind : FieldType → Bool}
    (htype : isSettingPath kind path) (hprevious : inherited.lookup path = some previous) :
    ∃ type, kind type ∧ ∃ converted, type.Reads previous.value converted := by
  obtain ⟨type, hkind, setting, rfl⟩ := setting_of_isSettingPath htype
  exact ⟨type, hkind, h setting previous hprevious⟩

/-- What the builder builds from is accepted. -/
theorem accepted_of_build (hknown : KnownPaths InstallerConfig.fields (plainValues inherited))
    {config : InstallerConfig}
    (hbuild : buildInstallerConfig (plainValues inherited) = .ok config) : Accepted inherited := by
  intro type setting previous hprevious
  obtain ⟨value, hlookup, hreads⟩ := hknown.reads hbuild setting
  rw [withCredentials, lookup_merge hknown.nodup, lookup_plainValues, hprevious] at hlookup
  obtain rfl : previous.value = value := by simpa using hlookup
  exact ⟨_, hreads⟩

theorem eq_bool_of_reads (htype : isBool type) {converted : type.Value}
    (h : type.Reads value converted) : ∃ truth, value = .bool truth := by
  cases type with
  | bool => exact (isLeaf_viewOf_iff.mp h.fits).2
  | _ => cases htype

theorem eq_int_of_reads (htype : isInt type) {converted : type.Value}
    (h : type.Reads value converted) : ∃ number, value = .int number := by
  cases type with
  | int => exact (isLeaf_viewOf_iff.mp h.fits).2
  | _ => cases htype

theorem readsText_of_reads (htype : isStr type) {converted : type.Value}
    (h : type.Reads value converted) : ∃ text, ReadsText value text := by
  cases type with
  | str => exact (isLeaf_viewOf_iff.mp h.fits).2
  | _ => cases htype

/-- Null, or texts that are among the choices. -/
theorem items_of_reads {choices : List Choice} (htype : isSelectionOf choices type)
    {converted : type.Value} (h : type.Reads value converted) :
    value = .none ∨ ∃ items, value.items = some items ∧ ∀ item ∈ items, ∃ text,
      item.text = some text ∧ ∃ choice ∈ choices, choice.value.text = some text := by
  cases type with
  | tuple item =>
    cases item with
    | enum type =>
      rw [isSelectionOf, List.all_eq_true] at htype
      refine (isLeaf_viewOf_iff.mp h.fits).2.imp_right ?_
      rintro ⟨items, hitems, hfits⟩
      refine ⟨items, hitems, fun item hitem => ?_⟩
      obtain ⟨member, hmember⟩ := (isLeaf_viewOf_iff.mp (hfits item hitem)).2
      have hchoice := htype member (type.complete member)
      simp only [Bool.and_eq_true, bne_iff_ne, List.any_eq_true, beq_iff_eq] at hchoice
      rcases hmember with ⟨-, hempty⟩ | htext
      · exact absurd hempty hchoice.1
      · exact ⟨_, htext, hchoice.2⟩
    | _ => cases htype
  | _ => cases htype

theorem text_of_eq {value' : PyValue} {text : String} (h : value.eq value')
    (htext : value'.text = some text) : value.text = some text := by
  cases value <;> cases value' <;>
    simp_all [PyValue.eq, PyValue.eqScalar, PyValue.text, PyValue.number]

theorem eq_of_text {value' : PyValue} {text : String} (h : value.text = some text)
    (h' : value'.text = some text) : value.eq value' := by
  cases value <;> cases value' <;>
    simp_all [PyValue.eq, PyValue.eqScalar, PyValue.text]

theorem chosenValue_eq {setting : SettingValue} {answer : PyValue}
    (h : answer = setting.value ∨ setting.value.eq answer) :
    (chosenValue (some setting) answer).value = setting.value := by
  rw [chosenValue]
  split
  · rfl
  · next hne => exact h.resolve_right hne

end

/-! ## What can be shown -/

section

variable {python : PyBuiltins} {inherited : List (String × SettingValue)} {disks : List Disk}

/-- The last screen can show the value as an answer to the question. -/
def Shows (python : PyBuiltins) (question : Question) (value : PyValue) : Prop :=
  match question with
  | .chooseMany .. => ∃ items, python.list value = .ok items ∧
    ∀ item ∈ items, ∃ text, python.text item = .ok text
  | .chooseOne .. | .enterText .. => ∃ text, python.text value = .ok text
  | .switch .. | .enterSecret .. => True

theorem exists_mapM_ok {α β ε : Type} {f : α → Except ε β} {xs : List α}
    (h : ∀ x ∈ xs, ∃ y, f x = .ok y) : ∃ ys, xs.mapM f = .ok ys := by
  induction xs with
  | nil => exact ⟨[], rfl⟩
  | cons x xs ih =>
    rw [List.forall_mem_cons] at h
    obtain ⟨y, hy⟩ := h.1
    obtain ⟨ys, hys⟩ := ih h.2
    exact ⟨y :: ys, by rw [List.mapM_cons, hy, hys]; rfl⟩

theorem exists_shownValue {question : Question} {value : PyValue} (h : Shows python question value)
    (offered : List Choice) : ∃ text, shownValue python offered question value = .ok text := by
  cases question with
  | chooseOne | enterText =>
    obtain ⟨text, htext⟩ := h
    simp only [shownValue, htext]
    exact ⟨_, rfl⟩
  | chooseMany =>
    obtain ⟨items, hitems, htexts⟩ := h
    obtain ⟨texts, htexts⟩ := exists_mapM_ok htexts
    have hbind : (python.list value >>= fun items => items.mapM python.text) = .ok texts := by
      rw [hitems]
      exact htexts
    rw [shownValue, ← bind_assoc, hbind]
    exact ⟨_, rfl⟩
  | switch | enterSecret => exact ⟨_, rfl⟩

theorem text_ok {value : PyValue} {text : String} (h : value.text = some text) :
    python.text value = .ok text := by
  rw [PyBuiltins.text, python.str_text h]

theorem list_ok {value : PyValue} {items : List PyValue} (h : value.items = some items) :
    python.list value = .ok items := by
  cases value <;> cases h <;> rfl

/-- What a question came to: the chosen value can be shown, and it is the inherited one if the
front-end was shown that and returned it. -/
structure Answered (python : PyBuiltins) (disks : List Disk) (question : Question)
    (previous : Option SettingValue)
    (part : List (Ask × PyValue)) (answer : PyValue) : Prop where
  shows : Shows python question (chosenValue previous answer).value
  keeps : (∀ x ∈ part, x.1.Unchanged x.2) → ∃ setting, previous = some setting ∧
    (chosenValue previous answer).value = setting.value
  chooses : ∀ {step question' choices shown answer'},
    (Ask.chooseOne step question' choices shown, answer') ∈ part →
      answer' = answer ∧ shown = inheritedValue? previous ∧ question' = question ∧
        ∃ label source description typedPrompt,
          question = .chooseOne label source description typedPrompt ∧
          choices = source.available disks previous

theorem shows_chosenValue {question : Question} {previous : Option SettingValue}
    {answer : PyValue} (h : Shows python question answer)
    (heq : ∀ setting, previous = some setting → setting.value.eq answer →
      Shows python question setting.value) :
    Shows python question (chosenValue previous answer).value := by
  cases previous with
  | none => exact h
  | some setting =>
    rw [chosenValue]
    split
    · next hsame => exact heq setting rfl hsame
    · exact h

/-! ## One question -/

variable {previous : Option SettingValue} {step : String}

/-- The question comes to an answer. -/
def ComesTo (python : PyBuiltins) (disks : List Disk) (question : Question)
    (previous : Option SettingValue)
    (p : SetupProgram PyValue) : Prop :=
  Ends kindly () p fun part outcome _ => ∃ answer, outcome = .returned answer ∧
    Answered python disks question previous part answer

theorem comesTo_switch {label onLabel offLabel description : String}
    (hbool : ∀ setting, previous = some setting → ∃ truth, setting.value = .bool truth) :
    ComesTo python disks (.switch label onLabel offLabel description) previous
      (.request (.switch step (.switch label onLabel offLabel description)
        (inheritedSwitch previous)) .ret) := by
  refine ends_request fun answer _ _ => ends_ret ⟨answer, rfl, trivial,
    fun hunchanged => ?_, by simp⟩
  rw [List.forall_mem_singleton] at hunchanged
  cases previous with
  | none => exact absurd hunchanged id
  | some setting =>
    obtain ⟨truth, htruth⟩ := hbool setting rfl
    obtain ⟨value, source⟩ := setting
    obtain rfl : value = .bool truth := htruth
    exact ⟨_, rfl, chosenValue_eq (.inl hunchanged)⟩

/-- The text that is shown is the inherited one. -/
theorem exists_inheritedText
    (htext : ∀ setting, previous = some setting → ∃ text, ReadsText setting.value text) :
    ∃ inherited, inheritedText python previous = .ok inherited ∧
      ∀ text, inherited.map (·.value) = some text →
        ∃ setting, previous = some setting ∧ setting.value.text = some text := by
  cases previous with
  | none => exact ⟨none, rfl, by simp⟩
  | some setting =>
    obtain ⟨value, source⟩ := setting
    obtain ⟨text, ⟨hnone, -⟩ | htext⟩ := htext _ rfl
    · obtain rfl : value = .none := hnone
      exact ⟨none, rfl, by simp⟩
    · have hne : value ≠ .none := by
        rintro rfl
        cases htext
      rw [inheritedText]
      · split
        · exact ⟨none, rfl, by simp⟩
        · simp only at htext ⊢
          rw [text_ok htext]
          refine ⟨_, rfl, ?_⟩
          rintro _ ⟨⟩
          exact ⟨_, rfl, htext⟩
      · rintro _ ⟨⟩
        exact hne rfl

/-- A text that is entered, where nothing or a text is inherited. -/
theorem comesTo_enterText {question shown : Question}
    (hquestion : ∀ value text, value.text = some text → Shows python question value)
    (htext : ∀ setting, previous = some setting → ∃ text, ReadsText setting.value text) :
    ComesTo python disks question previous (SetupSession.enterText python step shown previous) := by
  obtain ⟨inherited, hinherited, htexts⟩ := @exists_inheritedText python _ htext
  rw [SetupSession.enterText, hinherited]
  refine ends_request fun answer _ hkind => ends_ret ⟨answer, rfl, ?_, ?_, by simp⟩
  · obtain ⟨text, rfl⟩ := hkind
    refine shows_chosenValue (hquestion _ text rfl) fun setting _ heq => ?_
    exact hquestion _ text (text_of_eq heq rfl)
  · intro hunchanged
    rw [List.forall_mem_singleton] at hunchanged
    cases inherited with
    | none => exact absurd hunchanged id
    | some inherited =>
      obtain rfl : answer = .str inherited.value := hunchanged
      obtain ⟨setting, rfl, hshown⟩ := htexts _ rfl
      exact ⟨setting, rfl, chosenValue_eq (.inr (eq_of_text hshown rfl))⟩

/-- The texts of the items of a selection. -/
def textsOfItems (items : List PyValue) : List String := items.map fun item => item.text.getD ""

theorem asTexts_eq {value : PyValue} {items : List PyValue} (hitems : value.items = some items)
    (htexts : ∀ item ∈ items, ∃ text, item.text = some text) :
    asTexts python value = .ok (textsOfItems items) := by
  have hlist : python.list value = .ok items := list_ok hitems
  have hbind : asTexts python value = items.mapM python.text := by
    rw [asTexts, hlist]
    rfl
  rw [hbind]
  clear hitems hlist hbind
  induction items with
  | nil => rfl
  | cons item items ih =>
    rw [List.forall_mem_cons] at htexts
    obtain ⟨text, htext⟩ := htexts.1
    have hcons : textsOfItems (item :: items) = text :: textsOfItems items := by
      simp [textsOfItems, htext]
    rw [List.mapM_cons, text_ok htext, ih htexts.2, hcons]
    rfl

theorem sameTexts_of_unchanged {values items : List PyValue}
    (htexts : ∀ value ∈ values, ∃ text, value.text = some text)
    (hvalues : ∀ value ∈ values, ∃ value' ∈ items, value'.eq value)
    (hitems : ∀ value' ∈ items, ∃ value ∈ values, value'.eq value) :
    sameTexts (textsOfItems values) (textsOfItems items) := by
  simp only [sameTexts, Bool.and_eq_true, List.all_eq_true, List.contains_iff_mem, textsOfItems]
  constructor
  · intro text hmem
    obtain ⟨value, hvalue, rfl⟩ := List.mem_map.mp hmem
    obtain ⟨value', hvalue', heq⟩ := hvalues value hvalue
    obtain ⟨text, htext⟩ := htexts value hvalue
    exact List.mem_map.mpr ⟨value', hvalue', by rw [text_of_eq heq htext, htext]⟩
  · intro text hmem
    obtain ⟨value', hvalue', rfl⟩ := List.mem_map.mp hmem
    obtain ⟨value, hvalue, heq⟩ := hitems value' hvalue'
    obtain ⟨text, htext⟩ := htexts value hvalue
    exact List.mem_map.mpr ⟨value, hvalue, by rw [text_of_eq heq htext, htext]⟩

theorem shows_selection {label description : String} {choices : List Choice} {value : PyValue}
    {items : List PyValue} (hitems : value.items = some items)
    (htexts : ∀ item ∈ items, ∃ text, item.text = some text) :
    Shows python (.chooseMany label choices description) value :=
  ⟨items, list_ok hitems, fun item hitem => (htexts item hitem).imp fun _ => text_ok⟩

/-- A selection, where nothing or a list of texts is inherited. -/
theorem comesTo_chooseMany {label description : String} {choices : List Choice}
    (hchoices : ∀ choice ∈ choices, ∃ text, choice.value.text = some text)
    (hprevious : ∀ setting, previous = some setting → ∃ items, setting.value.items = some items ∧
      ∀ item ∈ items, ∃ text, item.text = some text) :
    ComesTo python disks (.chooseMany label choices description) previous
      (SetupSession.chooseMany python step (.chooseMany label choices description) previous) := by
  have hvalues : ∀ values : List PyValue,
      values ⊆ (Question.chooseMany label choices description).choiceValues →
        ∀ value ∈ values, ∃ text, value.text = some text := by
    intro values hsub value hvalue
    obtain ⟨choice, hchoice, rfl⟩ := List.mem_map.mp (hsub hvalue)
    exact hchoices choice hchoice
  cases previous with
  | none =>
    refine ends_request fun answer _ hkind => ends_ret ⟨answer, rfl, ?_, fun hunchanged =>
      absurd (hunchanged _ List.mem_cons_self) id, by simp⟩
    obtain ⟨values, rfl, hsub⟩ := hkind
    exact shows_selection rfl (hvalues values hsub)
  | some setting =>
    obtain ⟨items, hitems, htexts⟩ := hprevious setting rfl
    have hshown :
        inheritedList python (some setting) = .ok (some ⟨items, setting.source.value⟩) := by
      obtain ⟨value, source⟩ := setting
      rw [inheritedList, list_ok hitems]
      · rfl
      · rintro _ ⟨⟩
        cases hitems
    rw [SetupSession.chooseMany, hshown]
    refine ends_request fun answer _ hkind => ?_
    obtain ⟨values, rfl, hsub⟩ := hkind
    have hanswer : asTexts python (.list values) = .ok (textsOfItems values) :=
      asTexts_eq rfl (hvalues values hsub)
    simp only [hanswer, asTexts_eq hitems htexts]
    refine ends_ret ⟨_, rfl, ?_, ?_, by simp⟩
    · split
      · rw [chosenValue_eq (.inl rfl)]
        exact shows_selection hitems htexts
      · exact shows_chosenValue (shows_selection rfl (hvalues values hsub))
          fun _ heq _ => by cases heq; exact shows_selection hitems htexts
    · intro hunchanged
      rw [List.forall_mem_singleton] at hunchanged
      obtain ⟨values', heq, hin, hout⟩ := hunchanged
      cases heq
      rw [if_pos (sameTexts_of_unchanged (hvalues values hsub) hin hout)]
      exact ⟨setting, rfl, chosenValue_eq (.inl rfl)⟩

theorem comesTo_secret {label prompt : String} {confirm : Bool} :
    ComesTo python disks (.enterSecret label prompt confirm) previous
      (SetupSession.secret step (.enterSecret label prompt confirm) previous) := by
  have entered : ComesTo python disks (.enterSecret label prompt confirm) previous
      (.request (.enterSecret step (.enterSecret label prompt confirm)) .ret) :=
    ends_request fun answer _ _ => ends_ret ⟨answer, rfl, trivial, fun hunchanged =>
      absurd (hunchanged _ List.mem_cons_self) id, by simp⟩
  cases previous with
  | none => exact entered
  | some setting =>
    rw [SetupSession.secret]
    split
    · refine ends_request fun kept _ _ => ?_
      split
      · exact ends_ret ⟨_, rfl, trivial,
          fun _ => ⟨setting, rfl, chosenValue_eq (.inl rfl)⟩, by simp⟩
      · exact ends_request fun answer _ _ => ends_ret ⟨answer, rfl, trivial, fun hunchanged =>
          absurd (hunchanged _ (List.mem_cons_of_mem _ List.mem_cons_self)) id, by simp⟩
    · exact entered

/-- The choices have texts, or they are sizes that can be shown. -/
theorem comesTo_choice {label description typedPrompt path : String} {choices : ChoiceSource}
    {session : SetupSession}
    (hshows : ∀ choice ∈ choices.available disks previous,
      ∃ text, python.text choice.value = .ok text)
    (hprevious : ∀ setting, previous = some setting →
      ∀ choice ∈ choices.available disks previous, setting.value.eq choice.value →
        ∃ text, python.text setting.value = .ok text)
    (htyped : choices.available disks previous = [] →
      ∀ setting, previous = some setting → ∃ text, ReadsText setting.value text) :
    Ends kindly () (session.chooseOne python disks step path label choices description typedPrompt
      previous) fun part outcome _ => ∃ answer offered,
        outcome = .returned (answer, session.offering path offered) ∧
        Answered python disks (.chooseOne label choices description typedPrompt) previous part
          answer := by
  rw [SetupSession.chooseOne]
  split
  · next hempty =>
    have htext : ComesTo python disks (.chooseOne label choices description typedPrompt) previous
        (SetupSession.enterText python step (.enterText label typedPrompt) previous) :=
      comesTo_enterText (fun value text htext => ⟨text, text_ok htext⟩)
        (htyped (List.isEmpty_iff.mp hempty))
    refine htext.bind (fun _ _ _ h => ?_) fun part answer _ h => ?_
    · obtain ⟨_, hreturned, -⟩ := h
      cases hreturned
    · obtain ⟨_, hreturned, hanswered⟩ := h
      obtain rfl := Outcome.returned.inj hreturned
      exact ends_ret ⟨answer, [], rfl, by rwa [List.append_nil]⟩
  · next hne =>
    refine ends_request fun answer _ hkind => ends_ret ⟨answer, choices.available disks previous,
      by rw [SetupSession.offering, if_neg hne], ?_, ?_, fun hmem => ?_⟩
    · obtain ⟨choice, hchoice, rfl⟩ := List.mem_map.mp hkind
      exact shows_chosenValue (hshows choice hchoice) fun setting hsetting heq =>
        hprevious setting hsetting choice hchoice heq
    · intro hunchanged
      rw [List.forall_mem_singleton] at hunchanged
      cases previous with
      | none => exact absurd hunchanged id
      | some setting =>
        obtain ⟨value, source⟩ := setting
        cases value with
        | none => exact absurd hunchanged id
        | _ => exact ⟨_, rfl, chosenValue_eq (.inr hunchanged)⟩
    · cases List.mem_singleton.mp hmem
      exact ⟨rfl, rfl, rfl, label, choices, description, typedPrompt, rfl, rfl⟩

/-- Choices that have texts: a value that equals one of them has its text. -/
theorem comesTo_textChoice {label description typedPrompt path : String} {choices : ChoiceSource}
    {session : SetupSession}
    (htexts : ∀ choice ∈ choices.available disks previous, ∃ text, choice.value.text = some text)
    (htyped : choices.available disks previous = [] →
      ∀ setting, previous = some setting → ∃ text, ReadsText setting.value text) :
    Ends kindly () (session.chooseOne python disks step path label choices description typedPrompt
      previous) fun part outcome _ => ∃ answer offered,
        outcome = .returned (answer, session.offering path offered) ∧
        Answered python disks (.chooseOne label choices description typedPrompt) previous part
          answer := by
  refine comesTo_choice (fun choice hchoice => ?_) (fun setting _ choice hchoice heq => ?_) htyped
  · exact (htexts choice hchoice).imp fun _ => text_ok
  · obtain ⟨text, htext⟩ := htexts choice hchoice
    exact ⟨text, text_ok (text_of_eq heq htext)⟩

theorem mem_swapSizeChoices {value : PyValue} {choice : Choice}
    (h : choice ∈ swapSizeChoices value disks) :
    (∃ size, choice.value = .int size ∧ (size ∈ swapPresetsMb ∨ value = .int size)) ∨
      value = .bool true := by
  simp only [swapSizeChoices, List.mem_map, List.mem_mergeSort, List.mem_append] at h
  obtain ⟨_, ⟨size, hsize, rfl⟩ | hinherited, rfl⟩ := h
  · exact .inl ⟨size, rfl, .inl hsize⟩
  · split at hinherited
    · next size =>
      split at hinherited
      · obtain rfl := List.mem_singleton.mp hinherited
        exact .inl ⟨size, rfl, .inr rfl⟩
      · cases hinherited
    · exact .inr rfl
    · cases hinherited

theorem swapSizeChoices_ne_nil {value : PyValue} : swapSizeChoices value disks ≠ [] := by
  intro h
  have hlength := congrArg List.length h
  simp only [swapSizeChoices, List.length_map, List.length_mergeSort, List.length_append] at hlength
  exact absurd (Nat.le.intro hlength) (by decide)

/-- The sizes that are offered can be shown: `str` refuses those of thousands of digits. -/
def ShowsSizes (python : PyBuiltins) (inherited : List (String × SettingValue)) : Prop :=
  ∀ size, (size ∈ swapPresetsMb ∨ ∃ previous, inherited.lookup swapSizePath = some previous ∧
    previous.value = .int size) → ∃ text, python.text (.int size) = .ok text

theorem exists_text_of_size {setting : StepSetting} {choice : Choice}
    (hsizes : ShowsSizes python inherited) (hpath : setting.path = swapSizePath)
    (hint : ∀ previous, inherited.lookup setting.path = some previous →
      ∃ size, previous.value = .int size)
    (hchoice : choice ∈ (ChoiceSource.computed swapSizeChoices).available disks
      (inherited.lookup setting.path)) : ∃ text, python.text choice.value = .ok text := by
  rw [ChoiceSource.available] at hchoice
  rcases mem_swapSizeChoices hchoice with ⟨size, hsize, hpreset | heq⟩ | heq
  · exact hsize ▸ hsizes size (.inl hpreset)
  · cases hprevious : inherited.lookup setting.path with
    | none =>
      rw [hprevious] at heq
      cases heq
    | some previous =>
      rw [hprevious] at heq
      exact hsize ▸ hsizes size (.inr ⟨previous, hpath ▸ hprevious, heq⟩)
  · cases hprevious : inherited.lookup setting.path with
    | none =>
      rw [hprevious] at heq
      cases heq
    | some previous =>
      obtain ⟨size, hsize⟩ := hint previous hprevious
      rw [hprevious, Option.map_some, Option.getD_some, hsize] at heq
      cases heq

variable (disks) in
/-- One question, in any session: it comes to an answer. -/
theorem answer_ends (haccepted : Accepted inherited) (hsizes : ShowsSizes python inherited)
    {setting : StepSetting} (hsuits : Suits setting) {question : Question}
    (hquestion : setting.question = some question)
    (hnull : setting.path = desktopsPath → ∀ previous,
      inherited.lookup setting.path = some previous → previous.value ≠ .none)
    (session : SetupSession) (step : String) :
    Ends kindly () (session.answer python inherited disks step setting) fun part outcome _ =>
      ∃ answer offered, outcome = .returned (answer, session.offering setting.path offered) ∧
        Answered python disks question (inherited.lookup setting.path) part answer := by
  have kept : ∀ {p : SetupProgram PyValue},
      ComesTo python disks question (inherited.lookup setting.path) p →
      Ends kindly () (do return (← p, session)) fun part outcome _ => ∃ answer offered,
        outcome = .returned (answer, session.offering setting.path offered) ∧
          Answered python disks question (inherited.lookup setting.path) part answer := by
    intro p h
    refine h.bind (fun _ _ _ h => ?_) fun part answer _ h => ?_
    · obtain ⟨_, hreturned, -⟩ := h
      cases hreturned
    · obtain ⟨_, hreturned, hanswered⟩ := h
      obtain rfl := Outcome.returned.inj hreturned
      exact ends_ret ⟨answer, [], rfl, by rwa [List.append_nil]⟩
  rw [SetupSession.answer]
  cases hsuits with
  | unasked hnone => simp [hnone] at hquestion
  | switch heq htype =>
    obtain rfl := Option.some.inj (heq.symm.trans hquestion)
    simp only [heq]
    refine kept (p := .request _ .ret) (comesTo_switch fun previous hprevious => ?_)
    obtain ⟨type, hbool, converted, hreads⟩ := haccepted.reads htype hprevious
    exact eq_bool_of_reads hbool hreads
  | text heq htype =>
    obtain rfl := Option.some.inj (heq.symm.trans hquestion)
    simp only [heq]
    refine kept (comesTo_enterText (fun value text htext => ⟨text, text_ok htext⟩)
      fun previous hprevious => ?_)
    obtain ⟨type, hstr, converted, hreads⟩ := haccepted.reads htype hprevious
    exact readsText_of_reads hstr hreads
  | secret heq =>
    obtain rfl := Option.some.inj (heq.symm.trans hquestion)
    simp only [heq]
    exact kept comesTo_secret
  | many heq htype htexts hpath =>
    obtain rfl := Option.some.inj (heq.symm.trans hquestion)
    simp only [heq]
    refine kept (comesTo_chooseMany (fun choice hchoice => ?_) fun previous hprevious => ?_)
    · exact Option.isSome_iff_exists.mp (List.all_eq_true.mp htexts choice hchoice)
    · obtain ⟨type, hselection, converted, hreads⟩ := haccepted.reads htype hprevious
      obtain ⟨items, hitems, htexts'⟩ :=
        (items_of_reads hselection hreads).resolve_left (hnull hpath previous hprevious)
      exact ⟨items, hitems, fun item hitem => (htexts' item hitem).imp fun _ h => h.1⟩
  | offered heq htype hne htexts hpath =>
    obtain rfl := Option.some.inj (heq.symm.trans hquestion)
    simp only [heq]
    refine comesTo_textChoice (fun choice hchoice => ?_) fun hempty => ?_
    · exact Option.isSome_iff_exists.mp (List.all_eq_true.mp htexts choice hchoice)
    · rw [List.isEmpty_eq_false_iff] at hne
      exact absurd hempty hne
  | disk heq htype hpath =>
    obtain rfl := Option.some.inj (heq.symm.trans hquestion)
    simp only [heq]
    refine comesTo_textChoice (fun choice hchoice => ?_) fun _ previous hprevious => ?_
    · obtain ⟨disk, -, rfl⟩ := List.mem_map.mp hchoice
      exact ⟨disk.path, rfl⟩
    · obtain ⟨type, hstr, converted, hreads⟩ := haccepted.reads htype hprevious
      exact readsText_of_reads hstr hreads
  | size heq htype hpath =>
    obtain rfl := Option.some.inj (heq.symm.trans hquestion)
    simp only [heq]
    have hint : ∀ previous, inherited.lookup setting.path = some previous →
        ∃ size, previous.value = .int size := by
      intro previous hprevious
      obtain ⟨type, hint, converted, hreads⟩ := haccepted.reads htype hprevious
      exact eq_int_of_reads hint hreads
    refine comesTo_choice (fun choice => exists_text_of_size hsizes hpath hint)
      (fun previous hprevious _ _ _ => ?_)
      fun hempty => (@swapSizeChoices_ne_nil disks _ hempty).elim
    · obtain ⟨size, hsize⟩ := hint previous hprevious
      rw [hsize]
      exact hsizes size (.inr ⟨previous, hpath ▸ hprevious, hsize⟩)

/-! ## The walk and the last screen -/

/-- The list of desktops is there, and null. -/
def NullDesktops (inherited : List (String × SettingValue)) : Prop :=
  ∃ previous, inherited.lookup desktopsPath = some previous ∧ previous.value = .none

/-- A setting that was asked, and the answer to which its screens came. -/
structure CameTo (python : PyBuiltins) (inherited : List (String × SettingValue))
    (disks : List Disk) (session : SetupSession) (entry : String × StepSetting)
    (part : List (Ask × PyValue)) (question : Question) (answer : PyValue) : Prop where
  hasQuestion : entry.2.question = some question
  hasAnswer : session.answers.lookup entry.2.path = some answer
  asked : AskedIn entry part
  answered : Answered python disks question (inherited.lookup entry.2.path) part answer

/-- A session whose questions so far all came to answers. -/
structure Answering (python : PyBuiltins) (inherited : List (String × SettingValue))
    (disks : List Disk) (done : List (String × StepSetting)) (exchanges : List (Ask × PyValue))
    (session : SetupSession) : Prop where
  visited : Visited inherited done exchanges session
  parts : ∃ parts, List.Forall₂ (fun entry part => ∃ question answer,
      CameTo python inherited disks session entry part question answer) session.asked parts ∧
    exchanges = parts.flatten

theorem answering_nil : Answering python inherited disks [] [] {} :=
  ⟨visited_nil, [], .nil, rfl⟩

theorem exists_of_forall₂ {α β : Type} {R : α → β → Prop} {xs : List α} {ys : List β}
    (h : List.Forall₂ R xs ys) {x : α} (hx : x ∈ xs) : ∃ y ∈ ys, R x y := by
  induction h with
  | nil => cases hx
  | @cons x' y xs ys hfirst _ ih =>
    rcases List.mem_cons.mp hx with rfl | hx
    · exact ⟨y, List.mem_cons_self, hfirst⟩
    · obtain ⟨y', hy', hR⟩ := ih hx
      exact ⟨y', List.mem_cons_of_mem _ hy', hR⟩

theorem Answering.cameTo {done : List (String × StepSetting)} {exchanges : List (Ask × PyValue)}
    {session : SetupSession} (h : Answering python inherited disks done exchanges session)
    {entry : String × StepSetting} (hentry : entry ∈ session.asked) :
    ∃ part question answer, part ⊆ exchanges ∧
      CameTo python inherited disks session entry part question answer := by
  obtain ⟨parts, hparts, rfl⟩ := h.parts
  obtain ⟨part, hpart, question, answer, hcame⟩ := exists_of_forall₂ hparts hentry
  exact ⟨part, question, answer, fun _ hx => List.mem_flatten_of_mem hpart hx, hcame⟩

theorem path_not_mem {done left : List (String × StepSetting)} {entry : String × StepSetting}
    (hsplit : setupSettings = done ++ entry :: left) :
    entry.2.path ∉ done.map fun entry => entry.2.path := by
  have hnodup := nodup_setupSettings
  rw [hsplit, List.map_append, List.map_cons] at hnodup
  intro hmem
  exact (List.nodup_append.mp hnodup).2.2 _ hmem _ List.mem_cons_self rfl

variable (disks) in
theorem ask_ends (haccepted : Accepted inherited) (hsizes : ShowsSizes python inherited)
    {entry : String × StepSetting} (hentry : entry ∈ setupSettings) {question : Question}
    (hquestion : entry.2.question = some question)
    (hnull : entry.2.path = desktopsPath → ¬NullDesktops inherited) (session : SetupSession) :
    Ends kindly () (session.ask python inherited disks entry.1 entry.2)
      fun part outcome _ => ∃ answer session', outcome = .returned session' ∧
        session'.answers = assign entry.2.path answer session.answers ∧
        session'.asked = session.asked ++ [entry] ∧
        Answered python disks question (inherited.lookup entry.2.path) part answer := by
  refine (answer_ends disks haccepted hsizes (suits_setupSettings entry hentry) hquestion
    (fun hpath previous hprevious hnone =>
      hnull hpath ⟨previous, hpath ▸ hprevious, hnone⟩) session entry.1).bind
    (fun _ _ _ h => ?_) fun part value _ h => ?_
  · obtain ⟨_, _, hreturned, -⟩ := h
    cases hreturned
  · obtain ⟨answer, offered, hreturned, hanswered⟩ := h
    obtain rfl := Outcome.returned.inj hreturned
    exact ends_ret ⟨answer, _, rfl, by simp, by simp, by rwa [List.append_nil]⟩

theorem Answering.visit (haccepted : Accepted inherited) (hsizes : ShowsSizes python inherited)
    {done left : List (String × StepSetting)} {entry : String × StepSetting}
    {session : SetupSession} {before : List (Ask × PyValue)}
    (hsplit : setupSettings = done ++ entry :: left)
    (h : Answering python inherited disks done before session)
    (hnull : entry.2.path = desktopsPath → ¬NullDesktops inherited) :
    Ends kindly () (session.visit python inherited disks entry) fun exchanges outcome _ =>
      ∃ session', outcome = .returned session' ∧
        Answering python inherited disks (done ++ [entry]) (before ++ exchanges) session' := by
  intro exchanges outcome s' hrun hreplay hended
  by_cases hentry : isAsked (session.value inherited) entry
  · have hask := hrun
    rw [SetupSession.visit, if_pos (by simpa [isAsked] using hentry)] at hask
    obtain ⟨question, hquestion⟩ : ∃ question, entry.2.question = some question := by
      rw [isAsked, Bool.and_eq_true] at hentry
      exact Option.isSome_iff_exists.mp hentry.1
    have hends := ask_ends disks haccepted hsizes (by simp [hsplit]) hquestion hnull session
    obtain ⟨answer, session', rfl, hanswers, hasked, hanswered⟩ :=
      hends exchanges outcome s' hask hreplay hended
    obtain ⟨parts, hparts, rfl⟩ := h.parts
    refine ⟨session', rfl, h.visited.visit hsplit hrun, parts ++ [exchanges], ?_, by simp⟩
    rw [hasked]
    refine List.rel_append ?_ (.cons ⟨question, answer, hquestion,
      by rw [hanswers, lookup_assign_self], (ask_returned hask).1, hanswered⟩ .nil)
    -- the answers to earlier questions stay
    refine List.forall₂_iff_zip.mpr ⟨hparts.length_eq, fun {entry' part} hmem => ?_⟩
    obtain ⟨question', answer', hcame⟩ := List.forall₂_zip hparts hmem
    refine ⟨question', answer', hcame.hasQuestion, ?_, hcame.asked, hcame.answered⟩
    rw [hanswers, lookup_assign_of_ne, hcame.hasAnswer]
    intro heq
    exact path_not_mem hsplit (heq ▸ h.visited.asked_subset
      (List.mem_map_of_mem (List.of_mem_zip hmem).1))
  · have hskip := hrun
    rw [SetupSession.visit, if_neg (by simpa [isAsked] using hentry)] at hskip
    obtain ⟨rfl, rfl | rfl⟩ := runs_ret_iff.mp hskip
    · exact ⟨session, rfl, h.visited.visit hsplit hrun, by simpa using h.parts⟩
    · exact absurd rfl hended

theorem Answering.nodup {exchanges : List (Ask × PyValue)} {session : SetupSession}
    (h : Answering python inherited disks setupSettings exchanges session) :
    (session.answers.map Prod.fst).Nodup := by
  rw [h.visited.answered]
  exact ((h.visited.sublist (List.append_nil _).symm).1.map _).nodup nodup_setupSettings

theorem Answering.lookup_final {exchanges : List (Ask × PyValue)} {session : SetupSession}
    (h : Answering python inherited disks setupSettings exchanges session) {path : String}
    {answer : PyValue} (hlookup : session.answers.lookup path = some answer) :
    (applyTuiChoices inherited session.answers).lookup path =
      some (chosenValue (inherited.lookup path) answer) := by
  rw [applyTuiChoices_eq, lookup_foldl_applyChoice h.nodup _ rfl, hlookup]

theorem Answering.exists_summary {exchanges : List (Ask × PyValue)} {session : SetupSession}
    (h : Answering python inherited disks setupSettings exchanges session) :
    ∃ rows, session.summary python inherited = .ok rows := by
  refine exists_mapM_ok ?_
  rintro ⟨step, setting, question⟩ hmem
  obtain ⟨⟨step', setting'⟩, hentry, heq⟩ := List.mem_filterMap.mp hmem
  obtain ⟨part, question', answer, -, hcame⟩ := h.cameTo hentry
  obtain ⟨_, hasked, heq⟩ := Option.map_eq_some_iff.mp heq
  obtain rfl := Option.some.inj (hcame.hasQuestion.symm.trans hasked)
  rw [Prod.mk.injEq, Prod.mk.injEq] at heq
  obtain ⟨rfl, rfl, rfl⟩ := heq
  have hshows :
      Shows python question' (chosenValue (inherited.lookup setting'.path) answer).value :=
    hcame.answered.shows
  obtain ⟨text, htext⟩ := exists_shownValue hshows
    ((session.offeredChoices.lookup setting'.path).getD [])
  simp only [summaryRow, h.lookup_final hcame.hasAnswer, htext]
  exact ⟨_, rfl⟩

theorem runSetup_ends (haccepted : Accepted inherited) (hsizes : ShowsSizes python inherited)
    (hnull : ¬NullDesktops inherited) :
    Ends kindly () (runSetup python inherited disks) fun exchanges outcome _ =>
      outcome = .raised .cancelled ∨ ∃ session before rows confirmed,
        outcome = .returned session.answers ∧
        Answering python inherited disks setupSettings before session ∧
        exchanges = before ++ [(.review rows, confirmed)] := by
  refine (Ends.foldlM (I := fun done before session _ =>
      Answering python inherited disks done before session)
    (fun done entry left before session _ hsplit h => ?_) answering_nil).bind
    (fun _ _ _ h => ?_) fun before session _ h => ?_
  · exact h.visit haccepted hsizes hsplit fun _ => hnull
  · obtain ⟨_, hreturned, -⟩ := h
    cases hreturned
  · obtain ⟨_, hreturned, hanswering⟩ := h
    obtain rfl := Outcome.returned.inj hreturned
    obtain ⟨rows, hrows⟩ := hanswering.exists_summary
    rw [hrows]
    refine ends_request fun confirmed _ _ => ?_
    simp only [Program.bind]
    split
    · exact ends_ret (.inr ⟨session, before, rows, confirmed, rfl, hanswering, rfl⟩)
    · exact ends_raise (.inl rfl)

/-- The desktops are always asked. -/
theorem exists_desktops : ∃ done entry left, setupSettings = done ++ entry :: left ∧
    entry.2.path = desktopsPath ∧ entry.2.askedWhen = always ∧
    ∃ label choices description, entry.2.question = some (.chooseMany label choices description) ∧
      choices.all fun choice => choice.value.text.isSome :=
  ⟨setupSettings.take 15, _, setupSettings.drop 16, rfl, rfl, rfl, _, _, _, rfl, rfl⟩

/-- A null list is not shown, but then the answer is compared with it. -/
theorem chooseMany_raises {label description : String} {choices : List Choice}
    {setting : SettingValue} (hnone : setting.value = .none)
    (hchoices : choices.all fun choice => choice.value.text.isSome) :
    Ends kindly () (SetupSession.chooseMany python step (.chooseMany label choices description)
      (some setting)) fun _ outcome _ => outcome = .raised .typeError := by
  obtain ⟨value, source⟩ := setting
  obtain rfl : value = .none := hnone
  refine ends_request fun answer _ hkind => ?_
  obtain ⟨values, rfl, hsub⟩ := hkind
  have hanswer : asTexts python (.list values) = .ok (textsOfItems values) :=
      asTexts_eq rfl fun value hvalue => by
    obtain ⟨choice, hchoice, rfl⟩ := List.mem_map.mp (hsub hvalue)
    exact Option.isSome_iff_exists.mp (List.all_eq_true.mp hchoices choice hchoice)
  rw [hanswer]
  exact ends_raise rfl

theorem runSetup_raises (haccepted : Accepted inherited) (hsizes : ShowsSizes python inherited)
    (hnull : NullDesktops inherited) :
    Ends kindly () (runSetup python inherited disks) fun _ outcome _ =>
      outcome = .raised .typeError := by
  obtain ⟨done, entry, left, hsplit, hpath, halways, label, choices, description, hquestion,
    hchoices⟩ := exists_desktops
  obtain ⟨previous, hprevious, hnone⟩ := hnull
  have hvisit : ∀ session : SetupSession, Ends kindly ()
      (session.visit python inherited disks entry) fun _ outcome _ =>
        outcome = .raised .typeError := by
    intro session
    rw [SetupSession.visit, if_pos (by simp [hquestion, halways, always]), SetupSession.ask,
      SetupSession.answer, hquestion, hpath, hprevious]
    exact (chooseMany_raises hnone hchoices).raised_bind.raised_bind
  have hwalk : Ends kindly () (setupSettings.foldlM (SetupSession.visit python inherited disks) {})
      fun _ outcome _ => outcome = .raised .typeError := by
    rw [hsplit, List.foldlM_append]
    refine (Ends.foldlM (I := fun done before session _ =>
        Answering python inherited disks done before session)
      (fun done' entry' left' before session _ hsplit' h => ?_) answering_nil).bind
      (fun _ _ _ h => ?_) fun before session _ _ => ?_
    · have hsplit'' : setupSettings = done' ++ entry' :: (left' ++ entry :: left) := by
        simp [hsplit, hsplit']
      refine h.visit haccepted hsizes hsplit'' fun hpath' => absurd ?_ (path_not_mem hsplit)
      rw [hpath, ← hpath']
      exact List.mem_map_of_mem (by simp [hsplit'])
    · obtain ⟨_, hreturned, -⟩ := h
      cases hreturned
    · rw [List.foldlM_cons]
      exact (hvisit session).raised_bind
  exact hwalk.raised_bind

/-! ## Two modes -/

theorem plainValues_assign {path : String} {setting : SettingValue}
    {settingValues : List (String × SettingValue)} :
    plainValues (assign path setting settingValues) =
      assign path setting.value (plainValues settingValues) := by
  induction settingValues with
  | nil => rfl
  | cons entry settingValues ih =>
    rw [assign]
    split
    · next hpath => simp [plainValues, assign, hpath]
    · next hpath =>
      simp only [plainValues, List.map_cons, assign, if_neg hpath]
      exact congrArg _ ih

theorem assign_of_lookup {name : String} {value : PyValue} {entries : List (String × PyValue)}
    (h : entries.lookup name = some value) : assign name value entries = entries := by
  induction entries with
  | nil => cases h
  | cons entry entries ih =>
    obtain ⟨name', value'⟩ := entry
    rw [List.lookup_cons] at h
    rw [assign]
    by_cases hname : name = name'
    · subst hname
      simp only [beq_self_eq_true, Option.some.injEq] at h
      rw [if_pos rfl, h]
    · rw [beq_false_of_ne hname] at h
      rw [if_neg (Ne.symm hname), ih h]

/-- Choices that come to the inherited values change none. -/
theorem plainValues_applyTuiChoices {choices : List (String × PyValue)}
    (h : ∀ choice ∈ choices, ∃ setting, inherited.lookup choice.1 = some setting ∧
      (chosenValue (some setting) choice.2).value = setting.value) :
    plainValues (applyTuiChoices inherited choices) = plainValues inherited := by
  rw [applyTuiChoices_eq]
  suffices hfold : ∀ chosen, plainValues chosen = plainValues inherited →
      plainValues (choices.foldl (applyChoice inherited) chosen) = plainValues inherited from
    hfold _ rfl
  induction choices with
  | nil => exact fun _ hchosen => hchosen
  | cons choice choices ih =>
    intro chosen hchosen
    rw [List.forall_mem_cons] at h
    obtain ⟨⟨setting, hlookup, hvalue⟩, hrest⟩ := h
    refine ih hrest _ ?_
    rw [applyChoice, hlookup]
    simp only [chosenValue] at hvalue ⊢
    split
    · exact hchosen
    · next hne =>
      rw [if_neg hne] at hvalue
      simp only at hvalue
      rw [plainValues_assign, hchosen, assign_of_lookup]
      rw [lookup_plainValues, hlookup, Option.map_some, ← hvalue]

/-- The screens of a setting, if there are any, came back as they were shown. -/
def Confirmed (entry : String × StepSetting) (exchanges : List (Ask × PyValue)) : Prop :=
  ∀ x ∈ exchanges, ∀ question, entry.2.question = some question →
    x.1.subject = some (entry.1, question.label) → x.1.Unchanged x.2

theorem AskedIn.exists_question {entry : String × StepSetting} {part : List (Ask × PyValue)}
    (h : AskedIn entry part) : ∃ question, entry.2.question = some question ∧
      ∀ x ∈ part, x.1.subject = some (entry.1, question.label) := by
  cases h with
  | once hquestion hsubject => exact ⟨_, hquestion, by simpa using hsubject⟩
  | replaced hquestion => exact ⟨_, hquestion, by simp [Ask.subject]⟩

/-- The request is the menu of the setting. -/
def IsMenu (inherited : List (String × SettingValue)) (disks : List Disk)
    (entry : String × StepSetting) (ask : Ask) : Prop :=
  ∃ label source description typedPrompt,
    entry.2.question = some (.chooseOne label source description typedPrompt) ∧
    ask = .chooseOne entry.1 (.chooseOne label source description typedPrompt)
      (source.available disks (inherited.lookup entry.2.path))
      (inheritedValue? (inherited.lookup entry.2.path))

/-- How a session with answers of the right kind ends, and what it leaves of what was inherited. -/
structure LeavesConfirmed (inherited : List (String × SettingValue)) (disks : List Disk)
    (exchanges : List (Ask × PyValue))
    (outcome : Outcome SetupError (List (String × PyValue))) : Prop where
  fails : NullDesktops inherited → outcome = .raised .typeError
  ends : ¬NullDesktops inherited →
    outcome = .raised .cancelled ∨ ∃ answers, outcome = .returned answers
  keeps : ∀ answers, outcome = .returned answers → ∀ entry ∈ setupSettings,
    Confirmed entry exchanges →
      ((applyTuiChoices inherited answers).lookup entry.2.path).map SettingValue.value =
        (inherited.lookup entry.2.path).map SettingValue.value
  same : ∀ answers, outcome = .returned answers →
    (∀ entry ∈ setupSettings, Confirmed entry exchanges) →
      plainValues (applyTuiChoices inherited answers) = plainValues inherited
  chosen : ∀ answers, outcome = .returned answers → ∀ {step question choices shown answer},
    (Ask.chooseOne step question choices shown, answer) ∈ exchanges →
      ∃ entry ∈ setupSettings,
        IsMenu inherited disks entry (.chooseOne step question choices shown) ∧
        (applyTuiChoices inherited answers).lookup entry.2.path =
          some (chosenValue (inherited.lookup entry.2.path) answer)

theorem Answering.asked_subset {exchanges : List (Ask × PyValue)} {session : SetupSession}
    (h : Answering python inherited disks setupSettings exchanges session) :
    session.asked ⊆ setupSettings :=
  (h.visited.sublist (List.append_nil _).symm).1.subset

theorem Answering.keeps {before exchanges : List (Ask × PyValue)} {session : SetupSession}
    (h : Answering python inherited disks setupSettings before session) (hsub : before ⊆ exchanges)
    {entry : String × StepSetting} (hentry : entry ∈ session.asked)
    (hconfirmed : Confirmed entry exchanges) : ∃ answer setting,
      session.answers.lookup entry.2.path = some answer ∧
      inherited.lookup entry.2.path = some setting ∧
      (chosenValue (some setting) answer).value = setting.value := by
  obtain ⟨part, question, answer, hpart, hcame⟩ := h.cameTo hentry
  obtain ⟨question', hquestion, hsubject⟩ := hcame.asked.exists_question
  obtain ⟨setting, hsetting, hvalue⟩ := hcame.answered.keeps fun x hx =>
    hconfirmed x (hsub (hpart hx)) question' hquestion (hsubject x hx)
  rw [hsetting] at hvalue
  exact ⟨answer, setting, hcame.hasAnswer, hsetting, hvalue⟩

theorem Answering.chosen {exchanges : List (Ask × PyValue)} {session : SetupSession}
    (h : Answering python inherited disks setupSettings exchanges session) {step : String}
    {question : Question} {choices : List Choice} {shown : Option (Inherited PyValue)}
    {answer : PyValue} (hmem : (Ask.chooseOne step question choices shown, answer) ∈ exchanges) :
    ∃ entry ∈ setupSettings, IsMenu inherited disks entry (.chooseOne step question choices shown) ∧
      (applyTuiChoices inherited session.answers).lookup entry.2.path =
        some (chosenValue (inherited.lookup entry.2.path) answer) := by
  obtain ⟨parts, hparts, rfl⟩ := h.parts
  obtain ⟨part, hpart, hx⟩ := List.mem_flatten.mp hmem
  have hflip := hparts.flip
  obtain ⟨entry, hentry, question', answer', hcame⟩ := exists_of_forall₂ hflip hpart
  obtain ⟨rfl, rfl, rfl, label, source, description, typedPrompt, rfl, rfl⟩ :=
    hcame.answered.chooses hx
  obtain ⟨question', -, hsubject⟩ := hcame.asked.exists_question
  have heq := hsubject _ hx
  rw [Ask.subject, Option.some.injEq, Prod.mk.injEq] at heq
  obtain rfl := heq.1
  exact ⟨entry, h.asked_subset hentry, ⟨label, source, description, typedPrompt,
    hcame.hasQuestion, rfl⟩, h.lookup_final hcame.hasAnswer⟩

theorem Answering.leaves {before exchanges : List (Ask × PyValue)}
    {session : SetupSession} {rows : List SummaryRow} {confirmed : PyValue}
    (hnull : ¬NullDesktops inherited)
    (h : Answering python inherited disks setupSettings before session)
    (hexchanges : exchanges = before ++ [(.review rows, confirmed)]) :
    LeavesConfirmed inherited disks exchanges (.returned session.answers) where
  fails hnull' := absurd hnull' hnull
  ends _ := .inr ⟨_, rfl⟩
  keeps := by
    rintro answers hreturned entry hentry hconfirmed
    obtain rfl := Outcome.returned.inj hreturned
    have hsub : before ⊆ exchanges := hexchanges ▸ List.subset_append_left _ _
    by_cases hasked : entry ∈ session.asked
    · obtain ⟨answer, setting, hlookup, hsetting, hvalue⟩ := h.keeps hsub hasked hconfirmed
      rw [h.lookup_final hlookup, hsetting, Option.map_some, Option.map_some, hvalue]
    · have hnone : session.answers.lookup entry.2.path = none := by
        rw [List.lookup_eq_none_iff]
        rintro answer hanswer
        have hmem : answer.1 ∈ session.asked.map fun entry => entry.2.path :=
          h.visited.answered ▸ List.mem_map_of_mem hanswer
        obtain ⟨entry', hentry', hpath⟩ := List.mem_map.mp hmem
        rw [bne_iff_ne, ← hpath]
        intro heq
        exact hasked (List.inj_on_of_nodup_map nodup_setupSettings (h.asked_subset hentry') hentry
          heq.symm ▸ hentry')
      rw [applyTuiChoices_eq, lookup_foldl_applyChoice h.nodup _ rfl, hnone]
  same := by
    rintro answers hreturned hconfirmed
    obtain rfl := Outcome.returned.inj hreturned
    refine plainValues_applyTuiChoices fun choice hchoice => ?_
    have hmem : choice.1 ∈ session.asked.map fun entry => entry.2.path :=
      h.visited.answered ▸ List.mem_map_of_mem hchoice
    obtain ⟨entry, hentry, hpath⟩ := List.mem_map.mp hmem
    have hsub : before ⊆ exchanges := hexchanges ▸ List.subset_append_left _ _
    obtain ⟨answer, setting, hlookup, hsetting, hvalue⟩ :=
      h.keeps hsub hentry (hconfirmed entry (h.asked_subset hentry))
    rw [hpath] at hlookup hsetting
    exact ⟨setting, hsetting, eq_of_mem_of_lookup h.nodup hchoice hlookup ▸ hvalue⟩
  chosen := by
    intro answers hreturned step question choices shown answer hmem
    obtain rfl := Outcome.returned.inj hreturned
    rw [hexchanges, List.mem_append, List.mem_singleton] at hmem
    rcases hmem with hmem | heq
    · exact h.chosen hmem
    · cases heq

end

/-! ## A front-end that confirms what it is shown -/

/-- Where nothing is shown it takes the first choice. -/
def confirmShown : Ask → PyValue
  | .switch _ _ inherited => .bool (inherited.any Inherited.value)
  | .chooseOne _ _ choices inherited =>
    (((inherited.bind fun inherited =>
      choices.find? fun choice => inherited.value.eq choice.value).or
        choices.head?).map Choice.value).getD .none
  | .chooseMany _ question inherited =>
    .list (question.choiceValues.filter fun value =>
      ((inherited.map Inherited.value).getD []).any fun value' => value'.eq value)
  | .enterText _ _ inherited => .str ((inherited.map Inherited.value).getD "")
  | .keepSecret .. | .review _ => .bool true
  | .enterSecret .. => .str "secret"

def hasChoice : Ask → Bool
  | .chooseOne _ _ choices _ => !choices.isEmpty
  | _ => true

theorem kind_confirmShown {ask : Ask} (h : hasChoice ask) : ask.Kind (confirmShown ask) := by
  cases ask with
  | chooseOne step question choices inherited =>
    cases choices with
    | nil => cases h
    | cons choice choices =>
      simp only [confirmShown, List.head?_cons]
      cases hfound : inherited.bind fun inherited =>
          (choice :: choices).find? fun choice => inherited.value.eq choice.value with
      | none => exact List.mem_map_of_mem List.mem_cons_self
      | some found =>
        obtain ⟨shown, -, hfind⟩ := Option.bind_eq_some_iff.mp hfound
        exact List.mem_map_of_mem (List.mem_of_find?_eq_some hfind)
  | chooseMany => exact ⟨_, rfl, List.filter_subset_self _⟩
  | _ => exact ⟨_, rfl⟩

def confirmingSession (inherited : List (String × SettingValue)) :
    Simulation Ask PyValue SetupError (List (String × PyValue)) Unit :=
  simulate (fun s ask => (confirmShown ask, s)) (runSetup scalarBuiltins inherited []) 40 ()

theorem mem_confirmingSession {inherited : List (String × SettingValue)} {x : Ask × PyValue}
    (h : x ∈ (confirmingSession inherited).exchanges) : x.2 = confirmShown x.1 := by
  have hreplay : Replays (fun _ ask answer _ => answer = confirmShown ask) ()
      (confirmingSession inherited).exchanges (confirmingSession inherited).final :=
    simulate_replays (fun _ _ => rfl) _ _ _
  exact hreplay.forall (P := fun x => x.2 = confirmShown x.1) (fun _ _ _ _ h => h) x h

theorem showsSizes_scalarBuiltins {inherited : List (String × SettingValue)} :
    ShowsSizes scalarBuiltins inherited :=
  fun size _ => ⟨toString size, rfl⟩

/-- The sample, with a list of desktops that is null. -/
def nullSample : List (String × SettingValue) :=
  assign desktopsPath { value := .none, source := .configFile } inheritedSample

end ArchInstaller
