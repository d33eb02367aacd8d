import ArchInstaller.Config.Sections
import ArchInstaller.Config.ValuePrecedence
import ArchInstaller.Interaction.Program
import ArchInstaller.Setup.Frontend
import ArchInstaller.Setup.Registry

/-! # The setup session

`setup/session.py`: the questions of the install steps are asked through a front-end, which is
whatever answers the requests of the program. `config_lookup` of `install_steps/wiring.py` is the
other reading of the steps' conditions. -/

namespace ArchInstaller

open Interaction PyData PyText

/-- The methods of a front-end. -/
inductive Ask where
  | switch (step : String) (question : Question) (inherited : Option (Inherited Bool))
  | chooseOne (step : String) (question : Question) (choices : List Choice)
    (inherited : Option (Inherited PyValue))
  | chooseMany (step : String) (question : Question) (inherited : Option (Inherited (List PyValue)))
  | enterText (step : String) (question : Question) (inherited : Option (Inherited String))
  | keepSecret (step : String) (question : Question) (source : String)
  | enterSecret (step : String) (question : Question)
  | review (rows : List SummaryRow)

/-- What a session raises: `KeyboardInterrupt`, and errors of Python's own functions. -/
inductive SetupError where
  | cancelled
  | typeError
  | valueError
  | keyError (settingPath : String)

/-- What data says when it is shown or iterated over: `str`, which refuses integers of too many
digits, and the items of data of other types. -/
structure PyBuiltins where
  str : PyValue → Option String
  str_text : ∀ {value text}, value.text = some text → str value = some text
  otherItems : String → Option (List PyValue)

namespace PyBuiltins

variable (python : PyBuiltins)

/-- `list(value)`. -/
def list : PyValue → Except SetupError (List PyValue)
  | .list items | .tuple items => .ok items
  | .str text | .member text => .ok (text.toList.map fun c => .str (String.ofList [c]))
  | .dict entries => .ok (entries.map fun entry => .str entry.1)
  | .other shown =>
    match python.otherItems shown with
    | some items => .ok items
    | none => .error .typeError
  | _ => .error .typeError

/-- `str(value)`. -/
def text (value : PyValue) : Except SetupError String :=
  match python.str value with
  | some text => .ok text
  | none => .error .valueError

end PyBuiltins

abbrev SetupProgram := Program Ask PyValue Unit SetupError

structure SetupSession where
  asked : List (String × StepSetting) := []
  offeredChoices : List (String × List Choice) := []
  answers : List (String × PyValue) := []

section

variable (python : PyBuiltins) (inherited : List (String × SettingValue)) (disks : List Disk)

/-- The choices that a question has, given the inherited value. -/
def ChoiceSource.available (previous : Option SettingValue) : ChoiceSource → List Choice
  | .offered choices => choices
  | .computed choices => choices ((previous.map SettingValue.value).getD .none) disks

/-- `_inherited_as(setting_value, bool)`. -/
def inheritedSwitch : Option SettingValue → Option (Inherited Bool)
  | none | some ⟨.none, _⟩ => none
  | some setting => some ⟨setting.value.truth, setting.source.value⟩

/-- `_inherited_as(setting_value, None)`. -/
def inheritedValue? : Option SettingValue → Option (Inherited PyValue)
  | none | some ⟨.none, _⟩ => none
  | some setting => some ⟨setting.value, setting.source.value⟩

/-- `_inherited_as(setting_value, list)`. -/
def inheritedList : Option SettingValue → Except SetupError (Option (Inherited (List PyValue)))
  | none | some ⟨.none, _⟩ => .ok none
  | some setting => do return some ⟨← python.list setting.value, setting.source.value⟩

/-- An empty text is no value to offer. -/
def inheritedText : Option SettingValue → Except SetupError (Option (Inherited String))
  | none | some ⟨.none, _⟩ => .ok none
  | some setting =>
    if setting.value.eq (.str "") then .ok none
    else do return some ⟨← python.text setting.value, setting.source.value⟩

/-- `_as_texts`, as a list. -/
def asTexts (values : PyValue) : Except SetupError (List String) := do
  (← python.list values).mapM python.text

/-- Equality of texts as sets. -/
def sameTexts (texts texts' : List String) : Bool :=
  texts.all texts'.contains && texts'.all texts.contains

namespace SetupSession

variable (session : SetupSession)

/-- The current value of any setting: the answer if it was asked, else the inherited one. -/
def value : SettingLookup := fun settingPath =>
  match session.answers.lookup settingPath with
  | some answer => answer
  | none =>
    match inherited.lookup settingPath with
    | some setting => setting.value
    | none => .none

def enterText (step : String) (question : Question) (previous : Option SettingValue) :
    SetupProgram PyValue := do
  let shown ← Program.ofExcept (inheritedText python previous)
  .request (.enterText step question shown) .ret

def chooseOne (step settingPath label : String) (choices : ChoiceSource)
    (description typedPrompt : String) (previous : Option SettingValue) :
    SetupProgram (PyValue × SetupSession) :=
  let offered := choices.available disks previous
  if offered.isEmpty then do
    return (← enterText python step (.enterText label typedPrompt) previous, session)
  else
    .request (.chooseOne step (.chooseOne label choices description typedPrompt) offered
        (inheritedValue? previous)) fun answer =>
      .ret (answer,
        { session with offeredChoices := assign settingPath offered session.offeredChoices })

/-- A selection is a set: the same items in another order keep the inherited value. -/
def chooseMany (step : String) (question : Question) (previous : Option SettingValue) :
    SetupProgram PyValue := do
  let shown ← Program.ofExcept (inheritedList python previous)
  .request (.chooseMany step question shown) fun chosen =>
    match previous with
    | none => .ret chosen
    | some setting => do
      let texts ← Program.ofExcept (asTexts python chosen)
      let texts' ← Program.ofExcept (asTexts python setting.value)
      return if sameTexts texts texts' then setting.value else chosen

def secret (step : String) (question : Question) : Option SettingValue → SetupProgram PyValue
  | none => .request (.enterSecret step question) .ret
  | some setting =>
    if setting.value.truth then
      .request (.keepSecret step question setting.source.value) fun kept =>
        if kept.truth then .ret setting.value else .request (.enterSecret step question) .ret
    else .request (.enterSecret step question) .ret

/-- `_answer`. -/
def answer (step : String) (setting : StepSetting) : SetupProgram (PyValue × SetupSession) :=
  let previous := inherited.lookup setting.path
  match setting.question with
  | some (.switch label onLabel offLabel description) =>
    .request (.switch step (.switch label onLabel offLabel description) (inheritedSwitch previous))
      fun answer => .ret (answer, session)
  | some (.chooseOne label choices description typedPrompt) =>
    session.chooseOne python disks step setting.path label choices description typedPrompt previous
  | some (.chooseMany label choices description) => do
    return (← chooseMany python step (.chooseMany label choices description) previous, session)
  | some (.enterText label prompt) => do
    return (← enterText python step (.enterText label prompt) previous, session)
  | some (.enterSecret label prompt confirm) => do
    return (← secret step (.enterSecret label prompt confirm) previous, session)
  | none => .raise .typeError

def ask (step : String) (setting : StepSetting) : SetupProgram SetupSession := do
  let (answer, session) ← session.answer python inherited disks step setting
  return { session with
    answers := assign setting.path answer session.answers
    asked := session.asked ++ [(step, setting)] }

end SetupSession

/-- `_shown`, of a question for which these choices were offered. -/
def shownValue (offered : List Choice) (question : Question) (value : PyValue) :
    Except SetupError String :=
  match question with
  | .enterSecret _ _ _ => .ok (if value.truth then "set" else "not set")
  | .switch _ onLabel offLabel _ => .ok (if value.truth then onLabel else offLabel)
  | .chooseMany _ _ _ => do
    let shown := join ", " (← (← python.list value).mapM python.text)
    return if shown == "" then "none" else shown
  | .chooseOne _ _ _ _ => do
    let text ← python.text value
    return ((offered.find? fun choice => choice.value.eq value).map Choice.label).getD text
  | .enterText _ _ => python.text value

/-- A row of `summary`. -/
def summaryRow (session : SetupSession) (final : List (String × SettingValue)) (step : String)
    (setting : StepSetting) (question : Question) : Except SetupError SummaryRow :=
  match final.lookup setting.path with
  | none => .error (.keyError setting.path)
  | some chosen => do
    let offered := (session.offeredChoices.lookup setting.path).getD []
    let value ← shownValue python offered question chosen.value
    return { step, label := question.label, value, source := chosen.source.value }

def SetupSession.summary (session : SetupSession) : Except SetupError (List SummaryRow) :=
  let final := applyTuiChoices inherited session.answers
  (session.asked.filterMap fun (step, setting) =>
    setting.question.map fun question => (step, setting, question)).mapM
      fun (step, setting, question) => summaryRow python session final step setting question

/-- The settings of all steps, each with its step. -/
def setupSettings : List (String × StepSetting) :=
  installStepSettings.flatMap fun (step, settings) => settings.map (step, ·)

/-- The body of `run_setup`'s loops. -/
def SetupSession.visit (session : SetupSession) (entry : String × StepSetting) :
    SetupProgram SetupSession :=
  if entry.2.question.isSome && entry.2.askedWhen (session.value inherited) then
    session.ask python inherited disks entry.1 entry.2
  else pure session

/-- `run_setup`. -/
def runSetup : SetupProgram (List (String × PyValue)) := do
  let session ← setupSettings.foldlM (SetupSession.visit python inherited disks) {}
  let rows ← Program.ofExcept (session.summary python inherited)
  let confirmed ← (.request (.review rows) .ret : SetupProgram PyValue)
  if confirmed.truth then return session.answers else .raise .cancelled

end

/-! ## The finished configuration -/

mutual

/-- The attribute of a value at the end of some names. -/
def FieldType.attribute : (type : FieldType) → type.Value → List String → Option PyValue
  | type, value, [] => some (type.data value)
  | .dataclass declared, value, name :: names => declared.attribute value name names
  | .optional inner, some value, names => inner.attribute value names
  | _, _, _ => none

def Fields.attribute : (declared : Fields) → declared.Value → String → List String → Option PyValue
  | .nil, _, _, _ => none
  | .cons name type rest, (value, values), name', names =>
    if name = name' then type.attribute value names else rest.attribute values name' names

end

/-- `config_lookup`: the conditions of the steps look up attributes that there are. -/
def configLookup (config : InstallerConfig) : SettingLookup := fun settingPath =>
  ((FieldType.dataclass InstallerConfig.fields).attribute (InstallerConfig.equiv.symm config)
    (split "." settingPath)).getD .none

end ArchInstaller
