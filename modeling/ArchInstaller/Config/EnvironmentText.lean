import ArchInstaller.Config.Builder
import ArchInstaller.Python.Unicode

/-! # Settings from the environment

Text from outside `config.yaml` is read as the type that the model declares for the setting:
`read_setting_text` of `config/installer_config_builder.py`, and `config/environment.py`. -/

namespace ArchInstaller

open PyData PyText

def trueWords : List String := ["true", "1", "yes"]

def falseWords : List String := ["false", "0", "no"]

/-- The declared type at the end of some names. -/
def Fields.typeAt : List String → Fields → Option FieldType
  | [], _ => none
  | [name], declared => declared.typeOf name
  | name :: names, declared =>
    match declared.typeOf name with
    | some (.dataclass inner) => inner.typeAt names
    | _ => none

def settingType (settingPath : String) : Option FieldType :=
  InstallerConfig.fields.typeAt (split "." settingPath)

/-- What reading a setting's text raises. -/
inductive TextError where
  | notTrueOrFalse (label text : String)
  | notWholeNumber (label text : String)
  | build (error : BuildError)
  /-- The `ValueError` of `int(text)`. -/
  | valueError (text : String)
  /-- The `KeyError` of a path that is not declared. -/
  | keyError (settingPath : String)

def TextError.isConfigurationError : TextError → Bool
  | notTrueOrFalse _ _ | notWholeNumber _ _ | build _ => true
  | valueError _ | keyError _ => false

/-- The text of a `ConfigurationError`, given the `repr` of data. -/
def TextError.message (repr : PyValue → String) : TextError → String
  | notTrueOrFalse label text => s!"{label} must be true or false, got " ++ repr (.str text)
  | notWholeNumber label text => s!"{label} must be a whole number, got " ++ repr (.str text)
  | build error => error.message repr
  | valueError _ | keyError _ => ""

section

variable (unicode : Unicode)

/-- `_from_text`. -/
def fromText : FieldType → String → String → Except TextError PyValue
  | .tuple item, text, label => do
    let items ← (((split "," text).map strip).filter (· != "")).mapM fun text =>
      fromText item text label
    return .tuple items
  | .bool, text, label =>
    if trueWords.contains (unicode.lower text) then .ok (.bool true)
    else if falseWords.contains (unicode.lower text) then .ok (.bool false)
    else .error (.notTrueOrFalse label text)
  | .int, text, label =>
    if !unicode.isdigit text then .error (.notWholeNumber label text)
    else
      match unicode.int text with
      | some number => .ok (.int number)
      | none => .error (.valueError text)
  | .enum type, text, label =>
    match convertEnum type (.str (unicode.lower text)) label with
    | .ok member => .ok (.member (type.value member))
    | .error error => .error (.build error)
  | .str, text, _ | .optional _, text, _ | .dataclass _, text, _ => .ok (.str text)

def readSettingText (settingPath text origin : String) : Except TextError PyValue :=
  match settingType settingPath with
  | some type => fromText unicode type text s!"{origin} ({settingPath})"
  | none => .error (.keyError settingPath)

/-- `Environment._raw`. -/
def rawVariable (environment : String → Option String) (name : String) : String :=
  strip ((environment name).getD "")

/-- `Environment.setting_values`. -/
def settingValues (environment : String → Option String) :
    List (String × String) → Except TextError (List (String × PyValue))
  | [] => .ok []
  | (name, settingPath) :: paths =>
    if rawVariable environment name == "" then settingValues environment paths
    else do
      let value ← readSettingText unicode settingPath (rawVariable environment name) name
      let values ← settingValues environment paths
      return (settingPath, value) :: values

end

end ArchInstaller
