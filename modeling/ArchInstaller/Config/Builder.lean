import ArchInstaller.Config.Sections
import ArchInstaller.Python.Text

/-! # The builder of the configuration

`config/installer_config_builder.py`: an `InstallerConfig` out of setting values addressed by
dotted path. The list `missing` is the state of the conversions. A section that misses a field is
`none` here, and so is whatever holds it: in Python it is an object with `None` in it, which nothing
reads since the missing settings are an error. -/

namespace ArchInstaller

open PyData PyText

def credentialPaths : List String :=
  ["credentials.luks_password", "credentials.user_password", "credentials.source_luks_password"]

/-- The `ConfigurationError`s of the builder. -/
inductive BuildError where
  | insideValue (settingPath : String)
  | notMapping (path : String)
  | unknownKeys (path : String) (names : List String)
  | notList (path : String)
  | notOneOf (path : String) (value : PyValue) (allowed : List String)
  | notInteger (path : String) (value : PyValue)
  | notTrueOrFalse (path : String) (value : PyValue)
  | notString (path : String) (value : PyValue)
  | missingSettings (settingPaths : List String)

/-- The text of the error, given the `repr` of data. -/
def BuildError.message (repr : PyValue → String) : BuildError → String
  | insideValue settingPath => s!"{settingPath} is inside a setting that is a value"
  | notMapping path => (if path = "" then "configuration" else path) ++ " must be a mapping"
  | unknownKeys path names =>
    let location := if path = "" then "" else s!" in {path}"
    s!"Unknown configuration key(s){location}: " ++ join ", " names
  | notList path => s!"{path} must be a list"
  | notOneOf path value allowed =>
    s!"{path}: " ++ repr value ++ " is not one of " ++ join ", " (allowed.map PyText.repr)
  | notInteger path value => s!"{path} must be an integer, got " ++ repr value
  | notTrueOrFalse path value => s!"{path} must be true or false, got " ++ repr value
  | notString path value => s!"{path} must be a string, got " ++ repr value ++ " (quote it)"
  | missingSettings settingPaths => "Missing settings: " ++ join ", " settingPaths

/-! ## Nesting -/

/-- `section.setdefault(section_name, {})`, where that is a mapping. -/
def subsection (sectionName : String) (entries : List (String × PyValue)) :
    Option (List (String × PyValue)) :=
  match entries.lookup sectionName with
  | none => some []
  | some (.dict inner) => some inner
  | some _ => none

/-- The body of `_nested`'s loop: the names that are left of the path, and the section that they
are in. -/
def insertAt (settingPath : String) (value : PyValue) :
    List String → List (String × PyValue) → Except BuildError (List (String × PyValue))
  | [], entries => .ok entries
  | [name], entries => .ok (assign name value entries)
  | sectionName :: names, entries =>
    match subsection sectionName entries with
    | none => .error (.insideValue settingPath)
    | some inner => do
      let inner ← insertAt settingPath value names inner
      return assign sectionName (.dict inner) entries

/-- `_nested`. -/
def nested (values : List (String × PyValue)) : Except BuildError (List (String × PyValue)) :=
  values.foldlM (fun nested (settingPath, value) =>
    insertAt settingPath value (split "." settingPath) nested) []

/-! ## Conversion -/

/-- The text that a value is read as where a text is expected: null is the empty one. -/
def readText : PyValue → Option String
  | .none => some ""
  | value => value.text

/-- `expected_type(value if value is not None else "")`. -/
def EnumType.member (type : EnumType) (value : PyValue) : Option type.Member :=
  (readText value).bind fun text => type.members.find? fun member => type.value member = text

abbrev Building := StateT (List String) (Except BuildError)

/-- `missing.append(setting_path)`. -/
def Building.missing {α : Type} (settingPath : String) : Building (Option α) := do
  modify (· ++ [settingPath])
  return none

def convertStr (value : PyValue) (path : String) : Except BuildError String :=
  match readText value with
  | some text => .ok text
  | none => .error (.notString path value)

def convertInt (value : PyValue) (path : String) : Except BuildError Int :=
  match value with
  | .int number => .ok number
  | value => .error (.notInteger path value)

def convertBool (value : PyValue) (path : String) : Except BuildError Bool :=
  match value with
  | .bool value => .ok value
  | value => .error (.notTrueOrFalse path value)

def convertEnum (type : EnumType) (value : PyValue) (path : String) :
    Except BuildError type.Member :=
  match type.member value with
  | some member => .ok member
  | none => .error (.notOneOf path value (type.members.map type.value))

/-- `f"{path}.{name}" if path else name`. -/
def fieldPath (path name : String) : String := if path = "" then name else path ++ "." ++ name

/-- `f"{path}[{index}]"`. -/
def itemPath (path : String) (index : Nat) : String := path ++ "[" ++ toString index ++ "]"

/-- The items of a list, each under its index. -/
def convertItems {α : Type} (convertItem : PyValue → String → Building (Option α))
    (path : String) : List PyValue → Nat → Building (Option (List α))
  | [], _ => pure (some [])
  | item :: items, index => do
    let first ← convertItem item (itemPath path index)
    let rest ← convertItems convertItem path items (index + 1)
    return do return (← first) :: (← rest)

mutual

/-- `_convert`. -/
def convert : (type : FieldType) → PyValue → String → Building (Option type.Value)
  | .str, value, path => some <$> convertStr value path
  | .int, value, path => some <$> convertInt value path
  | .bool, value, path => some <$> convertBool value path
  | .enum type, value, path => some <$> convertEnum type value path
  | .tuple item, value, path =>
    match value with
    | .none => pure (some [])
    | value => match value.items with
      | some items => convertItems (convert item) path items 0
      | none => throw (.notList path)
  | .optional inner, value, path =>
    match value with
    | .none => pure (some none)
    | value => do return (← convert inner value path).map some
  | .dataclass declared, value, path =>
    match value with
    | .dict raw =>
      let unknown := sorted ((raw.map Prod.fst).filter (· ∉ declared.names))
      if unknown = [] then buildFields declared raw path else throw (.unknownKeys path unknown)
    | _ => throw (.notMapping path)

/-- The loop of `_build_section` over the declared fields. -/
def buildFields : (declared : Fields) → List (String × PyValue) → String →
    Building (Option declared.Value)
  | .nil, _, _ => pure (some ())
  | .cons name type rest, raw, path => do
    let argument ← match raw.lookup name with
      | none => Building.missing (fieldPath path name)
      | some value => convert type value (fieldPath path name)
    let arguments ← buildFields rest raw path
    return do return (← argument, ← arguments)

end

/-- `{**dict.fromkeys(CREDENTIAL_PATHS, ""), **values}`. -/
def withCredentials (values : List (String × PyValue)) : List (String × PyValue) :=
  merge (credentialPaths.map ((·, .str ""))) values

/-- `if missing: raise MissingSettingsError(missing)`. A section that is not whole has left a
setting in `missing`. -/
def checkMissing {α : Type} : Option α × List String → Except BuildError α
  | (some built, []) => .ok built
  | (_, missing) => .error (.missingSettings missing)

/-- The root section, out of values addressed by dotted path. -/
def buildRoot (declared : Fields) (values : List (String × PyValue)) :
    Except BuildError declared.Value := do
  let nested ← nested values
  checkMissing (← (convert (.dataclass declared) (.dict nested) "").run [])

/-- `build_installer_config`. -/
def buildInstallerConfig (values : List (String × PyValue)) : Except BuildError InstallerConfig :=
  InstallerConfig.equiv <$> buildRoot InstallerConfig.fields (withCredentials values)

end ArchInstaller
