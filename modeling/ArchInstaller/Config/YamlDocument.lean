import ArchInstaller.Config.ConfigFile
import ArchInstaller.Python.Unicode

/-! # Documents with keys of any kind

`config_file_setting_values` and `build_installer_config` on whatever `yaml.safe_load` returns: the
keys of its mappings may be numbers, booleans or null, which sort with no texts and join to none. -/

namespace ArchInstaller.Yaml

open PyData PyText

inductive Key where
  | text (name : String)
  | bool (value : Bool)
  | int (value : Int)
  | float (value : PyFloat)
  | null
  | other (shown : String)
  deriving DecidableEq

def Key.name : Key → Option String
  | text name => some name
  | _ => none

/-- `other` is data of another type, such as a date. -/
inductive Value where
  | null
  | bool (value : Bool)
  | int (value : Int)
  | float (value : PyFloat)
  | str (value : String)
  | list (items : List Value)
  | tuple (items : List Value)
  | dict (entries : List (Key × Value))
  | other (shown : String)

/-- `repr()` shows no integer of too many digits. -/
def isPrintableInt (value : Int) : Bool := value.natAbs < 10 ^ Unicode.maxStrDigits

def Key.isPrintable : Key → Bool
  | int value => isPrintableInt value
  | _ => true

mutual

/-- `repr(value)` raises nothing. -/
def Value.isPrintable : Value → Bool
  | .int value => isPrintableInt value
  | .list items | .tuple items => arePrintable items
  | .dict entries => entriesPrintable entries
  | _ => true

def arePrintable : List Value → Bool
  | [] => true
  | item :: items => item.isPrintable && arePrintable items

def entriesPrintable : List (Key × Value) → Bool
  | [] => true
  | (key, value) :: entries => key.isPrintable && value.isPrintable && entriesPrintable entries

end

mutual

/-- In each of its mappings the keys that are texts differ. -/
def Value.namesDiffer : Value → Bool
  | .list items | .tuple items => itemsNamesDiffer items
  | .dict entries => entriesNamesDiffer entries
  | _ => true

def itemsNamesDiffer : List Value → Bool
  | [] => true
  | item :: items => item.namesDiffer && itemsNamesDiffer items

def entriesNamesDiffer : List (Key × Value) → Bool
  | [] => true
  | (key, value) :: entries =>
    !(key.name.any fun name => (entries.map Prod.fst).contains (.text name)) && value.namesDiffer &&
      entriesNamesDiffer entries

end

/-- What the YAML parser returns. -/
structure Document where
  value : Value
  namesDiffer : value.namesDiffer

/-- What a value is not that should be. -/
inductive Misfit where
  | notOneOf (allowed : List String)
  | notInteger
  | notTrueOrFalse
  | notString

/-- The `ConfigurationError`s, and the errors of `sorted`, `join` and `repr`. -/
inductive DocumentError where
  | insideValue (settingPath : String)
  | notMapping (path : String)
  | unknownKeys (path : String) (names : List String)
  | notList (path : String)
  | misfit (misfit : Misfit) (path : String) (value : Value)
  | missingSettings (settingPaths : List String)
  | typeError
  | valueError

def DocumentError.isConfigurationError : DocumentError → Bool
  | typeError | valueError => false
  | _ => true

/-- The text of a `ConfigurationError`, given the `repr` of data. -/
def DocumentError.message (repr : Value → String) : DocumentError → String
  | insideValue settingPath => s!"{settingPath} is inside a setting that is a value"
  | notMapping path => (if path = "" then "configuration" else path) ++ " must be a mapping"
  | unknownKeys path names =>
    let location := if path = "" then "" else s!" in {path}"
    s!"Unknown configuration key(s){location}: " ++ join ", " names
  | notList path => s!"{path} must be a list"
  | misfit (.notOneOf allowed) path value =>
    s!"{path}: " ++ repr value ++ " is not one of " ++ join ", " (allowed.map PyText.repr)
  | misfit .notInteger path value => s!"{path} must be an integer, got " ++ repr value
  | misfit .notTrueOrFalse path value => s!"{path} must be true or false, got " ++ repr value
  | misfit .notString path value => s!"{path} must be a string, got " ++ repr value ++ " (quote it)"
  | missingSettings settingPaths => "Missing settings: " ++ join ", " settingPaths
  | typeError | valueError => ""

/-- The error about a value of the wrong type, which shows the value. -/
def misfitError (misfit : Misfit) (path : String) (value : Value) : DocumentError :=
  if value.isPrintable then .misfit misfit path value else .valueError

/-- The error about undeclared keys, which sorts and joins them. -/
def unknownKeysError (path : String) (unknown : List Key) : DocumentError :=
  match unknown.mapM Key.name with
  | some names => .unknownKeys path (sorted names)
  | none => .typeError

/-- `set(raw) - declared`. -/
def undeclaredKeys (declared : Fields) (entries : List (Key × Value)) : List Key :=
  (entries.map Prod.fst).filter fun key =>
    match key.name with
    | some name => name ∉ declared.names
    | none => true

/-! ## The file's values -/

mutual

/-- `_flatten`. -/
def flatten : Value → (declared : Fields) → (dotted : String) →
    Except DocumentError (List (String × Value))
  | .dict entries, declared, dotted =>
    if undeclaredKeys declared entries = [] then flattenEntries entries declared dotted
    else .error (unknownKeysError (prefixPath dotted) (undeclaredKeys declared entries))
  | _, _, dotted => .error (.notMapping (prefixPath dotted))

/-- The loop of `_flatten`, whose keys are declared names. -/
def flattenEntries : List (Key × Value) → (declared : Fields) → (dotted : String) →
    Except DocumentError (List (String × Value))
  | [], _, _ => .ok []
  | (key, value) :: entries, declared, dotted =>
    match key.name with
    | none => .error .typeError
    | some name => do
      let first ← match declared.typeOf name, value with
        | some (.dataclass inner), .dict _ => flatten value inner (dotted ++ name ++ ".")
        | _, _ => .ok [(dotted ++ name, value)]
      let rest ← flattenEntries entries declared dotted
      return first ++ rest

end

/-- `config_file_setting_values`. -/
def configFileSettingValues (raw : Value) : Except DocumentError (List (String × Value)) :=
  flatten raw (InstallerConfig.fields.discard "credentials") ""

/-! ## Nesting -/

/-- `section[name] = value`. -/
def setName (name : String) (value : Value) : List (Key × Value) → List (Key × Value)
  | [] => [(.text name, value)]
  | (key, value') :: entries =>
    if key = .text name then (key, value) :: entries else (key, value') :: setName name value entries

/-- `section.setdefault(section_name, {})`, where that is a mapping. -/
def subsection (sectionName : String) (entries : List (Key × Value)) : Option (List (Key × Value)) :=
  match entries.lookup (.text sectionName) with
  | none => some []
  | some (.dict inner) => some inner
  | some _ => none

/-- The body of `_nested`'s loop. -/
def insertAt (settingPath : String) (value : Value) :
    List String → List (Key × Value) → Except DocumentError (List (Key × Value))
  | [], entries => .ok entries
  | [name], entries => .ok (setName name value entries)
  | sectionName :: names, entries =>
    match subsection sectionName entries with
    | none => .error (.insideValue settingPath)
    | some inner => do
      let inner ← insertAt settingPath value names inner
      return setName sectionName (.dict inner) entries

/-- `_nested`'s loop. -/
def nestFrom (values : List (String × Value)) (nested : List (Key × Value)) :
    Except DocumentError (List (Key × Value)) :=
  values.foldlM (fun nested (settingPath, value) =>
    insertAt settingPath value (split "." settingPath) nested) nested

/-- `_nested`. -/
def nested (values : List (String × Value)) : Except DocumentError (List (Key × Value)) :=
  nestFrom values []

/-! ## Conversion -/

/-- The text that a value is read as where a text is expected. -/
def readText : Value → Option String
  | .null => some ""
  | .str text => some text
  | _ => none

abbrev Building := StateT (List String) (Except DocumentError)

/-- `missing.append(setting_path)`. -/
def Building.missing {α : Type} (settingPath : String) : Building (Option α) := do
  modify (· ++ [settingPath])
  return none

/-- The items of a list, each under its index. -/
def convertItems {α : Type} (convertItem : Value → String → Building (Option α)) (path : String) :
    List Value → Nat → Building (Option (List α))
  | [], _ => pure (some [])
  | item :: items, index => do
    let first ← convertItem item (itemPath path index)
    let rest ← convertItems convertItem path items (index + 1)
    return do return (← first) :: (← rest)

mutual

/-- `_convert`. -/
def convert : (type : FieldType) → Value → String → Building (Option type.Value)
  | .str, value, path =>
    match readText value with
    | some text => pure (some text)
    | none => throw (misfitError .notString path value)
  | .int, value, path =>
    match value with
    | .int number => pure (some number)
    | value => throw (misfitError .notInteger path value)
  | .bool, value, path =>
    match value with
    | .bool truth => pure (some truth)
    | value => throw (misfitError .notTrueOrFalse path value)
  | .enum type, value, path =>
    match (readText value).bind fun text => type.members.find? fun member => type.value member = text with
    | some member => pure (some member)
    | none => throw (misfitError (.notOneOf (type.members.map type.value)) path value)
  | .tuple item, value, path =>
    match value with
    | .null => pure (some [])
    | .list items | .tuple items => convertItems (convert item) path items 0
    | _ => throw (.notList path)
  | .optional inner, value, path =>
    match value with
    | .null => pure (some none)
    | value => do return (← convert inner value path).map some
  | .dataclass declared, value, path =>
    match value with
    | .dict raw =>
      if undeclaredKeys declared raw = [] then buildFields declared raw path
      else throw (unknownKeysError path (undeclaredKeys declared raw))
    | _ => throw (.notMapping path)

/-- The loop of `_build_section` over the declared fields. -/
def buildFields : (declared : Fields) → List (Key × Value) → String →
    Building (Option declared.Value)
  | .nil, _, _ => pure (some ())
  | .cons name type rest, raw, path => do
    let argument ← match raw.lookup (.text name) with
      | none => Building.missing (fieldPath path name)
      | some value => convert type value (fieldPath path name)
    let arguments ← buildFields rest raw path
    return do return (← argument, ← arguments)

end

/-- `{**dict.fromkeys(CREDENTIAL_PATHS, ""), **values}`. -/
def withCredentials (values : List (String × Value)) : List (String × Value) :=
  merge (credentialPaths.map ((·, .str ""))) values

/-- `if missing: raise MissingSettingsError(missing)`. -/
def checkMissing {α : Type} : Option α × List String → Except DocumentError α
  | (some built, []) => .ok built
  | (_, missing) => .error (.missingSettings missing)

/-- `build_installer_config`. -/
def buildInstallerConfig (values : List (String × Value)) : Except DocumentError InstallerConfig := do
  let nested ← nested (withCredentials values)
  InstallerConfig.equiv <$> checkMissing
    (← (convert (.dataclass InstallerConfig.fields) (.dict nested) "").run [])

/-- `config_file_setting_values` and then `build_installer_config`. -/
def loadDocument (document : Value) : Except DocumentError InstallerConfig := do
  buildInstallerConfig (← configFileSettingValues document)

end ArchInstaller.Yaml
