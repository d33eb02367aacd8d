import ArchInstaller.Config.Builder

/-! # The configuration file as a source of setting values

`config/config_file.py`, on what `yaml.safe_load` returns. -/

namespace ArchInstaller

open PyData PyText

/-- What `yaml.safe_load` reads where `yaml.safe_dump` has written plain data. -/
def PlainValue.loaded : PlainValue → PyValue
  | .null => .none
  | .bool value => .bool value
  | .int value => .int value
  | .text value => .str value
  | .sequence items => .list (loadedItems items)
  | .mapping entries => .dict (loadedEntries entries)
where
  loadedItems : List PlainValue → List PyValue
    | [] => []
    | item :: items => item.loaded :: loadedItems items
  loadedEntries : List (String × PlainValue) → List (String × PyValue)
    | [] => []
    | (name, value) :: entries => (name, value.loaded) :: loadedEntries entries

/-- `declared.discard(name)`. -/
def Fields.discard (name : String) : Fields → Fields
  | .nil => .nil
  | .cons name' type rest =>
    if name' = name then rest.discard name else .cons name' type (rest.discard name)

/-- `prefix.rstrip(".")` of a prefix, which ends in one dot. -/
def prefixPath (dotted : String) : String :=
  String.ofList (dotted.toList.reverse.dropWhile (· == '.')).reverse

mutual

/-- `_flatten` of a mapping. -/
def flatten : PyValue → (declared : Fields) → (dotted : String) →
    Except BuildError (List (String × PyValue))
  | .dict entries, declared, dotted =>
    let unknown := sorted ((entries.map Prod.fst).filter (· ∉ declared.names))
    if unknown = [] then flattenEntries entries declared dotted
    else .error (.unknownKeys (prefixPath dotted) unknown)
  | _, _, dotted => .error (.notMapping (prefixPath dotted))

/-- The loop of `_flatten`. Keys are distinct, so the paths are. -/
def flattenEntries : List (String × PyValue) → (declared : Fields) → (dotted : String) →
    Except BuildError (List (String × PyValue))
  | [], _, _ => .ok []
  | (name, value) :: entries, declared, dotted => do
    let first ← match declared.typeOf name, value with
      | some (.dataclass inner), .dict _ => flatten value inner (dotted ++ name ++ ".")
      | _, _ => .ok [(dotted ++ name, value)]
    let rest ← flattenEntries entries declared dotted
    return first ++ rest

end

/-- `config_file_setting_values`: the file declares every section but the credentials. -/
def configFileSettingValues (raw : PyValue) : Except BuildError (List (String × PyValue)) :=
  flatten raw (InstallerConfig.fields.discard "credentials") ""

end ArchInstaller
