import ArchInstaller.Config.Provided

/-! # Leaf settings

A setting is a field, at any depth of sections, that is no section itself: its path, its type, and
its value in a configuration. Values that are given setting by setting are what their settings'
values are. -/

namespace ArchInstaller

open PyData PyText

/-- A setting of the given type among the declared fields. -/
inductive Setting : Fields → FieldType → Type 1
  | here {name : String} {type : FieldType} {rest : Fields} (leaf : type.isSection = false) :
    Setting (.cons name type rest) type
  | within {name : String} {inner rest : Fields} {type : FieldType} (setting : Setting inner type) :
    Setting (.cons name (.dataclass inner) rest) type
  | later {name : String} {first : FieldType} {rest : Fields} {type : FieldType}
    (setting : Setting rest type) : Setting (.cons name first rest) type

namespace Setting

variable {declared : Fields} {type : FieldType}

def names : {declared : Fields} → {type : FieldType} → Setting declared type → List String
  | .cons name _ _, _, here _ => [name]
  | .cons name _ _, _, within setting => name :: setting.names
  | _, _, later setting => setting.names

def get : {declared : Fields} → {type : FieldType} → Setting declared type → declared.Value →
    type.Value
  | _, _, here _, (value, _) => value
  | _, _, within setting, (value, _) => setting.get value
  | _, _, later setting, (_, rest) => setting.get rest

/-- The setting's path in dotted form. -/
def path (setting : Setting declared type) : String := join "." setting.names

end Setting

/-- The settings of the last section. -/
def Setting.inCredentials {type : FieldType} (setting : Setting Credentials.fields type) :
    Setting InstallerConfig.fields type :=
  .later <| .later <| .later <| .later <| .later <| .later <| .later <| .later <| .later <|
    .later <| .later <| .later <| .later <| .within setting

end ArchInstaller
