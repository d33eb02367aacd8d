import ArchInstaller.Python.Data

/-! # Which source wins

`config/value_precedence.py`. -/

namespace ArchInstaller

open PyData

inductive ValueSource where
  | environment
  | configFile
  | tui
  deriving DecidableEq

def ValueSource.value : ValueSource → String
  | environment => "environment"
  | configFile => "config.yaml"
  | tui => "TUI"

structure SettingValue where
  value : PyValue
  source : ValueSource

/-- The first source in this order that has a value for a setting gives the inherited value. -/
def inheritanceOrder : List ValueSource := [.environment, .configFile]

/-- `inherited.setdefault(setting_path, value)`. -/
def setDefault (settingPath : String) (value : SettingValue)
    (inherited : List (String × SettingValue)) : List (String × SettingValue) :=
  match inherited.lookup settingPath with
  | some _ => inherited
  | none => assign settingPath value inherited

def inheritSettingValues (valuesBySource : ValueSource → List (String × PyValue)) :
    List (String × SettingValue) :=
  inheritanceOrder.foldl (fun inherited source =>
    (valuesBySource source).foldl (fun inherited (settingPath, value) =>
      setDefault settingPath { value, source } inherited) inherited) []

/-- The TUI has the last word; a choice equal to the inherited value keeps its source. -/
def applyTuiChoices (inherited : List (String × SettingValue)) (tuiChoices : List (String × PyValue)) :
    List (String × SettingValue) :=
  tuiChoices.foldl (fun chosen (settingPath, value) =>
    match inherited.lookup settingPath with
    | none => assign settingPath { value, source := .tui } chosen
    | some previous =>
      if previous.value.eq value then chosen
      else assign settingPath { value, source := .tui } chosen) inherited

def plainValues (settingValues : List (String × SettingValue)) : List (String × PyValue) :=
  settingValues.map fun (settingPath, setting) => (settingPath, setting.value)

end ArchInstaller
