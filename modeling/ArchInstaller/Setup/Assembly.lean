import ArchInstaller.Config.ConfigFile
import ArchInstaller.Config.EncryptedCredentials
import ArchInstaller.Config.EnvironmentText
import ArchInstaller.Interaction.Run
import ArchInstaller.Setup.Session

/-! # The assembled configuration

`assemble_installer_config` of `cli.py`, on what `yaml.safe_load` returns. The TUI is whatever turns
the inherited values into choices, and the prompt for the secrets key says what is entered there. -/

namespace ArchInstaller

open PyData PyText

inductive AssemblyError where
  | environment (error : TextError)
  | notYamlMapping
  | file (error : BuildError)
  | noTerminal
  | secret (error : SecretError)
  | setup (error : SetupError)
  | missing (settingPaths : List String)
  | build (error : BuildError)

/-- `variable_for_setting`. -/
def variableForSetting (settingPath : String) : Option String :=
  (allSettings.find? fun setting => setting.path == settingPath).bind StepSetting.environmentVariable

/-- `_explain_missing`. -/
def explainMissing (settingPaths : List String) : String :=
  "No source provides these settings:\n  - " ++ join "\n  - " (settingPaths.map fun settingPath =>
    match variableForSetting settingPath with
    | some name => s!"{settingPath} (config.yaml or {name})"
    | none => s!"{settingPath} (config.yaml)")

/-- The text of a `ConfigurationError`. -/
def AssemblyError.message (repr : PyValue → String) (configPath : String) : AssemblyError → String
  | environment error => error.message repr
  | notYamlMapping => s!"Configuration {configPath} must be a YAML mapping"
  | file error | build error => error.message repr
  | noTerminal => "Secrets decryption key is needed but there is no terminal to ask on"
  | secret error => error.message
  | setup _ => ""
  | missing settingPaths => explainMissing settingPaths

/-- The interactive step. -/
abbrev TuiSetup := List (String × SettingValue) → Except SetupError (List (String × PyValue))

/-- `run_tui_setup`, with the answers that the user gives after what was asked before. -/
def runTuiSetup (python : PyBuiltins) (disks : List Disk)
    (answer : List (Ask × PyValue) → Ask → Except SetupError PyValue) : TuiSetup :=
  fun inherited => (runSetup python inherited disks).answered answer []

/-- The end of `read_config_file`. -/
def readConfigFile : PyValue → Except AssemblyError PyValue
  | .none => .ok (.dict [])
  | .dict entries => .ok (.dict entries)
  | _ => .error .notYamlMapping

def secretsKeyVariable : String := "ARCH_INSTALLER_SECRETS_KEY"

section

variable (cryptography : Cryptography) (unicode : Unicode) (environment : String → Option String)
  (prompt : Except AssemblyError String) (tui : Option TuiSetup)

/-- The key of `_unlocked_passwords`: asked for when it is not in the environment. -/
def secretsKeyToUse : Except AssemblyError String :=
  let secretsKey := rawVariable environment secretsKeyVariable
  if secretsKey = "" ∧ tui.isSome then prompt else .ok secretsKey

/-- Both passwords are provided. -/
def credentialsFromEnvironment (environmentValues : List (String × PyValue)) : Bool :=
  (environmentValues.lookup "credentials.luks_password").isSome &&
    (environmentValues.lookup "credentials.user_password").isSome

/-- `_unlocked_passwords`. -/
def unlockedPasswords (configFileValues environmentValues : List (String × PyValue)) :
    Except AssemblyError (List (String × PyValue)) :=
  if !hasEncryptedCredentials configFileValues || credentialsFromEnvironment environmentValues then
    .ok []
  else do
    let secretsKey ← secretsKeyToUse environment prompt tui
    if secretsKey = "" then return []
    else (decryptedCredentials cryptography unicode configFileValues secretsKey).mapError .secret

/-- `inherited if tui is None else apply_tui_choices(inherited, tui(inherited))`. -/
def finalValues (inherited : List (String × SettingValue)) :
    Except AssemblyError (List (String × SettingValue)) :=
  match tui with
  | none => .ok inherited
  | some tui => (applyTuiChoices inherited <$> tui inherited).mapError .setup

/-- The error that `build_installer_config` ends in. -/
def AssemblyError.ofBuild : BuildError → AssemblyError
  | .missingSettings settingPaths => .missing settingPaths
  | error => .build error

def assembleInstallerConfig (loaded : PyValue) : Except AssemblyError InstallerConfig := do
  let environmentValues ← (settingValues unicode environment environmentVariablePaths).mapError
    .environment
  let raw ← readConfigFile loaded
  let configFileValues ← (configFileSettingValues raw).mapError .file
  let unlocked ← unlockedPasswords cryptography unicode environment prompt tui configFileValues
    environmentValues
  let configFileValues := merge configFileValues unlocked
  let inherited := inheritSettingValues fun
    | .environment => environmentValues
    | .configFile => configFileValues
    | .tui => []
  let chosen ← finalValues tui inherited
  (buildInstallerConfig (plainValues chosen)).mapError .ofBuild

end

end ArchInstaller
