import ArchInstaller.Verify.Secrets
import ArchInstaller.Verify.ShownSettings

/-! # Overridden secrets

What is stored of a password that the environment provides has no influence on the configuration,
unless it is unlocked in one run only. -/

namespace ArchInstaller

open PyData PyText

/-! ## One setting's value -/

namespace Setting

/-- The value with another value for the setting. -/
def set : {declared : Fields} → {type : FieldType} → Setting declared type → type.Value →
    declared.Value → declared.Value
  | _, _, here _, value, (_, rest) => (value, rest)
  | _, _, within setting, value, (inner, rest) => (setting.set value inner, rest)
  | _, _, later setting, value, (first, rest) => (first, setting.set value rest)

theorem get_set_self : ∀ {declared : Fields} {type : FieldType} (setting : Setting declared type)
    (value : type.Value) (built : declared.Value), setting.get (setting.set value built) = value
  | _, _, here _, _, _ => rfl
  | _, _, within setting, value, (inner, _) => setting.get_set_self value inner
  | _, _, later setting, value, (_, rest) => setting.get_set_self value rest

theorem get_set_of_ne : ∀ {declared : Fields} {type type' : FieldType} (setting : Setting declared type)
    (setting' : Setting declared type') (value : type.Value) (built : declared.Value),
    setting'.names ≠ setting.names → setting'.get (setting.set value built) = setting'.get built
  | _, _, _, here _, here _, _, _, h => absurd rfl h
  | _, _, _, within setting, within setting', value, (inner, _), h =>
    setting.get_set_of_ne setting' value inner fun hnames => h (congrArg _ hnames)
  | _, _, _, later setting, later setting', value, (_, rest), h =>
    setting.get_set_of_ne setting' value rest h
  | _, _, _, here _, later _, _, _, _ | _, _, _, within _, later _, _, _, _ => rfl
  | _, _, _, later _, here _, _, _, _ | _, _, _, later _, within _, _, _, _ => rfl
  | _, _, _, here leaf, within _, _, _, _ => nomatch leaf
  | _, _, _, within _, here leaf, _, _, _ => nomatch leaf

end Setting

theorem reads_str_iff {value : PyValue} {text : String} :
    FieldType.str.Reads value text ↔ readText value = some text := by
  rw [@FieldType.reads_iff _ _ _ "", readText_eq_some_iff, ← @convertStr_eq_ok_iff _ "", convert]
  cases convertStr value "" with
  | ok text' => simp
  | error error => simp

section

variable {values values' : List (String × PyValue)}

/-- Values that are alike but for one text are built alike but for it. -/
theorem KnownPaths.build_set (h : KnownPaths InstallerConfig.fields values)
    (h' : KnownPaths InstallerConfig.fields values') (setting : Setting InstallerConfig.fields .str)
    (hothers : ∀ path ≠ setting.path, values.lookup path = values'.lookup path)
    {value value' : PyValue} (hvalue : values.lookup setting.path = some value)
    (hvalue' : values'.lookup setting.path = some value')
    (halike : (readText value).isSome = (readText value').isSome) {config : InstallerConfig}
    (hbuild : buildInstallerConfig values = .ok config) :
    ∃ text, buildInstallerConfig values' =
      .ok (InstallerConfig.equiv (setting.set text (InstallerConfig.equiv.symm config))) := by
  have hformed := BySetting.installerFields_wellFormed
  have hsettings := h.bySetting_of_build hbuild
  have hsettings' : BySetting InstallerConfig.fields values' := by
    refine ⟨fun entry hentry => ?_, h'.nodup⟩
    have hlookup := lookup_of_mem h'.nodup hentry
    by_cases hpath : entry.1 = setting.path
    · exact ⟨_, setting, hpath⟩
    · rw [← hothers _ hpath] at hlookup
      exact hsettings.settings _ (mem_of_lookup hlookup)
  have hreads := hsettings.buildInstallerConfig_eq_ok_iff.mp hbuild
  obtain ⟨text', htext'⟩ : ∃ text', readText value' = some text' := by
    obtain ⟨read, hlookup, hread⟩ := hreads _ setting
    rw [hsettings.lookup_withCredentials, hvalue, Option.some_or] at hlookup
    cases hlookup
    rw [reads_str_iff] at hread
    rw [hread] at halike
    exact Option.isSome_iff_exists.mp halike.symm
  refine ⟨text', hsettings'.buildInstallerConfig_eq_ok_iff.mpr fun type setting' => ?_⟩
  rw [hsettings'.lookup_withCredentials, Equiv.symm_apply_apply]
  by_cases hnames : setting'.names = setting.names
  · cases Setting.eq_of_names_eq hformed hnames
    rw [hvalue', Option.some_or, Setting.get_set_self]
    exact ⟨value', rfl, reads_str_iff.mpr htext'⟩
  · have hpath : setting'.path ≠ setting.path := by
      intro hpath
      refine hnames ?_
      rw [← setting'.split_path hformed, hpath, setting.split_path hformed]
    obtain ⟨read, hlookup, hread⟩ := hreads _ setting'
    rw [hsettings.lookup_withCredentials, hothers _ hpath] at hlookup
    rw [Setting.get_set_of_ne setting setting' _ _ hnames]
    exact ⟨read, hlookup, hread⟩

end

/-! ## Values that agree elsewhere -/

/-- The entries agree but for one key. -/
def AgreeBut {α : Type} (name : String) (entries entries' : List (String × α)) : Prop :=
  ∀ name' ≠ name, entries.lookup name' = entries'.lookup name'

theorem AgreeBut.symm {α : Type} {name : String} {entries entries' : List (String × α)}
    (h : AgreeBut name entries entries') : AgreeBut name entries' entries :=
  fun name' hname => (h name' hname).symm

theorem lookup_inherited (environment file : List (String × PyValue)) (path : String) :
    (inheritSettingValues (valuesBySource environment file)).lookup path =
      ((environment.lookup path).map ({ value := ·, source := .environment })).or
        ((file.lookup path).map ({ value := ·, source := .configFile })) := by
  rw [inheritSettingValues, inheritanceOrder, List.foldl_cons, List.foldl_cons, List.foldl_nil,
    lookup_foldl_setDefault, lookup_foldl_setDefault]
  simp only [List.lookup_nil, Option.none_or]
  rfl

theorem readText_chosenValue {setting : SettingValue} {choice : PyValue} :
    readText (chosenValue (some setting) choice).value = readText choice := by
  rw [chosenValue]
  split
  · next heq => exact readText_eq_of_eq heq
  · rfl

/-- Values at known paths that agree but for one text. -/
structure KnownAndAlike (path : String) (settings settings' : List (String × SettingValue)) : Prop where
  known : KnownPaths InstallerConfig.fields (plainValues settings)
  known' : KnownPaths InstallerConfig.fields (plainValues settings')
  agree : AgreeBut path settings settings'
  readable : ∃ setting setting', settings.lookup path = some setting ∧
    settings'.lookup path = some setting' ∧
    (readText setting.value).isSome = (readText setting'.value).isSome

theorem KnownAndAlike.symm {path : String} {settings settings' : List (String × SettingValue)}
    (h : KnownAndAlike path settings settings') : KnownAndAlike path settings' settings := by
  obtain ⟨setting, setting', hlookup, hlookup', halike⟩ := h.readable
  exact ⟨h.known', h.known, h.agree.symm, setting', setting, hlookup', hlookup, halike.symm⟩

theorem KnownAndAlike.applyTuiChoices {path : String} {inherited inherited' : List (String × SettingValue)}
    (h : KnownAndAlike path inherited inherited') {choices : List (String × PyValue)}
    (hchoices : BySetting InstallerConfig.fields choices) :
    KnownAndAlike path (applyTuiChoices inherited choices) (applyTuiChoices inherited' choices) := by
  have hsettings : ∀ path ∈ choices.map Prod.fst,
      ∃ type, ∃ setting : Setting InstallerConfig.fields type, path = setting.path := by
    intro path hpath
    obtain ⟨entry, hentry, rfl⟩ := List.mem_map.mp hpath
    exact hchoices.settings entry hentry
  refine ⟨h.known.applyTuiChoices hchoices.nodup hsettings,
    h.known'.applyTuiChoices hchoices.nodup hsettings, fun path' hne => ?_, ?_⟩
  · rw [applyTuiChoices_eq, lookup_foldl_applyChoice hchoices.nodup _ rfl, applyTuiChoices_eq,
      lookup_foldl_applyChoice hchoices.nodup _ rfl, h.agree path' hne]
  · obtain ⟨setting, setting', hlookup, hlookup', halike⟩ := h.readable
    rw [applyTuiChoices_eq, lookup_foldl_applyChoice hchoices.nodup _ rfl, hlookup,
      applyTuiChoices_eq, lookup_foldl_applyChoice hchoices.nodup _ rfl, hlookup']
    cases choices.lookup path with
    | none => exact ⟨_, _, rfl, rfl, halike⟩
    | some choice =>
      refine ⟨_, _, rfl, rfl, ?_⟩
      rw [readText_chosenValue, readText_chosenValue]

/-- The choices are the same, or none are made. -/
theorem KnownAndAlike.finalValues {path : String} {inherited inherited' : List (String × SettingValue)}
    (h : KnownAndAlike path inherited inherited') (hpath : ∀ entry ∈ setupSettings, entry.2.path ≠ path)
    {tui : Option TuiSetup} (htui : ∀ setup ∈ tui, setup.AsksSettings) :
    (∃ error, finalValues tui inherited = .error error ∧ finalValues tui inherited' = .error error) ∨
      ∃ settings settings', finalValues tui inherited = .ok settings ∧
        finalValues tui inherited' = .ok settings' ∧ KnownAndAlike path settings settings' := by
  cases tui with
  | none => exact .inr ⟨_, _, rfl, rfl, h⟩
  | some setup =>
    have hsetup := htui setup rfl
    have hsame : setup inherited = setup inherited' :=
      hsetup.shown fun entry hentry => h.agree _ (hpath entry hentry)
    simp only [ArchInstaller.finalValues, ← hsame]
    cases hchoices : setup inherited with
    | error error => exact .inl ⟨_, rfl, rfl⟩
    | ok choices => exact .inr ⟨_, _, rfl, rfl, h.applyTuiChoices (hsetup.settings hchoices)⟩

/-- Both are built, and alike but for the text, or neither is. -/
theorem KnownAndAlike.build {settings settings' : List (String × SettingValue)}
    (setting : Setting InstallerConfig.fields .str) (h : KnownAndAlike setting.path settings settings') :
    (∃ error error', buildInstallerConfig (plainValues settings) = .error error ∧
      buildInstallerConfig (plainValues settings') = .error error') ∨
    ∃ config text, buildInstallerConfig (plainValues settings) = .ok config ∧
      buildInstallerConfig (plainValues settings') =
        .ok (InstallerConfig.equiv (setting.set text (InstallerConfig.equiv.symm config))) := by
  have build_set : ∀ {settings settings' : List (String × SettingValue)},
      KnownAndAlike setting.path settings settings' → ∀ {config},
        buildInstallerConfig (plainValues settings) = .ok config → ∃ text,
          buildInstallerConfig (plainValues settings') =
            .ok (InstallerConfig.equiv (setting.set text (InstallerConfig.equiv.symm config))) := by
    intro settings settings' h config hbuild
    obtain ⟨found, found', hlookup, hlookup', halike⟩ := h.readable
    refine h.known.build_set h.known' setting (fun path hne => ?_) ?_ ?_ halike hbuild
    · rw [lookup_plainValues, lookup_plainValues, h.agree path hne]
    · rw [lookup_plainValues, hlookup, Option.map_some]
    · rw [lookup_plainValues, hlookup', Option.map_some]
  cases hbuild : buildInstallerConfig (plainValues settings) with
  | ok config =>
    obtain ⟨text, hbuild'⟩ := build_set h hbuild
    exact .inr ⟨config, text, rfl, hbuild'⟩
  | error error =>
    cases hbuild' : buildInstallerConfig (plainValues settings') with
    | error error' => exact .inl ⟨error, error', rfl, rfl⟩
    | ok config =>
      obtain ⟨text, hbuilt⟩ := build_set h.symm hbuild'
      exact nomatch hbuild.symm.trans hbuilt

/-! ## Files that differ in one value -/

/-- One entry has another value. -/
def Replaced (name : String) (value value' : PyValue) (entries entries' : List (String × PyValue)) :
    Prop :=
  ∃ before after, entries = before ++ (name, value) :: after ∧
    entries' = before ++ (name, value') :: after

/-- The files differ in the value of one secret. -/
inductive DifferIn (name : String) (value value' : PyValue) : PyValue → PyValue → Prop
  | mk (before after : List (String × PyValue)) {secrets secrets' : List (String × PyValue)}
    (h : Replaced name value value' secrets secrets') :
    DifferIn name value value' (.dict (before ++ ("secrets", .dict secrets) :: after))
      (.dict (before ++ ("secrets", .dict secrets') :: after))

section

variable {name path : String} {value value' : PyValue} {entries entries' : List (String × PyValue)}

theorem Replaced.keys (h : Replaced name value value' entries entries') :
    entries.map Prod.fst = entries'.map Prod.fst := by
  obtain ⟨before, after, rfl, rfl⟩ := h
  simp

theorem Replaced.append (h : Replaced name value value' entries entries')
    (before after : List (String × PyValue)) :
    Replaced name value value' (before ++ (entries ++ after)) (before ++ (entries' ++ after)) := by
  obtain ⟨before', after', rfl, rfl⟩ := h
  exact ⟨before ++ before', after' ++ after, by simp, by simp⟩

/-- Both values are there, unless an entry before hides them. -/
theorem Replaced.lookup (h : Replaced name value value' entries entries') :
    AgreeBut name entries entries' ∧ ∃ found found', entries.lookup name = some found ∧
      entries'.lookup name = some found' ∧ (found = found' ∨ found = value ∧ found' = value') := by
  obtain ⟨before, after, rfl, rfl⟩ := h
  refine ⟨fun name' hne => ?_, ?_⟩
  · simp [List.lookup_append, List.lookup_cons, beq_false_of_ne hne]
  · cases hbefore : before.lookup name with
    | some found => exact ⟨found, found, by simp [List.lookup_append, hbefore],
        by simp [List.lookup_append, hbefore], .inl rfl⟩
    | none => exact ⟨value, value', by simp [List.lookup_append, hbefore],
        by simp [List.lookup_append, hbefore], .inr ⟨rfl, rfl⟩⟩

/-- Both fail, or give entries that differ in one value. -/
def ReplacedIn (path : String) (value value' : PyValue)
    (result result' : Except BuildError (List (String × PyValue))) : Prop :=
  (∃ error, result = .error error ∧ result' = .error error) ∨
    ∃ values values', result = .ok values ∧ result' = .ok values' ∧
      Replaced path value value' values values'

/-- The values of one entry. -/
def flattenEntry (declared : Fields) (dotted : String) (entry : String × PyValue) :
    Except BuildError (List (String × PyValue)) :=
  match declared.typeOf entry.1, entry.2 with
  | some (.dataclass inner), .dict entries => flatten (.dict entries) inner (dotted ++ entry.1 ++ ".")
  | _, value => .ok [(dotted ++ entry.1, value)]

theorem flattenEntries_nil (declared : Fields) (dotted : String) :
    flattenEntries [] declared dotted = .ok [] := by
  rw [flattenEntries.eq_def]

theorem flattenEntries_cons (entry : String × PyValue) (entries : List (String × PyValue))
    (declared : Fields) (dotted : String) : flattenEntries (entry :: entries) declared dotted =
      (flattenEntry declared dotted entry).bind fun first =>
        (flattenEntries entries declared dotted).bind fun rest => .ok (first ++ rest) := by
  obtain ⟨name, value⟩ := entry
  rw [flattenEntries.eq_def, flattenEntry]
  cases htype : declared.typeOf name with
  | none => simp only [htype]; rfl
  | some type =>
    cases type with
    | dataclass inner => cases value <;> simp only [htype] <;> rfl
    | _ => simp only [htype]; rfl

theorem flattenEntries_append (before after : List (String × PyValue)) (declared : Fields)
    (dotted : String) : flattenEntries (before ++ after) declared dotted =
      (flattenEntries before declared dotted).bind fun first =>
        (flattenEntries after declared dotted).bind fun rest => .ok (first ++ rest) := by
  induction before with
  | nil =>
    rw [List.nil_append, flattenEntries_nil]
    cases flattenEntries after declared dotted <;> rfl
  | cons entry before ih =>
    rw [List.cons_append, flattenEntries_cons, flattenEntries_cons, ih]
    cases flattenEntry declared dotted entry with
    | error error => rfl
    | ok first =>
      cases flattenEntries before declared dotted with
      | error error => rfl
      | ok second =>
        cases flattenEntries after declared dotted with
        | error error => rfl
        | ok rest => simp [Except.bind]

theorem ReplacedIn.flattenEntries {entry entry' : String × PyValue} {declared : Fields}
    {dotted : String} (h : ReplacedIn path value value' (flattenEntry declared dotted entry)
      (flattenEntry declared dotted entry')) (before after : List (String × PyValue)) :
    ReplacedIn path value value' (flattenEntries (before ++ entry :: after) declared dotted)
      (flattenEntries (before ++ entry' :: after) declared dotted) := by
  simp only [flattenEntries_append, flattenEntries_cons]
  cases ArchInstaller.flattenEntries before declared dotted with
  | error error => exact .inl ⟨error, rfl, rfl⟩
  | ok first =>
    rcases h with ⟨error, herror, herror'⟩ | ⟨values, values', hvalues, hvalues', hreplaced⟩
    · rw [herror, herror']
      exact .inl ⟨error, rfl, rfl⟩
    · rw [hvalues, hvalues']
      cases ArchInstaller.flattenEntries after declared dotted with
      | error error => exact .inl ⟨error, rfl, rfl⟩
      | ok rest => exact .inr ⟨_, _, rfl, rfl, hreplaced.append first rest⟩

/-- Only the names decide whether a mapping is refused. -/
theorem ReplacedIn.flatten {declared : Fields} {dotted : String}
    (hkeys : entries.map Prod.fst = entries'.map Prod.fst)
    (h : ReplacedIn path value value' (ArchInstaller.flattenEntries entries declared dotted)
      (ArchInstaller.flattenEntries entries' declared dotted)) :
    ReplacedIn path value value' (ArchInstaller.flatten (.dict entries) declared dotted)
      (ArchInstaller.flatten (.dict entries') declared dotted) := by
  simp only [ArchInstaller.flatten, hkeys]
  split
  · exact h
  · exact .inl ⟨_, rfl, rfl⟩

/-- The values of files that differ in a secret differ in it. -/
theorem DifferIn.configFileSettingValues {raw raw' : PyValue} (h : DifferIn name value value' raw raw')
    (hname : EncryptedSecretsConfig.fields.typeOf name = some .str) :
    ReplacedIn ("secrets." ++ name) value value' (configFileSettingValues raw)
      (configFileSettingValues raw') := by
  cases h with
  | @mk before after secrets secrets' hreplaced =>
    obtain ⟨before', after', rfl, rfl⟩ := hreplaced
    have hleaf : ∀ value, flattenEntry EncryptedSecretsConfig.fields "secrets." (name, value) =
        .ok [("secrets." ++ name, value)] := by
      intro value
      rw [flattenEntry]
      simp only [hname]
    have hinner : ReplacedIn ("secrets." ++ name) value value'
        (flattenEntry EncryptedSecretsConfig.fields "secrets." (name, value))
        (flattenEntry EncryptedSecretsConfig.fields "secrets." (name, value')) := by
      rw [hleaf, hleaf]
      exact .inr ⟨_, _, rfl, rfl, [], [], rfl, rfl⟩
    have hsection : (InstallerConfig.fields.discard "credentials").typeOf "secrets" =
        some (.dataclass EncryptedSecretsConfig.fields) := by
      simp [Fields.discard, Fields.typeOf]
    refine ReplacedIn.flatten (by simp) (ReplacedIn.flattenEntries ?_ before after)
    rw [flattenEntry, flattenEntry]
    simp only [hsection]
    exact ReplacedIn.flatten (by simp) (hinner.flattenEntries before' after')

end

/-! ## The two encrypted passwords -/

/-- The passwords of `ENCRYPTED_CREDENTIALS`. -/
inductive EncryptedPassword where
  | luks
  | user
  deriving DecidableEq

namespace EncryptedPassword

def environmentVariable : EncryptedPassword → String
  | luks => "LUKS_PASSWORD"
  | user => "USER_PASSWORD"

/-- The name in the section `secrets`. -/
def name : EncryptedPassword → String
  | luks => "luks_password_encrypted"
  | user => "user_password_encrypted"

def credentialPath : EncryptedPassword → String
  | luks => "credentials.luks_password"
  | user => "credentials.user_password"

def secretName : EncryptedPassword → String
  | luks => luksPasswordSecret
  | user => userPasswordSecret

/-- The configuration without what is stored of the password. -/
def removed (password : EncryptedPassword) (config : InstallerConfig) : InstallerConfig :=
  match password with
  | luks => { config with secrets := { config.secrets with luksPasswordEncrypted := "" } }
  | user => { config with secrets := { config.secrets with userPasswordEncrypted := "" } }

/-- The setting that stores the password. -/
def setting : EncryptedPassword → Setting InstallerConfig.fields .str
  | luks => .later <| .later <| .later <| .later <| .later <| .later <| .later <| .later <| .later <|
    .later <| .later <| .later <| .within (.here rfl)
  | user => .later <| .later <| .later <| .later <| .later <| .later <| .later <| .later <| .later <|
    .later <| .later <| .later <| .within (.later (.here rfl))

theorem path_setting (password : EncryptedPassword) :
    password.setting.path = "secrets." ++ password.name := by
  cases password <;> decide

theorem typeOf_name : ∀ password : EncryptedPassword,
    EncryptedSecretsConfig.fields.typeOf password.name = some .str
  | luks | user => by simp [name, Fields.typeOf]

theorem removed_set (password : EncryptedPassword) (text : String) (config : InstallerConfig) :
    password.removed (InstallerConfig.equiv (password.setting.set text
      (InstallerConfig.equiv.symm config))) = password.removed config := by
  cases password <;>
    simp [removed, setting, Setting.set, InstallerConfig.equiv, EncryptedSecretsConfig.equiv]

end EncryptedPassword

/-! ## Unlocking -/

section

variable {cryptography : Cryptography} {unicode : Unicode} {environment : String → Option String}
  {prompt : Except AssemblyError String} {tui : Option TuiSetup}

/-- A stored value is empty or opens with the key. -/
def Unlocks (cryptography : Cryptography) (unicode : Unicode) (secretsKey : String)
    (password : EncryptedPassword) (value : PyValue) : Prop :=
  value.truth → ∃ plaintext,
    decryptValue cryptography unicode value secretsKey password.secretName = .ok plaintext

/-- The password that a stored value gives. -/
def unlockedPassword (cryptography : Cryptography) (unicode : Unicode) (secretsKey : String)
    (password : EncryptedPassword) (value : PyValue) : Except SecretError (List (String × PyValue)) :=
  if value.truth then do
    let plaintext ← decryptValue cryptography unicode value secretsKey password.secretName
    return [(password.credentialPath, .str plaintext)]
  else .ok []

theorem decryptedCredentials_eq (values : List (String × PyValue)) (secretsKey : String) :
    decryptedCredentials cryptography unicode values secretsKey =
      (unlockedPassword cryptography unicode secretsKey .luks
        (fileValue values ("secrets." ++ EncryptedPassword.luks.name))).bind fun first =>
      (unlockedPassword cryptography unicode secretsKey .user
        (fileValue values ("secrets." ++ EncryptedPassword.user.name))).bind fun rest =>
          .ok (first ++ rest) := by
  have hluks : "secrets." ++ EncryptedPassword.luks.name = "secrets.luks_password_encrypted" := by
    decide
  have huser : "secrets." ++ EncryptedPassword.user.name = "secrets.user_password_encrypted" := by
    decide
  simp only [decryptedCredentials, encryptedCredentials, List.foldlM_cons, List.foldlM_nil,
    decryptCredential, bind_pure, unlockedPassword, hluks, huser, EncryptedPassword.secretName,
    EncryptedPassword.credentialPath]
  generalize fileValue values "secrets.luks_password_encrypted" = value
  generalize fileValue values "secrets.user_password_encrypted" = value'
  cases decryptValue cryptography unicode value secretsKey luksPasswordSecret <;>
    cases decryptValue cryptography unicode value' secretsKey userPasswordSecret <;>
      by_cases htruth : value.truth <;> by_cases htruth' : value'.truth <;>
        simp only [htruth, htruth', if_true, Bool.false_eq_true, if_false] <;> rfl

/-- The password at its path, or nothing. -/
def IsPassword (password : EncryptedPassword) (unlocked : List (String × PyValue)) : Prop :=
  unlocked = [] ∨ ∃ text, unlocked = [(password.credentialPath, .str text)]

/-- What is unlocked are passwords, at most one of each. -/
structure ArePasswords (unlocked : List (String × PyValue)) : Prop where
  nodup : (unlocked.map Prod.fst).Nodup
  credentials : ∀ path ∈ unlocked.map Prod.fst, ∃ password : EncryptedPassword,
    path = password.credentialPath

theorem unlockedPassword_cases (secretsKey : String) (password : EncryptedPassword) (value : PyValue) :
    (∃ error, unlockedPassword cryptography unicode secretsKey password value = .error error ∧
      ¬ Unlocks cryptography unicode secretsKey password value) ∨
    ∃ unlocked, unlockedPassword cryptography unicode secretsKey password value = .ok unlocked ∧
      Unlocks cryptography unicode secretsKey password value ∧ IsPassword password unlocked := by
  rw [unlockedPassword]
  by_cases htruth : value.truth
  · rw [if_pos htruth]
    cases hvalue : decryptValue cryptography unicode value secretsKey password.secretName with
    | error error =>
      refine .inl ⟨error, rfl, fun hunlocks => ?_⟩
      obtain ⟨plaintext, hplaintext⟩ := hunlocks htruth
      exact nomatch hvalue.symm.trans hplaintext
    | ok plaintext => exact .inr ⟨_, rfl, fun _ => ⟨plaintext, hvalue⟩, .inr ⟨plaintext, rfl⟩⟩
  · rw [if_neg htruth]
    exact .inr ⟨[], rfl, fun h => absurd h htruth, .inl rfl⟩

/-- Values that both unlock, or both do not. -/
theorem unlockedPassword_alike {secretsKey : String} {password : EncryptedPassword}
    {value value' : PyValue} (halike : Unlocks cryptography unicode secretsKey password value ↔
      Unlocks cryptography unicode secretsKey password value') :
    (∃ error error', unlockedPassword cryptography unicode secretsKey password value = .error error ∧
      unlockedPassword cryptography unicode secretsKey password value' = .error error') ∨
    ∃ unlocked unlocked', unlockedPassword cryptography unicode secretsKey password value =
        .ok unlocked ∧
      unlockedPassword cryptography unicode secretsKey password value' = .ok unlocked' ∧
      IsPassword password unlocked ∧ IsPassword password unlocked' := by
  rcases unlockedPassword_cases secretsKey password value with
    ⟨error, herror, hnot⟩ | ⟨unlocked, hok, hunlocks, hpassword⟩
  · rcases unlockedPassword_cases secretsKey password value' with
      ⟨error', herror', -⟩ | ⟨-, -, hunlocks, -⟩
    · exact .inl ⟨error, error', herror, herror'⟩
    · exact absurd (halike.mpr hunlocks) hnot
  · rcases unlockedPassword_cases secretsKey password value' with
      ⟨-, -, hnot⟩ | ⟨unlocked', hok', -, hpassword'⟩
    · exact absurd (halike.mp hunlocks) hnot
    · exact .inr ⟨unlocked, unlocked', hok, hok', hpassword, hpassword'⟩

theorem arePasswords_append {first rest : List (String × PyValue)} (hfirst : IsPassword .luks first)
    (hrest : IsPassword .user rest) : ArePasswords (first ++ rest) := by
  rcases hfirst with rfl | ⟨text, rfl⟩ <;> rcases hrest with rfl | ⟨text', rfl⟩
  · exact ⟨by simp, by simp⟩
  · exact ⟨by simp, by simp⟩
  · exact ⟨by simp, by simp⟩
  · refine ⟨by simp [EncryptedPassword.credentialPath], ?_⟩
    simp only [List.cons_append, List.nil_append, List.map_cons, List.map_nil, List.forall_mem_cons]
    exact ⟨⟨.luks, rfl⟩, ⟨.user, rfl⟩, nofun⟩

theorem lookup_password {password : EncryptedPassword} {unlocked : List (String × PyValue)}
    (h : IsPassword password unlocked) {path : String} (hne : path ≠ password.credentialPath) :
    unlocked.lookup path = none := by
  rcases h with rfl | ⟨text, rfl⟩
  · rfl
  · rw [List.lookup_cons, beq_false_of_ne hne]
    rfl

/-- Both are unlocked, alike but for one password, or neither is. -/
theorem decryptedCredentials_alike {password : EncryptedPassword} {values values' : List (String × PyValue)}
    {secretsKey : String} (hagree : AgreeBut ("secrets." ++ password.name) values values')
    (halike : Unlocks cryptography unicode secretsKey password
        (fileValue values ("secrets." ++ password.name)) ↔
      Unlocks cryptography unicode secretsKey password
        (fileValue values' ("secrets." ++ password.name))) :
    (∃ error error', decryptedCredentials cryptography unicode values secretsKey = .error error ∧
      decryptedCredentials cryptography unicode values' secretsKey = .error error') ∨
    ∃ unlocked unlocked', decryptedCredentials cryptography unicode values secretsKey = .ok unlocked ∧
      decryptedCredentials cryptography unicode values' secretsKey = .ok unlocked' ∧
      ArePasswords unlocked ∧ ArePasswords unlocked' ∧
      AgreeBut password.credentialPath unlocked unlocked' := by
  rw [decryptedCredentials_eq, decryptedCredentials_eq]
  cases password with
  | luks =>
    have hother : fileValue values ("secrets." ++ EncryptedPassword.user.name) =
        fileValue values' ("secrets." ++ EncryptedPassword.user.name) := by
      rw [fileValue, fileValue, hagree _ (by decide)]
    rw [hother]
    rcases unlockedPassword_alike halike with
      ⟨error, error', herror, herror'⟩ | ⟨first, first', hfirst, hfirst', hpassword, hpassword'⟩
    · exact .inl ⟨error, error', by rw [herror]; rfl, by rw [herror']; rfl⟩
    · rw [hfirst, hfirst']
      rcases unlockedPassword_cases secretsKey .user
        (fileValue values' ("secrets." ++ EncryptedPassword.user.name)) with
        ⟨error, herror, -⟩ | ⟨rest, hrest, -, hrestPassword⟩
      · exact .inl ⟨error, error, by rw [herror]; rfl, by rw [herror]; rfl⟩
      · refine .inr ⟨first ++ rest, first' ++ rest, by rw [hrest]; rfl, by rw [hrest]; rfl,
          arePasswords_append hpassword hrestPassword, arePasswords_append hpassword' hrestPassword,
          fun path hne => ?_⟩
        rw [List.lookup_append, List.lookup_append, lookup_password hpassword hne,
          lookup_password hpassword' hne]
  | user =>
    have hother : fileValue values ("secrets." ++ EncryptedPassword.luks.name) =
        fileValue values' ("secrets." ++ EncryptedPassword.luks.name) := by
      rw [fileValue, fileValue, hagree _ (by decide)]
    rw [hother]
    rcases unlockedPassword_cases secretsKey .luks
      (fileValue values' ("secrets." ++ EncryptedPassword.luks.name)) with
      ⟨error, herror, -⟩ | ⟨first, hfirst, -, hpassword⟩
    · exact .inl ⟨error, error, by rw [herror]; rfl, by rw [herror]; rfl⟩
    · rw [hfirst]
      rcases unlockedPassword_alike halike with
        ⟨error, error', herror, herror'⟩ | ⟨rest, rest', hrest, hrest', hpassword', hpassword''⟩
      · exact .inl ⟨error, error', by rw [herror]; rfl, by rw [herror']; rfl⟩
      · refine .inr ⟨first ++ rest, first ++ rest', by rw [hrest]; rfl, by rw [hrest']; rfl,
          arePasswords_append hpassword hpassword', arePasswords_append hpassword hpassword'',
          fun path hne => ?_⟩
        rw [List.lookup_append, List.lookup_append, lookup_password hpassword' hne,
          lookup_password hpassword'' hne]

/-- Without encrypted passwords, none are decrypted. -/
theorem decryptedCredentials_of_none {values : List (String × PyValue)}
    (h : hasEncryptedCredentials values = false) (secretsKey : String) :
    decryptedCredentials cryptography unicode values secretsKey = .ok [] := by
  simp only [hasEncryptedCredentials, encryptedCredentials, List.any_cons, List.any_nil,
    Bool.or_false, Bool.or_eq_false_iff] at h
  simp only [decryptedCredentials, encryptedCredentials, List.foldlM_cons, List.foldlM_nil,
    decryptCredential, h, Bool.false_eq_true, if_false]
  rfl

theorem unlockedPasswords_eq {environmentValues : List (String × PyValue)} {secretsKey : String}
    (henvironment : credentialsFromEnvironment environmentValues = false)
    (hkey : secretsKeyToUse environment prompt tui = .ok secretsKey)
    (values : List (String × PyValue)) :
    unlockedPasswords cryptography unicode environment prompt tui values environmentValues =
      if secretsKey = "" then .ok []
      else (decryptedCredentials cryptography unicode values secretsKey).mapError .secret := by
  rw [unlockedPasswords, henvironment, Bool.or_false]
  cases hvalues : hasEncryptedCredentials values with
  | false =>
    rw [decryptedCredentials_of_none hvalues, Bool.not_false, if_pos rfl]
    exact (ite_self _).symm
  | true =>
    rw [hkey]
    rfl

/-- The stored values are treated alike: both are texts, or neither is, and nothing is unlocked, or
both unlock, or neither does. -/
structure TreatedAlike (cryptography : Cryptography) (unicode : Unicode)
    (environment : String → Option String) (prompt : Except AssemblyError String)
    (tui : Option TuiSetup) (password : EncryptedPassword) (value value' : PyValue) : Prop where
  readable : (readText value).isSome = (readText value').isSome
  unlocked : (∀ password : EncryptedPassword,
      rawVariable environment password.environmentVariable ≠ "") ∨
    ∃ secretsKey, secretsKeyToUse environment prompt tui = .ok secretsKey ∧ (secretsKey = "" ∨
      (Unlocks cryptography unicode secretsKey password value ↔
        Unlocks cryptography unicode secretsKey password value'))

theorem unlockedPasswords_alike {environmentValues : List (String × PyValue)}
    {password : EncryptedPassword} {values values' : List (String × PyValue)} {value value' : PyValue}
    (hagree : AgreeBut ("secrets." ++ password.name) values values')
    (hvalue : values.lookup ("secrets." ++ password.name) = some value)
    (hvalue' : values'.lookup ("secrets." ++ password.name) = some value')
    (halike : credentialsFromEnvironment environmentValues ∨
      ∃ secretsKey, secretsKeyToUse environment prompt tui = .ok secretsKey ∧ (secretsKey = "" ∨
        (Unlocks cryptography unicode secretsKey password value ↔
          Unlocks cryptography unicode secretsKey password value'))) :
    (∃ error error', unlockedPasswords cryptography unicode environment prompt tui values
        environmentValues = .error error ∧
      unlockedPasswords cryptography unicode environment prompt tui values' environmentValues =
        .error error') ∨
    ∃ unlocked unlocked', unlockedPasswords cryptography unicode environment prompt tui values
        environmentValues = .ok unlocked ∧
      unlockedPasswords cryptography unicode environment prompt tui values' environmentValues =
        .ok unlocked' ∧
      ArePasswords unlocked ∧ ArePasswords unlocked' ∧
      AgreeBut password.credentialPath unlocked unlocked' := by
  have hnone : ArePasswords [] := ⟨List.nodup_nil, nofun⟩
  by_cases henvironment : credentialsFromEnvironment environmentValues
  · simp only [unlockedPasswords, henvironment, Bool.or_true, if_true]
    exact .inr ⟨[], [], rfl, rfl, hnone, hnone, fun _ _ => rfl⟩
  · obtain ⟨secretsKey, hkey, hunlocks⟩ := halike.resolve_left henvironment
    rw [Bool.not_eq_true] at henvironment
    rw [unlockedPasswords_eq henvironment hkey, unlockedPasswords_eq henvironment hkey]
    by_cases hempty : secretsKey = ""
    · rw [if_pos hempty, if_pos hempty]
      exact .inr ⟨[], [], rfl, rfl, hnone, hnone, fun _ _ => rfl⟩
    · rw [if_neg hempty, if_neg hempty]
      have hfound : fileValue values ("secrets." ++ password.name) = value := by
        rw [fileValue, hvalue, Option.getD_some]
      have hfound' : fileValue values' ("secrets." ++ password.name) = value' := by
        rw [fileValue, hvalue', Option.getD_some]
      rcases decryptedCredentials_alike hagree
        (by rw [hfound, hfound']; exact hunlocks.resolve_left hempty) with
        ⟨error, error', herror, herror'⟩ | ⟨unlocked, unlocked', hok, hok', hpasswords⟩
      · exact .inl ⟨_, _, by rw [herror]; rfl, by rw [herror']; rfl⟩
      · exact .inr ⟨unlocked, unlocked', by rw [hok]; rfl, by rw [hok']; rfl, hpasswords⟩

/-! ## The values of the environment -/

theorem keys_settingValues {paths : List (String × String)} {values : List (String × PyValue)}
    (h : settingValues unicode environment paths = .ok values) :
    values.map Prod.fst =
      (paths.filter fun entry => rawVariable environment entry.1 != "").map Prod.snd := by
  induction paths generalizing values with
  | nil =>
    cases h
    rfl
  | cons entry paths ih =>
    obtain ⟨name, settingPath⟩ := entry
    rw [settingValues] at h
    split at h
    · next hempty => rw [List.filter_cons_of_neg (by simpa using hempty), ih h]
    · next hset =>
      rw [List.filter_cons_of_pos (by simpa using hset), List.map_cons]
      cases hvalue : readSettingText unicode settingPath (rawVariable environment name) name with
      | error error =>
        rw [hvalue] at h
        cases h
      | ok value =>
        rw [hvalue] at h
        cases hrest : settingValues unicode environment paths with
        | error error =>
          rw [hrest] at h
          cases h
        | ok rest =>
          rw [hrest] at h
          cases h
          rw [List.map_cons, ih hrest]

theorem nodup_environmentVariablePaths : (environmentVariablePaths.map Prod.snd).Nodup := by
  decide

theorem isSettingPath_environmentVariablePaths :
    ∀ entry ∈ environmentVariablePaths, isSettingPath (fun _ => true) entry.2 := by
  decide

/-- The values of the environment are those of settings. -/
theorem bySetting_settingValues {values : List (String × PyValue)}
    (h : settingValues unicode environment environmentVariablePaths = .ok values) :
    BySetting InstallerConfig.fields values := by
  have hkeys := keys_settingValues h
  refine ⟨fun entry hentry => ?_, ?_⟩
  · have hkey := List.mem_map_of_mem (f := Prod.fst) hentry
    rw [hkeys] at hkey
    obtain ⟨entry', hentry', hpath⟩ := List.mem_map.mp hkey
    obtain ⟨type, -, setting, hsetting⟩ := setting_of_isSettingPath
      (isSettingPath_environmentVariablePaths entry' (List.mem_of_mem_filter hentry'))
    exact ⟨type, setting, hpath.symm.trans hsetting⟩
  · rw [hkeys]
    exact nodup_environmentVariablePaths.sublist (List.filter_sublist.map _)

theorem mem_environmentVariablePaths (password : EncryptedPassword) :
    (password.environmentVariable, password.credentialPath) ∈ environmentVariablePaths := by
  cases password <;> decide

/-- A variable that is set gives its setting a value. -/
theorem isSome_lookup_settingValues {values : List (String × PyValue)}
    (h : settingValues unicode environment environmentVariablePaths = .ok values)
    {password : EncryptedPassword}
    (hset : rawVariable environment password.environmentVariable ≠ "") :
    (values.lookup password.credentialPath).isSome := by
  have hmem : password.credentialPath ∈ values.map Prod.fst := by
    rw [keys_settingValues h]
    exact List.mem_map.mpr ⟨_, List.mem_filter.mpr
      ⟨mem_environmentVariablePaths password, by simpa using hset⟩, rfl⟩
  obtain ⟨entry, hentry, hpath⟩ := List.mem_map.mp hmem
  rw [← hpath, lookup_of_mem (bySetting_settingValues h).nodup hentry]
  rfl

theorem secretPath_not_mem (password : EncryptedPassword) :
    (∀ entry ∈ setupSettings, entry.2.path ≠ "secrets." ++ password.name) ∧
      "secrets." ++ password.name ∉ environmentVariablePaths.map Prod.snd := by
  cases password <;> decide

/-! ## The law -/

/-- Both runs raise, or they return configurations that are equal but for what is stored of the
password. -/
def SameButStored (password : EncryptedPassword)
    (result result' : Except AssemblyError InstallerConfig) : Prop :=
  (∃ error error', result = .error error ∧ result' = .error error') ∨
    ∃ config config', result = .ok config ∧ result' = .ok config' ∧
      password.removed config = password.removed config'

theorem mem_of_mem_assign {name : String} {value : PyValue} {entries : List (String × PyValue)}
    {entry : String × PyValue} (h : entry ∈ assign name value entries) :
    entry = (name, value) ∨ entry ∈ entries := by
  induction entries with
  | nil => exact .inl (List.mem_singleton.mp h)
  | cons entry' entries ih =>
    rw [assign] at h
    split at h
    · next hname =>
      rcases List.mem_cons.mp h with rfl | h
      · exact .inl (by rw [hname])
      · exact .inr (List.mem_cons_of_mem _ h)
    · rcases List.mem_cons.mp h with rfl | h
      · exact .inr List.mem_cons_self
      · exact (ih h).imp_right (List.mem_cons_of_mem _)

theorem mem_of_mem_merge {entries values : List (String × PyValue)} {entry : String × PyValue}
    (h : entry ∈ merge entries values) : entry ∈ entries ∨ entry ∈ values := by
  induction values generalizing entries with
  | nil => exact .inl h
  | cons value values ih =>
    rcases ih h with hentry | hentry
    · rcases mem_of_mem_assign hentry with rfl | hentry
      · exact .inr List.mem_cons_self
      · exact .inl hentry
    · exact .inr (List.mem_cons_of_mem _ hentry)

theorem credentialPath_setting (password : EncryptedPassword) :
    ∃ setting : Setting InstallerConfig.fields .str, password.credentialPath = setting.path :=
  BySetting.credentialPaths_settings (by cases password <;> decide)

theorem credentialPath_ne (password password' : EncryptedPassword) :
    password'.credentialPath ≠ "secrets." ++ password.name := by
  cases password <;> cases password' <;> decide

/-- The inherited values differ in what is stored of the password. -/
theorem alikeBut_inherited {password : EncryptedPassword}
    {environmentValues values values' unlocked unlocked' : List (String × PyValue)} {raw raw' : PyValue}
    (henvironment : settingValues unicode environment environmentVariablePaths = .ok environmentValues)
    (hset : rawVariable environment password.environmentVariable ≠ "")
    (hfile : configFileSettingValues raw = .ok values)
    (hfile' : configFileSettingValues raw' = .ok values')
    (hagree : AgreeBut ("secrets." ++ password.name) values values') {value value' : PyValue}
    (hvalue : values.lookup ("secrets." ++ password.name) = some value)
    (hvalue' : values'.lookup ("secrets." ++ password.name) = some value')
    (hreadable : (readText value).isSome = (readText value').isSome)
    (hpasswords : ArePasswords unlocked) (hpasswords' : ArePasswords unlocked')
    (hunlocked : AgreeBut password.credentialPath unlocked unlocked') :
    KnownAndAlike ("secrets." ++ password.name)
      (inheritSettingValues (valuesBySource environmentValues (merge values unlocked)))
      (inheritSettingValues (valuesBySource environmentValues (merge values' unlocked'))) := by
  have hsettings := bySetting_settingValues henvironment
  have known : ∀ {raw : PyValue} {values unlocked : List (String × PyValue)},
      configFileSettingValues raw = .ok values → ArePasswords unlocked →
        KnownPaths InstallerConfig.fields (plainValues
          (inheritSettingValues (valuesBySource environmentValues (merge values unlocked)))) := by
    intro raw values unlocked hfile hpasswords
    refine knownPaths_inheritSettingValues hsettings fun entry hentry => ?_
    rcases mem_of_mem_merge hentry with hentry | hentry
    · exact known_flatten raw fileFields_under hfile entry hentry
    · obtain ⟨password', hpath⟩ := hpasswords.credentials _ (List.mem_map_of_mem hentry)
      obtain ⟨setting, hsetting⟩ := credentialPath_setting password'
      exact .inl ⟨_, setting, hpath.trans hsetting⟩
  -- the environment says nothing of what is stored
  have hnone : environmentValues.lookup ("secrets." ++ password.name) = none := by
    rw [List.lookup_eq_none_iff]
    intro entry hentry
    rw [bne_iff_ne]
    rintro heq
    have hmem := List.mem_map_of_mem (f := Prod.fst) hentry
    rw [keys_settingValues henvironment, ← heq] at hmem
    obtain ⟨entry', hentry', hpath⟩ := List.mem_map.mp hmem
    exact (secretPath_not_mem password).2
      (List.mem_map.mpr ⟨entry', List.mem_of_mem_filter hentry', hpath⟩)
  have hstored : ∀ {values unlocked : List (String × PyValue)}, ArePasswords unlocked →
      (merge values unlocked).lookup ("secrets." ++ password.name) =
        values.lookup ("secrets." ++ password.name) := by
    intro values unlocked hpasswords
    rw [lookup_merge hpasswords.nodup, List.lookup_eq_none_iff.mpr, Option.none_or]
    intro entry hentry
    rw [bne_iff_ne]
    intro heq
    obtain ⟨password', hpath⟩ := hpasswords.credentials _ (List.mem_map_of_mem hentry)
    exact credentialPath_ne password password' (hpath.symm.trans heq.symm)
  refine ⟨known hfile hpasswords, known hfile' hpasswords', fun path hne => ?_, ?_⟩
  · rw [lookup_inherited, lookup_inherited]
    by_cases hcredential : path = password.credentialPath
    · -- the environment's password comes first
      obtain ⟨provided, hprovided⟩ := Option.isSome_iff_exists.mp
        (isSome_lookup_settingValues henvironment hset)
      rw [hcredential, hprovided]
      rfl
    · rw [lookup_merge hpasswords.nodup, lookup_merge hpasswords'.nodup, hunlocked path hcredential,
        hagree path hne]
  · refine ⟨⟨value, .configFile⟩, ⟨value', .configFile⟩, ?_, ?_, hreadable⟩
    · rw [lookup_inherited, hnone, hstored hpasswords, hvalue]
      rfl
    · rw [lookup_inherited, hnone, hstored hpasswords', hvalue']
      rfl

theorem DifferIn.readConfigFile {name : String} {value value' raw raw' : PyValue}
    (h : DifferIn name value value' raw raw') :
    readConfigFile raw = .ok raw ∧ readConfigFile raw' = .ok raw' := by
  cases h
  exact ⟨rfl, rfl⟩

theorem TreatedAlike.refl_of {password : EncryptedPassword} {value value' found found' : PyValue}
    (h : TreatedAlike cryptography unicode environment prompt tui password value value')
    (hfound : found = found' ∨ found = value ∧ found' = value') :
    TreatedAlike cryptography unicode environment prompt tui password found found' := by
  rcases hfound with rfl | ⟨rfl, rfl⟩
  · refine ⟨rfl, h.unlocked.imp_right fun ⟨secretsKey, hkey, _⟩ => ?_⟩
    exact ⟨secretsKey, hkey, .inr Iff.rfl⟩
  · exact h

/-- What is left when the environment is read. -/
theorem assembleInstallerConfig_eq {environmentValues : List (String × PyValue)} {raw : PyValue}
    (henvironment : settingValues unicode environment environmentVariablePaths = .ok environmentValues)
    (hraw : readConfigFile raw = .ok raw) :
    assembleInstallerConfig cryptography unicode environment prompt tui raw =
      ((configFileSettingValues raw).mapError .file).bind fun values =>
        (unlockedPasswords cryptography unicode environment prompt tui values environmentValues).bind
          fun unlocked =>
            (finalValues tui (inheritSettingValues
              (valuesBySource environmentValues (merge values unlocked)))).bind fun chosen =>
                (buildInstallerConfig (plainValues chosen)).mapError .ofBuild := by
  rw [assembleInstallerConfig, henvironment, hraw]
  rfl

/-- **An overridden password has no influence** where what is stored of it is treated alike. -/
theorem overriddenPassword_sameButStored (cryptography : Cryptography) (unicode : Unicode)
    (environment : String → Option String) (prompt : Except AssemblyError String)
    (tui : Option TuiSetup) (htui : ∀ setup ∈ tui, setup.AsksSettings) (password : EncryptedPassword)
    (hset : rawVariable environment password.environmentVariable ≠ "") {raw raw' value value' : PyValue}
    (hdiffer : DifferIn password.name value value' raw raw')
    (halike : TreatedAlike cryptography unicode environment prompt tui password value value') :
    SameButStored password
      (assembleInstallerConfig cryptography unicode environment prompt tui raw)
      (assembleInstallerConfig cryptography unicode environment prompt tui raw') := by
  cases henvironment : settingValues unicode environment environmentVariablePaths with
  | error error =>
    rw [assembleInstallerConfig, assembleInstallerConfig, henvironment]
    exact .inl ⟨_, _, rfl, rfl⟩
  | ok environmentValues =>
    rw [assembleInstallerConfig_eq henvironment hdiffer.readConfigFile.1,
      assembleInstallerConfig_eq henvironment hdiffer.readConfigFile.2]
    rcases hdiffer.configFileSettingValues password.typeOf_name with
      ⟨error, herror, herror'⟩ | ⟨values, values', hfile, hfile', hreplaced⟩
    · rw [herror, herror']
      exact .inl ⟨_, _, rfl, rfl⟩
    · rw [hfile, hfile']
      obtain ⟨hagree, found, found', hfound, hfound', hsame⟩ := hreplaced.lookup
      have htreated := halike.refl_of hsame
      have hboth : credentialsFromEnvironment environmentValues ∨
          ∃ secretsKey, secretsKeyToUse environment prompt tui = .ok secretsKey ∧ (secretsKey = "" ∨
            (Unlocks cryptography unicode secretsKey password found ↔
              Unlocks cryptography unicode secretsKey password found')) := by
        refine htreated.unlocked.imp_left fun hall => ?_
        rw [credentialsFromEnvironment, Bool.and_eq_true]
        exact ⟨isSome_lookup_settingValues henvironment (hall .luks),
          isSome_lookup_settingValues henvironment (hall .user)⟩
      rcases unlockedPasswords_alike hagree hfound hfound' hboth with
        ⟨error, error', herror, herror'⟩ |
        ⟨unlocked, unlocked', hok, hok', hpasswords, hpasswords', hunlocked⟩
      · exact .inl ⟨error, error', by simp only [Except.mapError, Except.bind, herror],
          by simp only [Except.mapError, Except.bind, herror']⟩
      · have halikeBut := alikeBut_inherited henvironment hset hfile hfile' hagree hfound hfound'
          htreated.readable hpasswords hpasswords' hunlocked
        simp only [Except.mapError, Except.bind, hok, hok']
        rcases halikeBut.finalValues (secretPath_not_mem password).1 htui with
          ⟨error, herror, herror'⟩ | ⟨settings, settings', hfinal, hfinal', hsettings⟩
        · exact .inl ⟨error, error, by rw [herror], by rw [herror']⟩
        · rw [hfinal, hfinal']
          rw [← password.path_setting] at hsettings
          rcases hsettings.build with ⟨error, error', herror, herror'⟩ | ⟨config, text, hbuild, hbuild'⟩
          · exact .inl ⟨.ofBuild error, .ofBuild error', by simp only [herror], by simp only [herror']⟩
          · exact .inr ⟨config, _, by simp only [hbuild], by simp only [hbuild'],
              (password.removed_set text config).symm⟩

end

/-! ## One environment -/

/-- A file with a value for every setting, that stores this for the LUKS password. -/
def storedFile (stored : String) : PyValue :=
  .dict (exportedFields.plain sampleConfig.exported ++ ("secrets", .dict
    [("luks_password_encrypted", .str stored), ("user_password_encrypted", .str "")]) :: [])

theorem differIn_storedFile (stored stored' : String) :
    DifferIn EncryptedPassword.luks.name (.str stored) (.str stored') (storedFile stored)
      (storedFile stored') :=
  .mk _ [] ⟨[], [("user_password_encrypted", .str "")], rfl, rfl⟩

/-- An environment with these variables. -/
def environmentOf (entries : List (String × String)) (name : String) : Option String :=
  entries.lookup name

theorem overriddenPassword_sameButStored_both : SameButStored .luks
    (assembleInstallerConfig sampleCryptography unicode14
      (environmentOf [("LUKS_PASSWORD", "disk"), ("USER_PASSWORD", "user")]) (.error .noTerminal) none
      (storedFile "old-secret"))
    (assembleInstallerConfig sampleCryptography unicode14
      (environmentOf [("LUKS_PASSWORD", "disk"), ("USER_PASSWORD", "user")]) (.error .noTerminal) none
      (storedFile "")) :=
  overriddenPassword_sameButStored sampleCryptography unicode14 _ _ none (fun _ h => nomatch h) .luks
    (by decide) (differIn_storedFile _ _)
    ⟨rfl, .inl fun password => by cases password <;> decide⟩

/-- The values of the file. -/
def storedValues (stored : String) : List (String × PyValue) :=
  exportedFields.entries "" sampleConfig.exported ++
    [("secrets.luks_password_encrypted", .str stored), ("secrets.user_password_encrypted", .str "")]

theorem configFileSettingValues_storedFile (stored : String) :
    configFileSettingValues (storedFile stored) = .ok (storedValues stored) := by
  have hkeys : sorted (((exportedFields.plain sampleConfig.exported ++ [("secrets", PyValue.dict
      [("luks_password_encrypted", .str stored), ("user_password_encrypted", .str "")])]).map
        Prod.fst).filter (· ∉ (InstallerConfig.fields.discard "credentials").names)) = [] := by
    simp only [List.map_append, Fields.keys_plain, List.map_cons, List.map_nil]
    decide
  have hsection : (InstallerConfig.fields.discard "credentials").typeOf "secrets" =
      some (.dataclass EncryptedSecretsConfig.fields) := by
    simp [Fields.discard, Fields.typeOf]
  rw [configFileSettingValues, storedFile, flatten]
  simp only [hkeys, if_true]
  rw [flattenEntries_append, flattenEntries_plain exportedFields_wellFormed exportedFields_declaredIn,
    flattenEntries_cons, flattenEntry]
  simp only [hsection]
  rfl

/-- An environment with the LUKS password and the secrets key. -/
def keyEnvironment : String → Option String :=
  environmentOf [("LUKS_PASSWORD", "disk"), ("ARCH_INSTALLER_SECRETS_KEY", "key")]

/-- The only value is a text. -/
def GivesText (path text : String) : Except ConfigurationError (List (String × PyValue)) → Bool
  | .ok [(path', .str text')] => path' == path && text' == text
  | _ => false

theorem eq_of_givesText {path text : String} {values : Except ConfigurationError (List (String × PyValue))}
    (h : GivesText path text values = true) : values = .ok [(path, .str text)] := by
  revert h
  fun_cases GivesText path text values with
  | case1 path' text' =>
    simp only [Bool.and_eq_true, beq_iff_eq]
    rintro ⟨rfl, rfl⟩
    rfl
  | case2 => simp

theorem settingValues_keyEnvironment :
    settingValues unicode14 keyEnvironment environmentVariablePaths =
      .ok [("credentials.luks_password", .str "disk")] :=
  eq_of_givesText (by decide)

/-- The configuration that the file and the environment give. -/
def storedConfig (stored : String) : InstallerConfig :=
  { sampleConfig with
    secrets := { luksPasswordEncrypted := stored, userPasswordEncrypted := "" }
    credentials := { luksPassword := "disk", userPassword := "", sourceLuksPassword := "" } }

theorem entries_storedConfig (stored : String) :
    InstallerConfig.fields.entries "" (InstallerConfig.equiv.symm (storedConfig stored)) =
      storedValues stored ++ [("credentials.luks_password", .str "disk"),
        ("credentials.user_password", .str ""), ("credentials.source_luks_password", .str "")] := by
  have hexported : (storedConfig stored).exported = sampleConfig.exported := rfl
  rw [entries_eq_append, hexported, storedValues, List.append_assoc]
  exact congrArg _ rfl

theorem bySetting_storedConfig (stored : String) : BySetting InstallerConfig.fields
    (storedValues stored ++ [("credentials.luks_password", .str "disk"),
      ("credentials.user_password", .str ""), ("credentials.source_luks_password", .str "")]) := by
  rw [← entries_storedConfig]
  exact Fields.bySetting_entries BySetting.installerFields_wellFormed _

theorem bySetting_storedValues (stored : String) :
    BySetting InstallerConfig.fields (storedValues stored) := by
  have hall := bySetting_storedConfig stored
  refine ⟨fun entry hentry => hall.settings entry (List.mem_append_left _ hentry), ?_⟩
  exact hall.nodup.sublist ((List.sublist_append_left _ _).map _)

theorem lookup_storedValues {stored path : String} {value : PyValue}
    (h : (path, value) ∈ storedValues stored) : (storedValues stored).lookup path = some value :=
  lookup_of_mem (bySetting_storedValues stored).nodup h

/-- The file has no credentials. -/
theorem lookup_storedValues_credential (stored : String) {path : String} (h : path ∈ credentialPaths) :
    (storedValues stored).lookup path = none := by
  rw [List.lookup_eq_none_iff]
  intro entry hentry
  rw [bne_iff_ne]
  rintro rfl
  have hnodup := (bySetting_storedConfig stored).nodup
  rw [List.map_append, List.nodup_append] at hnodup
  refine hnodup.2.2 _ (List.mem_map_of_mem hentry) _ ?_ rfl
  simpa [credentialPaths] using h

theorem fileValue_storedValues (stored : String) :
    fileValue (storedValues stored) ("secrets." ++ EncryptedPassword.luks.name) = .str stored ∧
      fileValue (storedValues stored) ("secrets." ++ EncryptedPassword.user.name) = .str "" := by
  have hluks : ("secrets.luks_password_encrypted", PyValue.str stored) ∈ storedValues stored :=
    List.mem_append_right _ List.mem_cons_self
  have huser : ("secrets.user_password_encrypted", PyValue.str "") ∈ storedValues stored :=
    List.mem_append_right _ (List.mem_cons_of_mem _ List.mem_cons_self)
  rw [fileValue, fileValue,
    show "secrets." ++ EncryptedPassword.luks.name = "secrets.luks_password_encrypted" by decide,
    show "secrets." ++ EncryptedPassword.user.name = "secrets.user_password_encrypted" by decide,
    lookup_storedValues hluks, lookup_storedValues huser]
  exact ⟨rfl, rfl⟩

theorem secretsKeyToUse_keyEnvironment :
    secretsKeyToUse keyEnvironment (.error .noTerminal) none = .ok "key" := by
  have hkey : rawVariable keyEnvironment secretsKeyVariable = "key" := by decide
  rw [secretsKeyToUse, hkey]
  rfl

/-- With the key, what is stored is unlocked, although it is overridden. -/
theorem unlockedPasswords_keyEnvironment (stored : String) :
    unlockedPasswords sampleCryptography unicode14 keyEnvironment (.error .noTerminal) none
      (storedValues stored) [("credentials.luks_password", .str "disk")] =
        ((unlockedPassword sampleCryptography unicode14 "key" .luks (.str stored)).mapError .secret) := by
  rw [unlockedPasswords_eq (by decide) secretsKeyToUse_keyEnvironment, if_neg (by decide),
    decryptedCredentials_eq, (fileValue_storedValues stored).1, (fileValue_storedValues stored).2]
  cases unlockedPassword sampleCryptography unicode14 "key" .luks (.str stored) with
  | error error => rfl
  | ok unlocked =>
    have huser : unlockedPassword sampleCryptography unicode14 "key" .user (.str "") = .ok [] :=
      if_neg (by decide)
    rw [huser]
    simp [Except.bind]

theorem assembledValues_nil (environment file : List (String × PyValue)) :
    plainValues (inheritSettingValues (valuesBySource environment file)) =
      assembledValues environment file [] := rfl

/-- The environment's password is the configuration's. -/
theorem build_storedConfig (stored unlocked : String) :
    buildInstallerConfig (assembledValues [("credentials.luks_password", .str "disk")]
      (merge (storedValues stored) [("credentials.luks_password", .str unlocked)]) []) =
        .ok (storedConfig stored) := by
  have henvironment : BySetting InstallerConfig.fields [("credentials.luks_password", .str "disk")] :=
    bySetting_settingValues settingValues_keyEnvironment
  have hfile : BySetting InstallerConfig.fields
      (merge (storedValues stored) [("credentials.luks_password", .str unlocked)]) := by
    refine ⟨fun entry hentry => ?_, nodup_keys_merge (bySetting_storedValues stored).nodup⟩
    rcases mem_of_mem_merge hentry with hentry | hentry
    · exact (bySetting_storedValues stored).settings entry hentry
    · rw [List.mem_singleton.mp hentry]
      exact ⟨_, credentialPath_setting .luks⟩
  have hvalues := bySetting_assembledValues henvironment hfile bySetting_nil
  have hnodup := (bySetting_storedConfig stored).nodup
  have hlookup : ∀ {path : String} {value : PyValue}, (path, value) ∈ storedValues stored ++
      [("credentials.luks_password", .str "disk"), ("credentials.user_password", .str ""),
        ("credentials.source_luks_password", .str "")] →
      (withCredentials (assembledValues [("credentials.luks_password", .str "disk")]
        (merge (storedValues stored) [("credentials.luks_password", .str unlocked)]) [])).lookup path =
          some value := by
    intro path value hmem
    rw [hvalues.lookup_withCredentials, lookup_assembledValues (by simp), inheritedValue,
      lookup_merge (by simp)]
    rcases List.mem_append.mp hmem with hmem | hmem
    · have hne : path ≠ "credentials.luks_password" := by
        rintro rfl
        have hnone := lookup_storedValues_credential stored
          (show "credentials.luks_password" ∈ credentialPaths by decide)
        rw [lookup_storedValues hmem] at hnone
        cases hnone
      simp [List.lookup_cons, beq_false_of_ne hne, lookup_storedValues hmem]
    · simp only [List.mem_cons, List.not_mem_nil, or_false, Prod.mk.injEq] at hmem
      rcases hmem with ⟨rfl, rfl⟩ | ⟨rfl, rfl⟩ | ⟨rfl, rfl⟩
      · simp
      · rw [lookup_storedValues_credential stored (by decide)]
        simp [List.lookup_cons, credentialPaths]
      · rw [lookup_storedValues_credential stored (by decide)]
        simp [List.lookup_cons, credentialPaths]
  refine hvalues.buildInstallerConfig_eq_ok_iff.mpr fun type setting => ?_
  have hmem := setting.mem_entries "" (InstallerConfig.equiv.symm (storedConfig stored))
  rw [String.empty_append, entries_storedConfig] at hmem
  exact ⟨_, hlookup hmem,
    type.reads_plain (setting.wellFormed BySetting.installerFields_wellFormed) _⟩

theorem bind_ok {ε α β : Type} {value : α} {f : α → Except ε β} :
    (Except.ok value : Except ε α).bind f = f value := rfl

theorem mapError_ok {ε ε' α : Type} {value : α} {f : ε → ε'} :
    (Except.ok value : Except ε α).mapError f = .ok value := rfl

/-- A text that is not in five parts is refused. -/
theorem decryptSecret_of_length {cryptography : Cryptography} {unicode : Unicode} {blob : String}
    (h : (split "$" blob).length ≠ 5) (secretsKey setting : String) :
    decryptSecret cryptography unicode blob secretsKey setting = .error (.oldFormat setting) := by
  rw [decryptSecret]
  split
  · next hparts =>
    rw [hparts] at h
    exact absurd rfl h
  · rfl

/-- The law fails where only one of two stored values opens. -/
theorem not_sameButStored : ¬ ∀ (cryptography : Cryptography), cryptography.Sound →
    ∀ (unicode : Unicode) (environment : String → Option String)
      (prompt : Except AssemblyError String) (tui : Option TuiSetup),
      (∀ setup ∈ tui, setup.AsksSettings) → ∀ password : EncryptedPassword,
        rawVariable environment password.environmentVariable ≠ "" → ∀ raw raw' value value',
          DifferIn password.name value value' raw raw' → SameButStored password
            (assembleInstallerConfig cryptography unicode environment prompt tui raw)
            (assembleInstallerConfig cryptography unicode environment prompt tui raw') := by
  intro h
  obtain ⟨key, -, hwritten⟩ := sampleSecret.exists_written
  have hopens := (opensForItsSetting_written sampleCryptography_sound sampleSecret hwritten :
    OpensForItsSetting unicode14 _ _).opens
  generalize secretText _ _ _ = blob at hopens
  have hvalue : ∀ stored, decryptValue sampleCryptography unicode14 (.str stored) "key"
      EncryptedPassword.luks.secretName =
        decryptSecret sampleCryptography unicode14 stored "key" luksPasswordSecret := fun _ => rfl
  change decryptSecret sampleCryptography unicode14 blob "key" luksPasswordSecret =
    .ok "disk-password" at hopens
  have hrun : ∀ stored, assembleInstallerConfig sampleCryptography unicode14 keyEnvironment
      (.error .noTerminal) none (storedFile stored) =
        ((unlockedPassword sampleCryptography unicode14 "key" .luks (.str stored)).mapError
          .secret).bind fun unlocked => (buildInstallerConfig (assembledValues
            [("credentials.luks_password", .str "disk")] (merge (storedValues stored) unlocked)
              [])).mapError .ofBuild := by
    intro stored
    rw [assembleInstallerConfig_eq settingValues_keyEnvironment rfl,
      configFileSettingValues_storedFile]
    simp only [Except.mapError, Except.bind, unlockedPasswords_keyEnvironment, finalValues,
      assembledValues_nil]
  rcases h _ sampleCryptography_sound unicode14 keyEnvironment (.error .noTerminal) none
    (fun _ h => nomatch h) .luks (by decide) _ _ _ _ (differIn_storedFile blob "old-secret") with
    ⟨error, error', herror, -⟩ | ⟨config, config', -, hok, -⟩
  · have hne : blob ≠ "" := by
      rintro rfl
      rw [decryptSecret_of_length (by decide)] at hopens
      cases hopens
    have hunlocked : unlockedPassword sampleCryptography unicode14 "key" .luks (.str blob) =
        .ok [("credentials.luks_password", .str "disk-password")] := by
      rw [unlockedPassword, if_pos (show (PyValue.str blob).truth from decide_eq_true hne), hvalue,
        hopens]
      rfl
    rw [hrun, hunlocked, mapError_ok, bind_ok, build_storedConfig, mapError_ok] at herror
    cases herror
  · have hrefused : unlockedPassword sampleCryptography unicode14 "key" .luks (.str "old-secret") =
        .error (.oldFormat luksPasswordSecret) := by
      rw [unlockedPassword, if_pos (by decide), hvalue, decryptSecret_of_length (by decide)]
      rfl
    rw [hrun, hrefused] at hok
    cases hok

end ArchInstaller
