import ArchInstaller.Core.Secrets

/-! # The encrypted passwords of the configuration file

`ENCRYPTED_CREDENTIALS`, `has_encrypted_credentials` and `decrypted_credentials` of
`config/config_file.py`, on the setting values of the file. -/

namespace ArchInstaller

open PyData PyText

def luksPasswordSecret : String := "luks_password"

def userPasswordSecret : String := "user_password"

/-- The path of an encrypted setting, the credential that it unlocks, and the name that is bound into
its ciphertext. -/
def encryptedCredentials : List (String × String × String) :=
  [("secrets.luks_password_encrypted", "credentials.luks_password", luksPasswordSecret),
    ("secrets.user_password_encrypted", "credentials.user_password", userPasswordSecret)]

/-- `config_file_values.get(path)`. -/
def fileValue (configFileValues : List (String × PyValue)) (settingPath : String) : PyValue :=
  (configFileValues.lookup settingPath).getD .none

def hasEncryptedCredentials (configFileValues : List (String × PyValue)) : Bool :=
  encryptedCredentials.any fun (encryptedPath, _, _) => (fileValue configFileValues encryptedPath).truth

section

variable (cryptography : Cryptography) (unicode : Unicode)

/-- `decrypt_secret` of any value. -/
def decryptValue (encrypted : PyValue) (secretsKey secretName : String) : Except SecretError String :=
  match encrypted.text with
  | some blob => decryptSecret cryptography unicode blob secretsKey secretName
  | none => .error .notText

/-- The body of `decrypted_credentials`' loop. -/
def decryptCredential (configFileValues : List (String × PyValue)) (secretsKey : String)
    (credentials : List (String × PyValue)) :
    String × String × String → Except SecretError (List (String × PyValue))
  | (encryptedPath, credentialPath, secretName) =>
    let encrypted := fileValue configFileValues encryptedPath
    if encrypted.truth then do
      let password ← decryptValue cryptography unicode encrypted secretsKey secretName
      return assign credentialPath (.str password) credentials
    else return credentials

def decryptedCredentials (configFileValues : List (String × PyValue)) (secretsKey : String) :
    Except SecretError (List (String × PyValue)) :=
  encryptedCredentials.foldlM (decryptCredential cryptography unicode configFileValues secretsKey) []

end

end ArchInstaller
