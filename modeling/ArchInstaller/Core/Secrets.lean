import ArchInstaller.Python.Base64
import ArchInstaller.Python.Data
import ArchInstaller.Python.Unicode

/-! # Encrypted passwords

`core/secrets.py`, over the key derivation and the cipher of the `cryptography` package. A secret is
written `dali-v2$argon2id$m=…,t=…,p=…$<salt>$<nonce + ciphertext>`. -/

namespace ArchInstaller

open PyText

structure Argon2Cost where
  memoryKib : Int
  iterations : Int
  lanes : Int
  deriving DecidableEq

/-- `Argon2id` and `AESGCM`. -/
structure Cryptography where
  /-- The AES key for a secrets key and a salt, or `none` where `ValueError` is raised. -/
  derive : Bytes → Bytes → Argon2Cost → Option Bytes
  /-- The ciphertext under an AES key and a nonce, of data with associated data. -/
  encrypt : Bytes → Bytes → Bytes → Bytes → Bytes
  /-- The data of a ciphertext, or `none` where `InvalidTag` is raised. -/
  decrypt : Bytes → Bytes → Bytes → Bytes → Option Bytes

inductive SecretError where
  | malformedCost (encoded : String)
  | unreasonableCost (encoded : String)
  | invalidPart (partName : String)
  | oldFormat (setting : String)
  | truncated (setting : String)
  | failed (setting : String)
  /-- The `ValueError` of `int()` or of the key derivation. -/
  | valueError
  | unicodeDecodeError
  /-- The `AttributeError` or `TypeError` of `blob.split("$")`. -/
  | notText
  deriving DecidableEq

def SecretError.isConfigurationError : SecretError → Bool
  | malformedCost _ | unreasonableCost _ | invalidPart _ | oldFormat _ | truncated _ | failed _ => true
  | valueError | unicodeDecodeError | notText => false

/-- The text of a `ConfigurationError`. -/
def SecretError.message : SecretError → String
  | malformedCost encoded => s!"Encrypted secret has malformed Argon2id parameters: {encoded}"
  | unreasonableCost encoded => s!"Encrypted secret asks for an unreasonable cost: {encoded}"
  | invalidPart partName => s!"Encrypted secret has an invalid {partName}"
  | oldFormat setting => s!"The encrypted {setting} uses an old or unknown format; " ++
    "run `make encrypt-secrets` to encrypt it again"
  | truncated setting => s!"The encrypted {setting} is truncated"
  | failed setting => s!"Failed to decrypt the {setting} (wrong key, or the secret was altered)"
  | valueError | unicodeDecodeError | notText => ""

def formatVersion : String := "dali-v2"

def keyDerivationName : String := "argon2id"

def saltSizeBytes : Nat := 16

def nonceSizeBytes : Nat := 12

def gcmTagSizeBytes : Nat := 16

def Argon2Cost.encoded (cost : Argon2Cost) : String :=
  "m=" ++ toString cost.memoryKib ++ ",t=" ++ toString cost.iterations ++ ",p=" ++
    toString cost.lanes

def maximumCost : Argon2Cost := { memoryKib := 4194304, iterations := 64, lanes := 64 }

/-- Within `MAXIMUM_COST`. -/
def Argon2Cost.isReasonable (cost : Argon2Cost) : Bool :=
  (0 < cost.memoryKib && cost.memoryKib ≤ maximumCost.memoryKib) &&
    (0 < cost.iterations && cost.iterations ≤ maximumCost.iterations) &&
    (0 < cost.lanes && cost.lanes ≤ maximumCost.lanes)

/-- `_associated_data`. -/
def associatedData (setting : String) : Bytes := utf8 (formatVersion ++ ":" ++ setting)

section

variable (cryptography : Cryptography) (unicode : Unicode)

/-- `_aes_key`. -/
def aesKey (secretsKey : String) (salt : Bytes) (cost : Argon2Cost) : Except SecretError Bytes :=
  match cryptography.derive (utf8 secretsKey) salt cost with
  | some key => .ok key
  | none => .error .valueError

/-- The text of a secret. -/
def secretText (cost : Argon2Cost) (salt payload : Bytes) : String :=
  join "$" [formatVersion, keyDerivationName, cost.encoded, base64Encode salt, base64Encode payload]

/-- `encrypt_secret`, with the salt and the nonce that are drawn, and `NEW_SECRET_COST`. -/
def encryptSecret (salt nonce : Bytes) (newSecretCost : Argon2Cost)
    (plaintext secretsKey setting : String) : Except SecretError String := do
  let key ← aesKey cryptography secretsKey salt newSecretCost
  let ciphertext := cryptography.encrypt key nonce (utf8 plaintext) (associatedData setting)
  return secretText newSecretCost salt (nonce ++ ciphertext)

/-- A label and the digits `\d+` after it, and what follows. -/
def takeNumber (label : String) (chars : List Char) : Option (String × List Char) :=
  if label.toList.isPrefixOf chars then
    let rest := chars.drop label.toList.length
    let digits := rest.takeWhile fun c => (unicode.decimal c).isSome
    if digits = [] then none
    else some (String.ofList digits, rest.dropWhile fun c => (unicode.decimal c).isSome)
  else none

/-- The groups of `COST_PATTERN.fullmatch(encoded)`, `m=(\d+),t=(\d+),p=(\d+)`. -/
def matchCost (encoded : String) : Option (String × String × String) := do
  let (memory, rest) ← takeNumber unicode "m=" encoded.toList
  let (iterations, rest) ← takeNumber unicode ",t=" rest
  let (lanes, rest) ← takeNumber unicode ",p=" rest
  if rest = [] then return (memory, iterations, lanes) else none

/-- `int(number)`. -/
def readNumber (number : String) : Except SecretError Int :=
  match unicode.int number with
  | some value => .ok value
  | none => .error .valueError

/-- `_parse_cost`. -/
def parseCost (encoded : String) : Except SecretError Argon2Cost :=
  match matchCost unicode encoded with
  | none => .error (.malformedCost encoded)
  | some (memory, iterations, lanes) => do
    let cost := Argon2Cost.mk (← readNumber unicode memory) (← readNumber unicode iterations)
      (← readNumber unicode lanes)
    if cost.isReasonable then return cost else .error (.unreasonableCost encoded)

/-- `_base64_part`. -/
def base64Part (text partName : String) : Except SecretError Bytes :=
  match base64Decode text with
  | some data => .ok data
  | none => .error (.invalidPart partName)

/-- The end of `decrypt_secret`: the salt and the payload are decoded. -/
def openSecret (secretsKey setting : String) (cost : Argon2Cost) (salt payload : Bytes) :
    Except SecretError String := do
  if salt.length ≠ saltSizeBytes ∨ payload.length < nonceSizeBytes + gcmTagSizeBytes then
    throw (.truncated setting)
  let nonce := payload.take nonceSizeBytes
  let ciphertext := payload.drop nonceSizeBytes
  let key ← aesKey cryptography secretsKey salt cost
  match cryptography.decrypt key nonce ciphertext (associatedData setting) with
  | none => throw (.failed setting)
  | some data =>
    match utf8Decode data with
    | some plaintext => return plaintext
    | none => throw .unicodeDecodeError

/-- `decrypt_secret`. -/
def decryptSecret (blob secretsKey setting : String) : Except SecretError String :=
  match split "$" blob with
  | [version, name, cost, salt, payload] =>
    if version = formatVersion ∧ name = keyDerivationName then do
      let cost ← parseCost unicode cost
      let salt ← base64Part salt "salt"
      let payload ← base64Part payload "payload"
      openSecret cryptography secretsKey setting cost salt payload
    else .error (.oldFormat setting)
  | _ => .error (.oldFormat setting)

end

end ArchInstaller
