import ArchInstaller.Core.Secrets
import ArchInstaller.Python.Paths

/-! # Secrets open for their own setting

What is written for a secret is read again with the same key and for the same setting, and with
nothing else. -/

namespace ArchInstaller

open PyText

/-- What `decrypt_secret` relies on: a ciphertext opens with the key and the associated data that it
was made with and with no others, other keys and salts give other AES keys, and the memory decides
whether a cost is accepted. -/
structure Cryptography.Sound (cryptography : Cryptography) : Prop where
  opens : ∀ key nonce data associated,
    cryptography.decrypt key nonce (cryptography.encrypt key nonce data associated) associated =
      some data
  rejects : ∀ key nonce data associated key' nonce' associated',
    (key, associated) ≠ (key', associated') →
      cryptography.decrypt key' nonce' (cryptography.encrypt key nonce data associated) associated' =
        none
  tag : ∀ key nonce data associated,
    gcmTagSizeBytes ≤ (cryptography.encrypt key nonce data associated).length
  separates : ∀ secretsKey salt cost secretsKey' salt' cost' key,
    cryptography.derive secretsKey salt cost = some key →
      cryptography.derive secretsKey' salt' cost' = some key → secretsKey = secretsKey' ∧ salt = salt'
  accepts : ∀ secretsKey salt cost, salt.length = saltSizeBytes → cost.isReasonable →
    ((cryptography.derive secretsKey salt cost).isSome ↔ 8 * cost.lanes ≤ cost.memoryKib)

/-- A secret, with what is drawn for it. -/
structure Secret (cryptography : Cryptography) where
  plaintext : String
  secretsKey : String
  setting : String
  salt : Bytes
  nonce : Bytes
  cost : Argon2Cost
  salt_size : salt.length = saltSizeBytes
  nonce_size : nonce.length = nonceSizeBytes
  reasonable : cost.isReasonable
  accepted : (cryptography.derive (utf8 secretsKey) salt cost).isSome

section

variable {cryptography : Cryptography} {unicode : Unicode}

/-- What `encrypt_secret` writes. -/
def Secret.written (secret : Secret cryptography) : Except SecretError String :=
  encryptSecret cryptography secret.salt secret.nonce secret.cost secret.plaintext secret.secretsKey
    secret.setting

/-- A secret with another part in place of one of its five. -/
def withPart (index : Nat) (part : String) (blob : String) : String :=
  join "$" ((split "$" blob).set index part)

def IsRefused (result : Except SecretError String) : Prop :=
  ∃ error, result = .error error ∧ error.isConfigurationError

/-- The secret opens with its key for its setting, and is refused for another setting and in another
version of the format. -/
structure OpensForItsSetting (unicode : Unicode) (secret : Secret cryptography) (blob : String) :
    Prop where
  opens : decryptSecret cryptography unicode blob secret.secretsKey secret.setting =
    .ok secret.plaintext
  otherSetting : ∀ setting ≠ secret.setting,
    IsRefused (decryptSecret cryptography unicode blob secret.secretsKey setting)
  otherVersion : ∀ version ≠ formatVersion,
    IsRefused (decryptSecret cryptography unicode (withPart 0 version blob) secret.secretsKey
      secret.setting)

/-- The secret is refused with a part of another setting's secret, if that is another part. -/
def RefusesParts (unicode : Unicode) (secret : Secret cryptography) (blob : String)
    (isAnother : Secret cryptography → Nat → String → Prop) : Prop :=
  ∀ (other : Secret cryptography) blob', other.setting ≠ secret.setting →
    other.written = .ok blob' → ∀ index part, (split "$" blob')[index]? = some part →
      isAnother other index part →
        IsRefused (decryptSecret cryptography unicode (withPart index part blob) secret.secretsKey
          secret.setting)

/-- The part is not the secret's own, and a cost not one that gives the same AES key. -/
def IsAnotherPart (secret : Secret cryptography) (blob : String) (other : Secret cryptography)
    (index : Nat) (part : String) : Prop :=
  (split "$" blob)[index]? ≠ some part ∧
    (index = 2 → cryptography.derive (utf8 secret.secretsKey) secret.salt other.cost ≠
      cryptography.derive (utf8 secret.secretsKey) secret.salt secret.cost)

/-! ## Costs -/

variable (unicode) in
theorem takeNumber_append (label : String) (n : Nat) {rest : List Char}
    (hrest : ∀ c ∈ rest.head?, unicode.decimal c = none) :
    takeNumber unicode label (label.toList ++ ((toString (n : Int)).toList ++ rest)) =
      some (toString (n : Int), rest) := by
  have htext : (toString (n : Int)).toList = Nat.toDigits 10 n := toString_nat_toList n
  have hdigits : ∀ c ∈ (toString (n : Int)).toList, (unicode.decimal c).isSome := by
    intro c hc
    rw [htext] at hc
    rw [unicode.decimal_of_digit (isDigit_of_toDigits hc)]
    rfl
  have hhead : rest.takeWhile (fun c => (unicode.decimal c).isSome) = [] ∧
      rest.dropWhile (fun c => (unicode.decimal c).isSome) = rest := by
    cases rest with
    | nil => exact ⟨rfl, rfl⟩
    | cons c rest =>
      have hc := hrest c rfl
      constructor
      · rw [List.takeWhile_cons_of_neg (by simp [hc])]
      · rw [List.dropWhile_cons_of_neg (by simp [hc])]
  rw [takeNumber, if_pos (by simp), List.drop_left]
  simp only [List.takeWhile_append_of_pos hdigits, List.dropWhile_append_of_pos hdigits, hhead,
    List.append_nil, String.ofList_toList]
  rw [if_neg (by rw [htext]; exact Nat.toDigits_ne_nil)]

theorem Argon2Cost.exists_nat {cost : Argon2Cost} (h : cost.isReasonable) :
    ∃ memory iterations lanes : Nat, cost = ⟨memory, iterations, lanes⟩ ∧ memory ≤ 4194304 ∧
      iterations ≤ 64 ∧ lanes ≤ 64 := by
  obtain ⟨memory, iterations, lanes⟩ := cost
  simp only [isReasonable, Bool.and_eq_true, decide_eq_true_eq] at h
  simp only [maximumCost] at h
  obtain ⟨memory, rfl⟩ := Int.eq_ofNat_of_zero_le (a := memory) (by omega)
  obtain ⟨iterations, rfl⟩ := Int.eq_ofNat_of_zero_le (a := iterations) (by omega)
  obtain ⟨lanes, rfl⟩ := Int.eq_ofNat_of_zero_le (a := lanes) (by omega)
  exact ⟨memory, iterations, lanes, rfl, by omega, by omega, by omega⟩

variable (unicode) in
theorem readNumber_toString {n : Nat} (h : n ≤ 4194304) :
    readNumber unicode (toString (n : Int)) = .ok n := by
  have hlength : (toString (n : Int)).length ≤ Unicode.maxStrDigits := by
    have htext : (toString (n : Int)).toList = Nat.toDigits 10 n := toString_nat_toList n
    rw [← String.length_toList, htext]
    refine Nat.le_trans ((Nat.length_toDigits_le_iff (by decide) (by decide)).mpr ?_)
      (show 7 ≤ Unicode.maxStrDigits by decide)
    omega
  rw [readNumber, unicode.int_toString hlength]

variable (unicode) in
theorem parseCost_encoded {cost : Argon2Cost} (h : cost.isReasonable) :
    parseCost unicode cost.encoded = .ok cost := by
  obtain ⟨memory, iterations, lanes, rfl, hmemory, hiterations, hlanes⟩ := cost.exists_nat h
  have hcomma : ∀ label : String, ∀ rest : List Char, label.toList.head? = some ',' →
      ∀ c ∈ (label.toList ++ rest).head?, unicode.decimal c = none := by
    intro label rest hlabel c hc
    rw [List.head?_append, hlabel] at hc
    cases hc
    rw [unicode.decimal_ascii ',' (by decide)]
    rfl
  have hmatch : matchCost unicode (Argon2Cost.encoded ⟨memory, iterations, lanes⟩) =
      some (toString (memory : Int), toString (iterations : Int), toString (lanes : Int)) := by
    have hlanes := @takeNumber_append unicode ",p=" lanes [] nofun
    rw [List.append_nil] at hlanes
    simp only [matchCost, Argon2Cost.encoded, String.toList_append, List.append_assoc]
    rw [takeNumber_append unicode "m=" memory (hcomma ",t=" _ rfl)]
    simp only [Option.bind_eq_bind, Option.bind_some]
    rw [takeNumber_append unicode ",t=" iterations (hcomma ",p=" _ rfl)]
    simp only [Option.bind_some]
    rw [hlanes]
    rfl
  rw [parseCost, hmatch]
  simp only [readNumber_toString unicode hmemory,
    readNumber_toString unicode (show iterations ≤ 4194304 by omega),
    readNumber_toString unicode (show lanes ≤ 4194304 by omega)]
  exact if_pos h

/-! ## The text of a secret -/

theorem dollar_not_mem_encoded {cost : Argon2Cost} (h : cost.isReasonable) :
    '$' ∉ cost.encoded.toList := by
  obtain ⟨memory, iterations, lanes, rfl, -, -, -⟩ := cost.exists_nat h
  have hnumber : ∀ n : Nat, '$' ∉ (toString (n : Int)).toList := by
    intro n hmem
    have htext : (toString (n : Int)).toList = Nat.toDigits 10 n := toString_nat_toList n
    rw [htext] at hmem
    exact absurd (isDigit_of_toDigits hmem) (by decide)
  simp only [Argon2Cost.encoded, String.toList_append, List.mem_append, not_or]
  exact ⟨⟨⟨⟨⟨by decide, hnumber _⟩, by decide⟩, hnumber _⟩, by decide⟩, hnumber _⟩

/-- The parts of a secret's text. -/
def secretParts (cost : Argon2Cost) (salt payload : Bytes) : List String :=
  [formatVersion, keyDerivationName, cost.encoded, base64Encode salt, base64Encode payload]

theorem dollar_not_mem_secretParts {cost : Argon2Cost} (h : cost.isReasonable) (salt payload : Bytes) :
    ∀ part ∈ secretParts cost salt payload, '$' ∉ part.toList := by
  have hbase64 : ∀ data : Bytes, '$' ∉ (base64Encode data).toList := by
    intro data
    rw [base64Encode, String.toList_ofList]
    exact dollar_not_mem_base64Chars data
  simp only [secretParts, List.forall_mem_cons]
  exact ⟨by decide, by decide, dollar_not_mem_encoded h, hbase64 salt, hbase64 payload,
    fun _ h => absurd h List.not_mem_nil⟩

theorem split_secretText {cost : Argon2Cost} (h : cost.isReasonable) (salt payload : Bytes) :
    split "$" (secretText cost salt payload) = secretParts cost salt payload :=
  split_join '$' (List.cons_ne_nil _ _) (dollar_not_mem_secretParts h salt payload)

/-- A text of parts that are those of some secrets. -/
theorem decryptSecret_secretText {cost : Argon2Cost} (h : cost.isReasonable) (salt payload : Bytes)
    (secretsKey setting : String) :
    decryptSecret cryptography unicode (secretText cost salt payload) secretsKey setting =
      openSecret cryptography secretsKey setting cost salt payload := by
  rw [decryptSecret, split_secretText h, secretParts]
  simp only [and_self, if_true, parseCost_encoded unicode h, base64Part, base64Decode_encode]
  rfl

/-- What is decrypted where the key derivation accepts the cost. -/
theorem openSecret_eq {secretsKey setting : String} {cost : Argon2Cost} {salt nonce ciphertext key : Bytes}
    (hsalt : salt.length = saltSizeBytes) (hnonce : nonce.length = nonceSizeBytes)
    (htag : gcmTagSizeBytes ≤ ciphertext.length)
    (hkey : cryptography.derive (utf8 secretsKey) salt cost = some key) :
    openSecret cryptography secretsKey setting cost salt (nonce ++ ciphertext) =
      match cryptography.decrypt key nonce ciphertext (associatedData setting) with
      | none => .error (.failed setting)
      | some data =>
        match utf8Decode data with
        | some plaintext => .ok plaintext
        | none => .error .unicodeDecodeError := by
  have hlength : ¬ (salt.length ≠ saltSizeBytes ∨
      (nonce ++ ciphertext).length < nonceSizeBytes + gcmTagSizeBytes) := by
    rw [List.length_append]
    omega
  rw [openSecret, if_neg hlength, ← hnonce, List.take_left, List.drop_left]
  simp only [aesKey, hkey]
  rfl

theorem associatedData_injective {setting setting' : String}
    (h : associatedData setting = associatedData setting') : setting = setting' :=
  (String.append_right_inj _).mp (utf8_injective h)

/-! ## Secrets of settings -/

/-- The AES key of a secret. -/
theorem Secret.exists_written (secret : Secret cryptography) : ∃ key,
    cryptography.derive (utf8 secret.secretsKey) secret.salt secret.cost = some key ∧
      secret.written = .ok (secretText secret.cost secret.salt (secret.nonce ++
        cryptography.encrypt key secret.nonce (utf8 secret.plaintext) (associatedData secret.setting))) := by
  obtain ⟨key, hkey⟩ := Option.isSome_iff_exists.mp secret.accepted
  refine ⟨key, hkey, ?_⟩
  rw [Secret.written, encryptSecret, aesKey, hkey]
  rfl

/-- A ciphertext is refused under another key or another setting. -/
theorem isRefused_openSecret (h : cryptography.Sound) {secretsKey setting setting' : String}
    {cost : Argon2Cost} {salt nonce nonce' data key key' : Bytes} (hsalt : salt.length = saltSizeBytes)
    (hnonce : nonce.length = nonceSizeBytes)
    (hkey : cryptography.derive (utf8 secretsKey) salt cost = some key)
    (hne : key' ≠ key ∨ setting' ≠ setting) :
    IsRefused (openSecret cryptography secretsKey setting cost salt
      (nonce ++ cryptography.encrypt key' nonce' data (associatedData setting'))) := by
  have hpair : (key', associatedData setting') ≠ (key, associatedData setting) := by
    intro heq
    obtain ⟨rfl, hassociated⟩ := Prod.ext_iff.mp heq
    rcases hne with hne | hne
    · exact hne rfl
    · exact hne (associatedData_injective hassociated)
  rw [openSecret_eq hsalt hnonce (h.tag _ _ _ _) hkey, h.rejects _ _ _ _ _ _ _ hpair]
  exact ⟨_, rfl, rfl⟩

/-- A text of one part has no separator. -/
theorem eq_of_split_eq_singleton (separator : Char) {s part : String}
    (h : split (String.singleton separator) s = [part]) : s = part := by
  have hseparator : (String.singleton separator).toList = [separator] :=
    String.toList_singleton separator
  rw [split, hseparator] at h
  by_cases hmem : separator ∈ s.toList
  · obtain ⟨first, second, hs⟩ := List.append_of_mem hmem
    rw [hs, splitAux_separator] at h
    have hfirst := List.length_pos_of_ne_nil
      (@splitAux_ne_nil [separator] first [] 0)
    have hsecond := List.length_pos_of_ne_nil
      (@splitAux_ne_nil [separator] second [] 0)
    have hlength := congrArg List.length h
    rw [List.length_map, List.length_append, List.length_singleton] at hlength
    omega
  · rw [splitAux_of_not_mem hmem] at h
    simpa using h

/-- What starts with another version is refused. -/
theorem isRefused_version {version secretsKey setting : String} {part : String} {parts : List String}
    (hversion : version ≠ formatVersion) (hparts : 3 ≤ parts.length)
    (h : ∀ part' ∈ part :: parts, '$' ∉ part'.toList) :
    IsRefused (decryptSecret cryptography unicode (join "$" (version :: part :: parts)) secretsKey
      setting) := by
  have hsplit : split "$" (join "$" (version :: part :: parts)) = split "$" version ++ part :: parts := by
    have hjoin : split "$" (join "$" (part :: parts)) = part :: parts :=
      split_join '$' (List.cons_ne_nil _ _) h
    rw [join]
    · exact (split_append '$' version _).trans (congrArg (split "$" version ++ ·) hjoin)
    · exact List.cons_ne_nil _ _
  rw [decryptSecret, hsplit]
  split
  · next version' name cost salt payload heq =>
    rw [if_neg]
    · exact ⟨_, rfl, rfl⟩
    · rintro ⟨rfl, -⟩
      -- there is one part before the others, so the version has no separator
      have hlength := congrArg List.length heq
      simp only [List.length_append, List.length_cons, List.length_nil] at hlength
      obtain ⟨only, honly⟩ := List.length_eq_one_iff.mp
        (show (split "$" version).length = 1 by
          have := List.length_pos_of_ne_nil (@split_ne_nil "$" version)
          omega)
      rw [honly] at heq
      exact hversion ((eq_of_split_eq_singleton '$' honly).trans (List.cons.inj heq).1)
  · exact ⟨_, rfl, rfl⟩

theorem opensForItsSetting_written (h : cryptography.Sound) (secret : Secret cryptography)
    {blob : String} (hblob : secret.written = .ok blob) : OpensForItsSetting unicode secret blob := by
  obtain ⟨key, hkey, hwritten⟩ := secret.exists_written
  rw [hwritten] at hblob
  cases hblob
  refine ⟨?_, fun setting hsetting => ?_, fun version hversion => ?_⟩
  · rw [decryptSecret_secretText secret.reasonable,
      openSecret_eq secret.salt_size secret.nonce_size (h.tag _ _ _ _) hkey, h.opens]
    simp only [utf8Decode_utf8]
  · rw [decryptSecret_secretText secret.reasonable]
    exact isRefused_openSecret h secret.salt_size secret.nonce_size hkey (.inr hsetting.symm)
  · rw [withPart, split_secretText secret.reasonable, secretParts, List.set_cons_zero]
    refine isRefused_version hversion (by simp) fun part hpart => ?_
    exact dollar_not_mem_secretParts secret.reasonable _ _ part (List.mem_cons_of_mem _ hpart)

/-- What another setting's secret changes is refused. -/
theorem refusesParts_written (h : cryptography.Sound) (secret : Secret cryptography)
    {blob : String} (hblob : secret.written = .ok blob) :
    RefusesParts unicode secret blob (IsAnotherPart secret blob) := by
  obtain ⟨key, hkey, hwritten⟩ := secret.exists_written
  rw [hwritten] at hblob
  cases hblob
  intro other blob' hsetting hblob' index part hpart ⟨hdiffers, hcost⟩
  obtain ⟨key', hkey', hwritten'⟩ := other.exists_written
  rw [hwritten'] at hblob'
  cases hblob'
  rw [split_secretText other.reasonable, secretParts] at hpart
  rw [split_secretText secret.reasonable, secretParts] at hdiffers
  rw [withPart, split_secretText secret.reasonable, secretParts]
  match index, hpart with
  | 0, rfl | 1, rfl => exact absurd rfl hdiffers
  | 2, rfl =>
    have haccepts := (h.accepts _ _ _ other.salt_size other.reasonable).mp other.accepted
    obtain ⟨derived, hderived⟩ := Option.isSome_iff_exists.mp
      ((h.accepts (utf8 secret.secretsKey) _ _ secret.salt_size other.reasonable).mpr haccepts)
    have hne : key ≠ derived := by
      rintro rfl
      exact hcost rfl (hderived.trans hkey.symm)
    exact (decryptSecret_secretText other.reasonable _ _ _ _).symm ▸
      isRefused_openSecret h secret.salt_size secret.nonce_size hderived (.inl hne)
  | 3, rfl =>
    have haccepts := (h.accepts _ _ _ secret.salt_size secret.reasonable).mp secret.accepted
    obtain ⟨derived, hderived⟩ := Option.isSome_iff_exists.mp
      ((h.accepts (utf8 secret.secretsKey) _ _ other.salt_size secret.reasonable).mpr haccepts)
    have hne : key ≠ derived := by
      rintro rfl
      have hsalt := (h.separates _ _ _ _ _ _ _ hkey hderived).2
      exact hdiffers (by rw [hsalt]; rfl)
    exact (decryptSecret_secretText secret.reasonable _ _ _ _).symm ▸
      isRefused_openSecret h other.salt_size secret.nonce_size hderived (.inl hne)
  | 4, rfl =>
    exact (decryptSecret_secretText secret.reasonable _ _ _ _).symm ▸
      isRefused_openSecret h secret.salt_size other.nonce_size hkey (.inr hsetting)

/-- **A secret is bound to its setting.** -/
theorem exists_boundSecret (h : cryptography.Sound) (unicode : Unicode) (secret : Secret cryptography) :
    ∃ blob, secret.written = .ok blob ∧ OpensForItsSetting unicode secret blob ∧
      RefusesParts unicode secret blob (IsAnotherPart secret blob) := by
  obtain ⟨key, -, hwritten⟩ := secret.exists_written
  exact ⟨_, hwritten, opensForItsSetting_written h secret hwritten,
    refusesParts_written h secret hwritten⟩

end

/-! ## One known secret -/

def sampleSalt : Bytes := (List.range 16).map UInt8.ofNat

def sampleNonce : Bytes := (List.range 12).map UInt8.ofNat

def sampleCost : Argon2Cost := { memoryKib := 8, iterations := 1, lanes := 1 }

/-- What Argon2id derives from the key "key" with this salt and cost. -/
def sampleAesKey : Bytes :=
  [9, 46, 219, 17, 83, 157, 196, 179, 148, 185, 57, 29, 139, 231, 206, 230, 74, 69, 156, 191, 160,
    152, 103, 49, 237, 105, 91, 122, 248, 32, 255, 137]

/-- What AES-GCM makes of "disk-password" with this key and nonce, for the LUKS password. -/
def sampleCiphertext : Bytes :=
  [49, 95, 255, 56, 217, 114, 192, 121, 208, 131, 198, 242, 31, 183, 97, 165, 162, 73, 189, 27, 74,
    68, 10, 154, 9, 149, 71, 202, 172]

/-- Bytes behind their length. -/
def framed (data : Bytes) : Bytes := List.replicate data.length 1 ++ 0 :: data

theorem framed_inj {data data' rest rest' : Bytes} (h : framed data ++ rest = framed data' ++ rest') :
    data = data' ∧ rest = rest' := by
  have hlength : ∀ {n n' : Nat} {tail tail' : Bytes},
      List.replicate n (1 : UInt8) ++ 0 :: tail = List.replicate n' 1 ++ 0 :: tail' →
        n = n' ∧ tail = tail' := by
    intro n
    induction n with
    | zero =>
      intro n' tail tail' h
      cases n' with
      | zero => exact ⟨rfl, (List.cons.inj h).2⟩
      | succ n' => cases h
    | succ n ih =>
      intro n' tail tail' h
      cases n' with
      | zero => cases h
      | succ n' =>
        obtain ⟨rfl, htail⟩ := ih (List.cons.inj h).2
        exact ⟨rfl, htail⟩
  simp only [framed, List.append_assoc, List.cons_append] at h
  obtain ⟨hlengths, htail⟩ := hlength h
  exact List.append_inj htail hlengths

/-- What a ciphertext starts with but the known one. -/
def header (key associated : Bytes) : Bytes :=
  List.replicate gcmTagSizeBytes 0 ++ (framed key ++ framed associated)

theorem header_inj {key key' associated associated' rest rest' : Bytes}
    (h : header key associated ++ rest = header key' associated' ++ rest') :
    key = key' ∧ associated = associated' ∧ rest = rest' := by
  simp only [header, List.append_assoc] at h
  obtain ⟨hkey, hrest⟩ := framed_inj (List.append_cancel_left h)
  exact ⟨hkey, framed_inj hrest⟩

/-- Keys and ciphertexts say what they were made of, but for the known ones. -/
def sampleCryptography : Cryptography where
  derive secretsKey salt cost :=
    if 8 * cost.lanes ≤ cost.memoryKib then
      some (if secretsKey = utf8 "key" ∧ salt = sampleSalt ∧ cost = sampleCost then sampleAesKey
        else 0 :: (framed secretsKey ++ salt))
    else none
  encrypt key nonce data associated :=
    if key = sampleAesKey ∧ nonce = sampleNonce ∧ data = utf8 "disk-password" ∧
      associated = associatedData "luks_password" then sampleCiphertext
    else header key associated ++ data
  decrypt key nonce ciphertext associated :=
    if key = sampleAesKey ∧ nonce = sampleNonce ∧ ciphertext = sampleCiphertext ∧
      associated = associatedData "luks_password" then some (utf8 "disk-password")
    else if (header key associated).isPrefixOf ciphertext then
      some (ciphertext.drop (header key associated).length)
    else none

theorem header_append_ne_sample {key associated rest : Bytes} :
    header key associated ++ rest ≠ sampleCiphertext := by
  intro h
  cases h

theorem sampleCryptography_sound : sampleCryptography.Sound where
  opens key nonce data associated := by
    simp only [sampleCryptography]
    split
    · next hknown => simp [hknown]
    · rw [if_neg fun hsample => header_append_ne_sample hsample.2.2.1]
      simp
  rejects key nonce data associated key' nonce' associated' hne := by
    simp only [sampleCryptography]
    split
    · next hknown =>
      rw [if_neg, if_neg]
      · intro hpre
        obtain ⟨rest, hrest⟩ := List.isPrefixOf_iff_prefix.mp hpre
        exact header_append_ne_sample hrest
      · rintro ⟨rfl, -, -, rfl⟩
        exact hne (by rw [hknown.1, hknown.2.2.2])
    · rw [if_neg fun hsample => header_append_ne_sample hsample.2.2.1, if_neg]
      intro hpre
      obtain ⟨rest, hrest⟩ := List.isPrefixOf_iff_prefix.mp hpre
      obtain ⟨rfl, rfl, -⟩ := header_inj hrest
      exact hne rfl
  tag key nonce data associated := by
    simp only [sampleCryptography]
    split
    · decide
    · simp only [header, List.length_append, List.length_replicate]
      omega
  separates secretsKey salt cost secretsKey' salt' cost' key h h' := by
    simp only [sampleCryptography, Option.ite_none_right_eq_some, Option.some.injEq] at h h'
    obtain ⟨-, rfl⟩ := h
    obtain ⟨-, heq⟩ := h'
    split at heq
    · next hsample' =>
      split at heq
      · next hsample => exact ⟨hsample.1.trans hsample'.1.symm, hsample.2.1.trans hsample'.2.1.symm⟩
      · cases heq
    · split at heq
      · cases heq
      · obtain ⟨hkey, hsalt⟩ := framed_inj (List.cons.inj heq).2
        exact ⟨hkey.symm, hsalt.symm⟩
  accepts secretsKey salt cost _ _ := by
    simp only [sampleCryptography]
    split <;> simp_all

/-- The known secret. -/
def sampleSecret : Secret sampleCryptography where
  plaintext := "disk-password"
  secretsKey := "key"
  setting := "luks_password"
  salt := sampleSalt
  nonce := sampleNonce
  cost := sampleCost
  salt_size := rfl
  nonce_size := rfl
  reasonable := rfl
  accepted := rfl

theorem exists_boundSecret_sample : ∃ blob, sampleSecret.written = .ok blob ∧
    OpensForItsSetting unicode14 sampleSecret blob ∧
      RefusesParts unicode14 sampleSecret blob (IsAnotherPart sampleSecret blob) :=
  exists_boundSecret sampleCryptography_sound unicode14 sampleSecret

example : sampleSecret.written = .ok
    "dali-v2$argon2id$m=8,t=1,p=1$AAECAwQFBgcICQoLDA0ODw==$AAECAwQFBgcICQoLMV//ONlywHnQg8byH7dhpaJJvRtKRAqaCZVHyqw=" := by
  decide

/-- Another setting's secret has the same version, so taking that from it changes nothing. -/
theorem not_refusesParts : ¬ ∀ (cryptography : Cryptography), cryptography.Sound →
    ∀ (unicode : Unicode) (secret : Secret cryptography) blob, secret.written = .ok blob →
      RefusesParts unicode secret blob fun _ _ _ => True := by
  intro h
  obtain ⟨key, -, hwritten⟩ := sampleSecret.exists_written
  let other : Secret sampleCryptography := { sampleSecret with setting := "user_password" }
  obtain ⟨key', -, hwritten'⟩ := other.exists_written
  obtain ⟨error, herror, -⟩ := h _ sampleCryptography_sound unicode14 sampleSecret _ hwritten other _
    (by decide) hwritten' 0 formatVersion (by rw [split_secretText other.reasonable]; rfl) trivial
  have hopens : OpensForItsSetting unicode14 sampleSecret _ :=
    opensForItsSetting_written sampleCryptography_sound sampleSecret hwritten
  have hsame := hopens.opens
  rw [withPart, split_secretText sampleSecret.reasonable, secretParts, List.set_cons_zero] at herror
  exact nomatch herror.symm.trans hsame

end ArchInstaller
