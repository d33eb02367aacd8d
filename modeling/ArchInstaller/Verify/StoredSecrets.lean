import ArchInstaller.Config.EncryptedCredentials
import ArchInstaller.Verify.Secrets

/-! # Bad stored secrets

Whatever is stored in place of a secret is refused, unless it slips through the checks of
`decrypt_secret`. -/

namespace ArchInstaller

open PyData PyText

/-! ## The claim -/

section

variable (cryptography : Cryptography) (unicode : Unicode)

/-- Only a `ConfigurationError` is raised. -/
def RefusesProperly {α : Type} (result : Except SecretError α) : Prop :=
  ∀ error, result = .error error → error.isConfigurationError

/-- A blob that gets to the key derivation: its cost is read and is reasonable, and its salt, nonce
and ciphertext are long enough. -/
structure Derives (blob : String) (cost : Argon2Cost) (salt nonce ciphertext : Bytes) : Prop where
  parts : ∃ encoded saltPart payloadPart,
    split "$" blob = [formatVersion, keyDerivationName, encoded, saltPart, payloadPart] ∧
      parseCost unicode encoded = .ok cost ∧ base64Decode saltPart = some salt ∧
      base64Decode payloadPart = some (nonce ++ ciphertext)
  salt_size : salt.length = saltSizeBytes
  nonce_size : nonce.length = nonceSizeBytes
  tag : gcmTagSizeBytes ≤ ciphertext.length

/-- A blob that is decrypted to some bytes. -/
structure Deciphers (secretsKey setting blob : String) (data : Bytes) : Prop where
  exists_key : ∃ cost salt nonce ciphertext key, Derives unicode blob cost salt nonce ciphertext ∧
    cryptography.derive (utf8 secretsKey) salt cost = some key ∧
      cryptography.decrypt key nonce ciphertext (associatedData setting) = some data

/-- What slips through the checks: a value that is no text, a cost with a number of too many digits,
a cost with too little memory for its lanes, and a ciphertext of bytes that are no UTF-8. -/
inductive Slips (secretsKey setting : String) (value : PyValue) : Prop
  | notText (htruth : value.truth) (htext : value.text = none)
  | longNumber {blob encoded saltPart payloadPart memory iterations lanes : String}
    (htext : value.text = some blob)
    (hparts : split "$" blob = [formatVersion, keyDerivationName, encoded, saltPart, payloadPart])
    (hmatch : matchCost unicode encoded = some (memory, iterations, lanes))
    (hlong : ∃ number ∈ [memory, iterations, lanes], Unicode.maxStrDigits < number.length)
  | fewMemory {blob : String} {cost : Argon2Cost} {salt nonce ciphertext : Bytes}
    (htext : value.text = some blob) (hderives : Derives unicode blob cost salt nonce ciphertext)
    (hmemory : cost.memoryKib < 8 * cost.lanes)
  | notUtf8 {blob : String} {data : Bytes} (htext : value.text = some blob)
    (hdata : Deciphers cryptography unicode secretsKey setting blob data)
    (hutf8 : utf8Decode data = none)

/-- A value that is decrypted. -/
def Opens (secretsKey setting : String) (value : PyValue) : Prop :=
  ∃ blob data, value.text = some blob ∧
    Deciphers cryptography unicode secretsKey setting blob data ∧ (utf8Decode data).isSome

/-- Costs are accepted by their memory. -/
def Cryptography.AcceptsByMemory : Prop :=
  ∀ secretsKey salt cost, salt.length = saltSizeBytes → cost.isReasonable →
    ((cryptography.derive secretsKey salt cost).isSome ↔ 8 * cost.lanes ≤ cost.memoryKib)

end

section

variable {cryptography : Cryptography} {unicode : Unicode}

/-! ## Numbers -/

theorem decimal_of_takeNumber {label number : String} {chars rest : List Char}
    (h : takeNumber unicode label chars = some (number, rest)) :
    number ≠ "" ∧ ∀ c ∈ number.toList, (unicode.decimal c).isSome := by
  unfold takeNumber at h
  split at h
  · dsimp only at h
    split at h
    · cases h
    · next hne =>
      cases h
      refine ⟨fun hempty => hne (by simpa using hempty), fun c hc => ?_⟩
      rw [String.toList_ofList] at hc
      exact List.all_eq_true.mp List.all_takeWhile c hc
  · cases h

theorem isDigit_asciiDigit {c : Char} (h : (unicode.decimal c).isSome) :
    (unicode.asciiDigit c).isDigit := by
  obtain ⟨value, hvalue⟩ := Option.isSome_iff_exists.mp h
  have hlt := unicode.decimal_lt c value hvalue
  rw [Unicode.asciiDigit, hvalue]
  have hall : ∀ n < 10, (Char.ofNat ('0'.toNat + n)).isDigit := by decide
  exact hall value hlt

/-- Digits of any script are a number, unless there are too many. -/
theorem int_eq_none_iff {number : String} (hne : number ≠ "")
    (h : ∀ c ∈ number.toList, (unicode.decimal c).isSome) :
    unicode.int number = none ↔ Unicode.maxStrDigits < number.length := by
  have hdigits : ∀ c ∈ number.toList.map unicode.asciiDigit, c.isDigit := by
    intro c hc
    obtain ⟨c', hc', rfl⟩ := List.mem_map.mp hc
    exact isDigit_asciiDigit (h c' hc')
  have hcount : (number.toList.map unicode.asciiDigit).countP Char.isDigit = number.length := by
    rw [List.countP_eq_length.mpr hdigits, List.length_map, String.length_toList]
  rw [Unicode.int, hcount]
  split
  · simp [*]
  · rw [parseInt_digits hdigits (by simpa using hne)]
    simp [*]

theorem matchCost_numbers {encoded memory iterations lanes : String}
    (h : matchCost unicode encoded = some (memory, iterations, lanes)) :
    ∀ number ∈ [memory, iterations, lanes],
      (unicode.int number = none ↔ Unicode.maxStrDigits < number.length) := by
  have hnumber : ∀ {label number : String} {chars rest : List Char},
      takeNumber unicode label chars = some (number, rest) →
        (unicode.int number = none ↔ Unicode.maxStrDigits < number.length) := by
    intro label number chars rest htake
    obtain ⟨hne, hdecimal⟩ := decimal_of_takeNumber htake
    exact int_eq_none_iff hne hdecimal
  simp only [matchCost, Option.bind_eq_bind, Option.bind_eq_some_iff, Prod.exists] at h
  obtain ⟨memory', rest, hmemory, iterations', rest', hiterations, lanes', rest'', hlanes, hend⟩ := h
  split at hend
  · cases hend
    simp only [List.forall_mem_cons]
    exact ⟨hnumber hmemory, hnumber hiterations, hnumber hlanes, fun _ h => absurd h List.not_mem_nil⟩
  · cases hend

/-- `int()` raises for a number of too many digits. -/
theorem readNumber_cases {number : String}
    (h : unicode.int number = none ↔ Unicode.maxStrDigits < number.length) :
    (∃ value, readNumber unicode number = .ok value ∧ ¬ Unicode.maxStrDigits < number.length) ∨
      (readNumber unicode number = .error .valueError ∧ Unicode.maxStrDigits < number.length) := by
  cases hvalue : unicode.int number with
  | some value =>
    refine .inl ⟨value, by rw [readNumber, hvalue], fun hlong => ?_⟩
    exact absurd (hvalue.symm.trans (h.mpr hlong)) (Option.some_ne_none value)
  | none => exact .inr ⟨by rw [readNumber, hvalue], h.mp hvalue⟩

/-- A cost is read, refused, or raises for one of its numbers. -/
theorem parseCost_cases (unicode : Unicode) (encoded : String) :
    (∃ cost, parseCost unicode encoded = .ok cost ∧ cost.isReasonable) ∨
      (∃ error, parseCost unicode encoded = .error error ∧ error.isConfigurationError) ∨
        (∃ memory iterations lanes, matchCost unicode encoded = some (memory, iterations, lanes) ∧
          ∃ number ∈ [memory, iterations, lanes], Unicode.maxStrDigits < number.length) := by
  cases hmatch : matchCost unicode encoded with
  | none => exact .inr (.inl ⟨_, by rw [parseCost, hmatch], rfl⟩)
  | some numbers =>
    obtain ⟨memory, iterations, lanes⟩ := numbers
    have hnumbers := matchCost_numbers hmatch
    rcases readNumber_cases (hnumbers memory (by simp)) with ⟨m, hm, -⟩ | ⟨-, hlong⟩
    · rcases readNumber_cases (hnumbers iterations (by simp)) with ⟨t, ht, -⟩ | ⟨-, hlong⟩
      · rcases readNumber_cases (hnumbers lanes (by simp)) with ⟨p, hp, -⟩ | ⟨-, hlong⟩
        · have hcost : parseCost unicode encoded = if (Argon2Cost.mk m t p).isReasonable
              then .ok ⟨m, t, p⟩ else .error (.unreasonableCost encoded) := by
            rw [parseCost, hmatch]
            simp only [hm, ht, hp]
            rfl
          by_cases hreasonable : (Argon2Cost.mk m t p).isReasonable
          · exact .inl ⟨_, by rw [hcost, if_pos hreasonable], hreasonable⟩
          · exact .inr (.inl ⟨_, by rw [hcost, if_neg hreasonable], rfl⟩)
        · exact .inr (.inr ⟨_, _, _, rfl, lanes, by simp, hlong⟩)
      · exact .inr (.inr ⟨_, _, _, rfl, iterations, by simp, hlong⟩)
    · exact .inr (.inr ⟨_, _, _, rfl, memory, by simp, hlong⟩)

/-- A cost with a number of too many digits raises `ValueError`. -/
theorem parseCost_long {encoded memory iterations lanes : String}
    (hmatch : matchCost unicode encoded = some (memory, iterations, lanes))
    (hlong : ∃ number ∈ [memory, iterations, lanes], Unicode.maxStrDigits < number.length) :
    parseCost unicode encoded = .error .valueError := by
  have hnumbers := matchCost_numbers hmatch
  obtain ⟨number, hnumber, hlength⟩ := hlong
  rw [parseCost, hmatch]
  dsimp only
  rcases readNumber_cases (hnumbers memory (by simp)) with ⟨m, hm, hshort⟩ | ⟨hm, -⟩ <;> rw [hm]
  · rcases readNumber_cases (hnumbers iterations (by simp)) with ⟨t, ht, hshort'⟩ | ⟨ht, -⟩ <;>
      rw [ht]
    · rcases readNumber_cases (hnumbers lanes (by simp)) with ⟨p, -, hshort''⟩ | ⟨hp, -⟩
      · simp only [List.mem_cons, List.not_mem_nil, or_false] at hnumber
        rcases hnumber with rfl | rfl | rfl
        · exact absurd hlength hshort
        · exact absurd hlength hshort'
        · exact absurd hlength hshort''
      · rw [hp]
        rfl
    · rfl
  · rfl

/-! ## Blobs -/

/-- A blob with its five parts, that are all read. -/
theorem Derives.decryptSecret_eq {blob : String} {cost : Argon2Cost} {salt nonce ciphertext : Bytes}
    (h : Derives unicode blob cost salt nonce ciphertext) (secretsKey setting : String) :
    decryptSecret cryptography unicode blob secretsKey setting =
      openSecret cryptography secretsKey setting cost salt (nonce ++ ciphertext) := by
  obtain ⟨encoded, saltPart, payloadPart, hparts, hcost, hsalt, hpayload⟩ := h.parts
  rw [decryptSecret, hparts]
  simp only [and_self, if_true, hcost, base64Part, hsalt, hpayload]
  rfl

theorem Deciphers.decryptSecret_eq {secretsKey setting blob : String} {data : Bytes}
    (h : Deciphers cryptography unicode secretsKey setting blob data) :
    decryptSecret cryptography unicode blob secretsKey setting =
      match utf8Decode data with
      | some plaintext => .ok plaintext
      | none => .error .unicodeDecodeError := by
  obtain ⟨cost, salt, nonce, ciphertext, key, hderives, hkey, hdata⟩ := h.exists_key
  rw [hderives.decryptSecret_eq,
    openSecret_eq hderives.salt_size hderives.nonce_size hderives.tag hkey]
  cases hplain : utf8Decode data <;> simp only [hdata, hplain]

theorem Derives.reasonable {blob : String} {cost : Argon2Cost} {salt nonce ciphertext : Bytes}
    (h : Derives unicode blob cost salt nonce ciphertext) : cost.isReasonable := by
  obtain ⟨encoded, -, -, -, hcost, -, -⟩ := h.parts
  rcases parseCost_cases unicode encoded with ⟨cost', hcost', hreasonable⟩ | ⟨error, herror, -⟩ |
    ⟨_, _, _, hmatch, hlong⟩
  · rw [hcost] at hcost'
    cases hcost'
    exact hreasonable
  · exact nomatch hcost.symm.trans herror
  · exact nomatch hcost.symm.trans (parseCost_long hmatch hlong)

/-- A nonce and a ciphertext that are long enough are looked at. -/
theorem not_truncated {salt nonce ciphertext : Bytes} (hsalt : salt.length = saltSizeBytes)
    (hnonce : nonce.length = nonceSizeBytes) (htag : gcmTagSizeBytes ≤ ciphertext.length) :
    ¬ (salt.length ≠ saltSizeBytes ∨
      (nonce ++ ciphertext).length < nonceSizeBytes + gcmTagSizeBytes) := by
  rw [List.length_append, not_or]
  exact ⟨not_not_intro hsalt, by omega⟩

/-- A cost that the key derivation does not accept raises `ValueError`. -/
theorem Derives.decryptSecret_eq_error {secretsKey setting blob : String} {cost : Argon2Cost}
    {salt nonce ciphertext : Bytes} (h : Derives unicode blob cost salt nonce ciphertext)
    (hkey : cryptography.derive (utf8 secretsKey) salt cost = none) :
    decryptSecret cryptography unicode blob secretsKey setting = .error .valueError := by
  rw [h.decryptSecret_eq, openSecret, if_neg (not_truncated h.salt_size h.nonce_size h.tag)]
  simp only [aesKey, hkey]
  rfl

/-- What slips through is refused with another exception. -/
theorem Slips.decryptValue_eq (haccepts : cryptography.AcceptsByMemory) {secretsKey setting : String}
    {value : PyValue} (h : Slips cryptography unicode secretsKey setting value) :
    ∃ error, decryptValue cryptography unicode value secretsKey setting = .error error ∧
      ¬ error.isConfigurationError := by
  cases h with
  | notText _ htext => exact ⟨.notText, by rw [decryptValue, htext], Bool.false_ne_true⟩
  | longNumber htext hparts hmatch hlong =>
    refine ⟨.valueError, ?_, Bool.false_ne_true⟩
    simp only [decryptValue, htext, decryptSecret, hparts, and_self, if_true,
      parseCost_long hmatch hlong]
    rfl
  | @fewMemory blob cost salt nonce ciphertext htext hderives hmemory =>
    refine ⟨.valueError, ?_, Bool.false_ne_true⟩
    have hkey : cryptography.derive (utf8 secretsKey) salt cost = none := by
      rw [← Option.not_isSome_iff_eq_none,
        haccepts _ _ _ hderives.salt_size hderives.reasonable]
      omega
    rw [decryptValue, htext]
    exact hderives.decryptSecret_eq_error hkey
  | notUtf8 htext hdata hutf8 =>
    refine ⟨.unicodeDecodeError, ?_, Bool.false_ne_true⟩
    rw [decryptValue, htext]
    exact hdata.decryptSecret_eq.trans (by rw [hutf8])

theorem Opens.decryptValue_eq {secretsKey setting : String} {value : PyValue}
    (h : Opens cryptography unicode secretsKey setting value) :
    ∃ plaintext, decryptValue cryptography unicode value secretsKey setting = .ok plaintext := by
  obtain ⟨blob, data, htext, hdata, hutf8⟩ := h
  obtain ⟨plaintext, hplaintext⟩ := Option.isSome_iff_exists.mp hutf8
  refine ⟨plaintext, ?_⟩
  rw [decryptValue, htext]
  exact hdata.decryptSecret_eq.trans (by rw [hplaintext])

/-- The five parts of a blob are read one after the other. -/
theorem decryptSecret_parts {blob encoded saltPart payloadPart : String}
    (hparts : split "$" blob = [formatVersion, keyDerivationName, encoded, saltPart, payloadPart])
    (secretsKey setting : String) :
    decryptSecret cryptography unicode blob secretsKey setting =
      (parseCost unicode encoded).bind fun cost =>
        (base64Part saltPart "salt").bind fun salt =>
          (base64Part payloadPart "payload").bind fun payload =>
            openSecret cryptography secretsKey setting cost salt payload := by
  rw [decryptSecret, hparts]
  simp only [and_self, if_true]
  rfl

/-- A blob of five parts gets to the key derivation, or is refused before. -/
theorem derives_or_refused {blob encoded saltPart payloadPart : String} {cost : Argon2Cost}
    (hparts : split "$" blob = [formatVersion, keyDerivationName, encoded, saltPart, payloadPart])
    (hcost : parseCost unicode encoded = .ok cost) (secretsKey setting : String) :
    (∃ salt nonce ciphertext, Derives unicode blob cost salt nonce ciphertext) ∨
      IsRefused (decryptSecret cryptography unicode blob secretsKey setting) := by
  rw [decryptSecret_parts hparts, hcost]
  cases hsalt : base64Decode saltPart with
  | none => exact .inr ⟨.invalidPart "salt", by rw [base64Part, hsalt]; rfl, rfl⟩
  | some salt =>
    cases hpayload : base64Decode payloadPart with
    | none =>
      exact .inr ⟨.invalidPart "payload", by rw [base64Part, hsalt, base64Part, hpayload]; rfl, rfl⟩
    | some payload =>
      by_cases hlength : salt.length ≠ saltSizeBytes ∨
          payload.length < nonceSizeBytes + gcmTagSizeBytes
      · refine .inr ⟨.truncated setting, ?_, rfl⟩
        rw [base64Part, hsalt, base64Part, hpayload]
        simp only [Except.bind, openSecret, if_pos hlength]
        rfl
      · rw [not_or, not_not, Nat.not_lt] at hlength
        refine .inl ⟨salt, payload.take nonceSizeBytes, payload.drop nonceSizeBytes, ?_⟩
        refine ⟨⟨encoded, saltPart, payloadPart, hparts, hcost, hsalt, ?_⟩, hlength.1, ?_, ?_⟩
        · rw [List.take_append_drop, hpayload]
        · rw [List.length_take]
          omega
        · rw [List.length_drop]
          omega

/-- A value opens, slips through, or is refused. -/
theorem decryptValue_cases (haccepts : cryptography.AcceptsByMemory) (secretsKey setting : String)
    {value : PyValue} (htruth : value.truth) :
    Opens cryptography unicode secretsKey setting value ∨
      Slips cryptography unicode secretsKey setting value ∨
        IsRefused (decryptValue cryptography unicode value secretsKey setting) := by
  cases htext : value.text with
  | none => exact .inr (.inl (.notText htruth htext))
  | some blob =>
    have hblob : decryptValue cryptography unicode value secretsKey setting =
        decryptSecret cryptography unicode blob secretsKey setting := by
      rw [decryptValue, htext]
    rw [hblob]
    by_cases hparts : ∃ encoded saltPart payloadPart,
        split "$" blob = [formatVersion, keyDerivationName, encoded, saltPart, payloadPart]
    · obtain ⟨encoded, saltPart, payloadPart, hparts⟩ := hparts
      rcases parseCost_cases unicode encoded with ⟨cost, hcost, -⟩ | ⟨error, herror, hrefused⟩ |
        ⟨_, _, _, hmatch, hlong⟩
      · rcases derives_or_refused hparts hcost secretsKey setting with
          ⟨salt, nonce, ciphertext, hderives⟩ | hrefused
        · cases hkey : cryptography.derive (utf8 secretsKey) salt cost with
          | none =>
            refine .inr (.inl (.fewMemory htext hderives ?_))
            rw [← Option.not_isSome_iff_eq_none, haccepts _ _ _ hderives.salt_size hderives.reasonable]
              at hkey
            omega
          | some key =>
            cases hdata : cryptography.decrypt key nonce ciphertext (associatedData setting) with
            | none =>
              refine .inr (.inr ⟨.failed setting, ?_, rfl⟩)
              rw [hderives.decryptSecret_eq,
                openSecret_eq hderives.salt_size hderives.nonce_size hderives.tag hkey, hdata]
            | some data =>
              have hdeciphers : Deciphers cryptography unicode secretsKey setting blob data :=
                ⟨cost, salt, nonce, ciphertext, key, hderives, hkey, hdata⟩
              cases hutf8 : utf8Decode data with
              | none => exact .inr (.inl (.notUtf8 htext hdeciphers hutf8))
              | some plaintext => exact .inl ⟨blob, data, htext, hdeciphers, by rw [hutf8]; rfl⟩
        · exact .inr (.inr hrefused)
      · refine .inr (.inr ⟨error, ?_, hrefused⟩)
        rw [decryptSecret_parts hparts, herror]
        rfl
      · exact .inr (.inl (.longNumber htext hparts hmatch hlong))
    · refine .inr (.inr ⟨.oldFormat setting, ?_, rfl⟩)
      rw [decryptSecret]
      split
      · next version name cost salt payload hsplit =>
        rw [if_neg]
        rintro ⟨rfl, rfl⟩
        exact hparts ⟨_, _, _, hsplit⟩
      · rfl

/-- What slips through is not empty. -/
theorem Slips.truth {secretsKey setting : String} {value : PyValue}
    (h : Slips cryptography unicode secretsKey setting value) : value.truth := by
  have htext : ∀ {blob version name encoded saltPart payloadPart}, value.text = some blob →
      split "$" blob = [version, name, encoded, saltPart, payloadPart] → value.truth := by
    intro blob version name encoded saltPart payloadPart htext hparts
    have hne : blob ≠ "" := by
      rintro rfl
      cases hparts
    cases value <;> cases htext <;> exact decide_eq_true hne
  cases h with
  | notText htruth _ => exact htruth
  | longNumber hblob hparts _ _ => exact htext hblob hparts
  | fewMemory hblob hderives _ =>
    obtain ⟨_, _, _, hparts, -⟩ := hderives.parts
    exact htext hblob hparts
  | notUtf8 hblob hdata _ =>
    obtain ⟨_, _, _, _, _, hderives, -⟩ := hdata.exists_key
    obtain ⟨_, _, _, hparts, -⟩ := hderives.parts
    exact htext hblob hparts

/-! ## Both secrets -/

/-- A secret that slips through is neither read nor left out. -/
theorem Slips.not_read (haccepts : cryptography.AcceptsByMemory) {secretsKey setting : String}
    {value : PyValue} (h : Slips cryptography unicode secretsKey setting value) :
    value.truth ∧ ¬ Opens cryptography unicode secretsKey setting value := by
  refine ⟨h.truth, fun hopens => ?_⟩
  obtain ⟨error, herror, -⟩ := h.decryptValue_eq haccepts
  obtain ⟨plaintext, hplaintext⟩ := hopens.decryptValue_eq
  exact nomatch herror.symm.trans hplaintext

/-- One secret of the file: it is read or left out, slips through, or is refused. -/
theorem decryptCredential_cases (haccepts : cryptography.AcceptsByMemory)
    (values : List (String × PyValue)) (secretsKey encryptedPath credentialPath secretName : String)
    (credentials : List (String × PyValue)) :
    let value := fileValue values encryptedPath
    let result := decryptCredential cryptography unicode values secretsKey credentials
      (encryptedPath, credentialPath, secretName)
    ((¬ value.truth ∨ Opens cryptography unicode secretsKey secretName value) ∧
        ∃ credentials', result = .ok credentials') ∨
      (Slips cryptography unicode secretsKey secretName value ∧
        ∃ error, result = .error error ∧ ¬ error.isConfigurationError) ∨
      ((value.truth ∧ ¬ Opens cryptography unicode secretsKey secretName value ∧
          ¬ Slips cryptography unicode secretsKey secretName value) ∧
        ∃ error, result = .error error ∧ error.isConfigurationError) := by
  intro value result
  by_cases htruth : value.truth
  · have hresult : result = (decryptValue cryptography unicode value secretsKey secretName).bind
        fun password => .ok (assign credentialPath (.str password) credentials) := if_pos htruth
    rcases decryptValue_cases haccepts secretsKey secretName htruth with
      hopens | hslips | ⟨error, herror, hrefused⟩
    · obtain ⟨plaintext, hplaintext⟩ := hopens.decryptValue_eq
      exact .inl ⟨.inr hopens, _, by rw [hresult, hplaintext]; rfl⟩
    · obtain ⟨error, herror, hother⟩ := hslips.decryptValue_eq haccepts
      exact .inr (.inl ⟨hslips, error, by rw [hresult, herror]; rfl, hother⟩)
    · refine .inr (.inr ⟨⟨htruth, fun hopens => ?_, fun hslips => ?_⟩, error,
        by rw [hresult, herror]; rfl, hrefused⟩)
      · obtain ⟨plaintext, hplaintext⟩ := hopens.decryptValue_eq
        exact nomatch herror.symm.trans hplaintext
      · obtain ⟨error', herror', hother⟩ := hslips.decryptValue_eq haccepts
        rw [herror] at herror'
        cases herror'
        exact hother hrefused
  · exact .inl ⟨.inl htruth, credentials, if_neg htruth⟩

/-- The first exception is raised. -/
theorem refusesProperly_of_error {α : Type} {result : Except SecretError α} {error : SecretError}
    (h : result = .error error) : RefusesProperly result ↔ error.isConfigurationError := by
  subst h
  exact ⟨fun hrefuses => hrefuses error rfl, fun herror _ heq => by cases heq; exact herror⟩

end

/-! ## Secrets of other kinds -/

/-- A text in no known format does not slip through. -/
theorem not_slips_oldSecret : ¬ Slips sampleCryptography unicode14 "key" luksPasswordSecret
    (.str "old-secret") := by
  have hparts : ∀ {blob encoded saltPart payloadPart : String},
      PyValue.text (.str "old-secret") = some blob →
        split "$" blob ≠ [formatVersion, keyDerivationName, encoded, saltPart, payloadPart] := by
    rintro blob encoded saltPart payloadPart htext hparts
    cases htext
    have hlength : (split "$" "old-secret").length = 5 := congrArg List.length hparts
    exact absurd hlength (by decide)
  intro hslips
  cases hslips with
  | notText _ htext => cases htext
  | longNumber htext hsplit _ _ => exact hparts htext hsplit
  | fewMemory htext hderives _ =>
    obtain ⟨_, _, _, hsplit, -⟩ := hderives.parts
    exact hparts htext hsplit
  | notUtf8 htext hdata _ =>
    obtain ⟨_, _, _, _, _, hderives, -⟩ := hdata.exists_key
    obtain ⟨_, _, _, hsplit, -⟩ := hderives.parts
    exact hparts htext hsplit

end ArchInstaller
