import ArchInstaller.Python.Text

/-! # Bytes, UTF-8 and `base64`

`b64encode`, and `b64decode(…, validate=True)`, on lists of bytes. -/

namespace PyText

abbrev Bytes := List UInt8

/-- `s.encode()`. -/
def utf8 (s : String) : Bytes := s.toUTF8.data.toList

/-- `data.decode()`, or `none` where it raises `UnicodeDecodeError`. -/
def utf8Decode (data : Bytes) : Option String := String.fromUTF8? ⟨data.toArray⟩

@[simp] theorem utf8Decode_utf8 (s : String) : utf8Decode (utf8 s) = some s := by
  have hbytes : (⟨(utf8 s).toArray⟩ : ByteArray) = s.toUTF8 := by
    rw [utf8, Array.toArray_toList]
  rw [utf8Decode, hbytes, String.fromUTF8?]
  simp only [String.toUTF8_eq_toByteArray, Option.dite_none_right_eq_some, Option.some.injEq]
  exact ⟨s.isValidUTF8, rfl⟩

theorem utf8_injective {s s' : String} (h : utf8 s = utf8 s') : s = s' := by
  have hsome := utf8Decode_utf8 s
  rw [h, utf8Decode_utf8] at hsome
  exact (Option.some.inj hsome).symm

def base64Alphabet : List Char :=
  "ABCDEFGHIJKLMNOPQRSTUVWXYZabcdefghijklmnopqrstuvwxyz0123456789+/".toList

def base64Char (n : Nat) : Char := base64Alphabet.getD n 'A'

def base64Value (c : Char) : Option Nat :=
  if c.isUpper then some (c.toNat - 65)
  else if c.isLower then some (c.toNat - 97 + 26)
  else if c.isDigit then some (c.toNat - 48 + 52)
  else if c = '+' then some 62
  else if c = '/' then some 63
  else none

/-- `base64.b64encode(data)`. -/
def base64Chars : Bytes → List Char
  | [] => []
  | [a] => [base64Char (a.toNat / 4), base64Char (a.toNat % 4 * 16), '=', '=']
  | [a, b] =>
    [base64Char (a.toNat / 4), base64Char (a.toNat % 4 * 16 + b.toNat / 16),
      base64Char (b.toNat % 16 * 4), '=']
  | a :: b :: c :: data =>
    base64Char (a.toNat / 4) :: base64Char (a.toNat % 4 * 16 + b.toNat / 16) ::
      base64Char (b.toNat % 16 * 4 + c.toNat / 64) :: base64Char (c.toNat % 64) :: base64Chars data

/-- `base64.b64decode(text, validate=True)`, or `none` where it raises `binascii.Error`, or a
`ValueError` for text that is not ASCII: padding ends the text. -/
def base64Bytes : List Char → Option Bytes
  | [] => some []
  | w :: x :: y :: z :: chars => do
    let w ← base64Value w
    let x ← base64Value x
    if z = '=' then
      if chars ≠ [] then none
      else if y = '=' then some [UInt8.ofNat (w * 4 + x / 16)]
      else do
        let y ← base64Value y
        return [UInt8.ofNat (w * 4 + x / 16), UInt8.ofNat (x % 16 * 16 + y / 4)]
    else do
      let y ← base64Value y
      let z ← base64Value z
      let data ← base64Bytes chars
      return UInt8.ofNat (w * 4 + x / 16) :: UInt8.ofNat (x % 16 * 16 + y / 4) ::
        UInt8.ofNat (y % 4 * 64 + z) :: data
  | _ => none

def base64Encode (data : Bytes) : String := String.ofList (base64Chars data)

def base64Decode (text : String) : Option Bytes := base64Bytes text.toList

theorem base64Char_spec {n : Nat} (h : n < 64) :
    base64Value (base64Char n) = some n ∧ base64Char n ≠ '=' ∧ base64Char n ≠ '$' := by
  have hall : ∀ n : Fin 64,
      base64Value (base64Char n) = some n.val ∧ base64Char n ≠ '=' ∧ base64Char n ≠ '$' := by
    decide +kernel
  exact hall ⟨n, h⟩

theorem ofNat_eq_of_toNat {a : UInt8} {n : Nat} (h : n = a.toNat) : UInt8.ofNat n = a := by
  rw [h, UInt8.ofNat_toNat]

theorem base64Bytes_chars (data : Bytes) : base64Bytes (base64Chars data) = some data := by
  induction data using base64Chars.induct with
  | case1 => rfl
  | case2 a =>
    have ha := a.toNat_lt
    rw [base64Chars, base64Bytes, (base64Char_spec (by omega)).1, (base64Char_spec (by omega)).1]
    simp only [Option.bind_eq_bind, Option.bind_some, if_true, ne_eq, not_true_eq_false, if_false,
      Option.some.injEq, List.cons.injEq, and_true]
    exact ofNat_eq_of_toNat (by omega)
  | case3 a b =>
    have ha := a.toNat_lt
    have hb := b.toNat_lt
    rw [base64Chars, base64Bytes, (base64Char_spec (by omega)).1, (base64Char_spec (by omega)).1,
      (base64Char_spec (by omega)).1]
    simp only [Option.bind_eq_bind, Option.bind_some, if_true, ne_eq, not_true_eq_false, if_false,
      (base64Char_spec (show b.toNat % 16 * 4 < 64 by omega)).2.1, Option.pure_def,
      Option.some.injEq, List.cons.injEq, and_true]
    exact ⟨ofNat_eq_of_toNat (by omega), ofNat_eq_of_toNat (by omega)⟩
  | case4 a b c data ih =>
    have ha := a.toNat_lt
    have hb := b.toNat_lt
    have hc := c.toNat_lt
    rw [base64Chars, base64Bytes, (base64Char_spec (by omega)).1, (base64Char_spec (by omega)).1,
      (base64Char_spec (by omega)).1, (base64Char_spec (by omega)).1, ih]
    simp only [Option.bind_eq_bind, Option.bind_some, if_false,
      (base64Char_spec (show c.toNat % 64 < 64 by omega)).2.1, Option.pure_def,
      Option.some.injEq, List.cons.injEq, and_true]
    exact ⟨ofNat_eq_of_toNat (by omega), ofNat_eq_of_toNat (by omega), ofNat_eq_of_toNat (by omega)⟩

@[simp] theorem base64Decode_encode (data : Bytes) : base64Decode (base64Encode data) = some data := by
  rw [base64Decode, base64Encode, String.toList_ofList, base64Bytes_chars]

theorem dollar_not_mem_base64Chars (data : Bytes) : '$' ∉ base64Chars data := by
  induction data using base64Chars.induct with
  | case1 => exact List.not_mem_nil
  | case2 a =>
    have ha := a.toNat_lt
    simp [base64Chars, (base64Char_spec (show a.toNat / 4 < 64 by omega)).2.2.symm,
      (base64Char_spec (show a.toNat % 4 * 16 < 64 by omega)).2.2.symm]
  | case3 a b =>
    have ha := a.toNat_lt
    have hb := b.toNat_lt
    simp [base64Chars, (base64Char_spec (show a.toNat / 4 < 64 by omega)).2.2.symm,
      (base64Char_spec (show a.toNat % 4 * 16 + b.toNat / 16 < 64 by omega)).2.2.symm,
      (base64Char_spec (show b.toNat % 16 * 4 < 64 by omega)).2.2.symm]
  | case4 a b c data ih =>
    have ha := a.toNat_lt
    have hb := b.toNat_lt
    have hc := c.toNat_lt
    simp [base64Chars, ih, (base64Char_spec (show a.toNat / 4 < 64 by omega)).2.2.symm,
      (base64Char_spec (show a.toNat % 4 * 16 + b.toNat / 16 < 64 by omega)).2.2.symm,
      (base64Char_spec (show b.toNat % 16 * 4 + c.toNat / 64 < 64 by omega)).2.2.symm,
      (base64Char_spec (show c.toNat % 64 < 64 by omega)).2.2.symm]

end PyText
