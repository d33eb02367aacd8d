import ArchInstaller.Python.Digits

/-! # Characters beyond ASCII

What texts do depends on the Unicode data of the Python at hand, which grow with each version and
agree on ASCII. -/

namespace PyText

/-- Unicode data, as far as texts are read with them. -/
structure Unicode where
  /-- The value of a decimal digit of any script. -/
  decimal : Char → Option Nat
  /-- A character of `str.isdigit`: superscripts and circled digits are too. -/
  isDigit : Char → Bool
  /-- `str.lower()`. -/
  lower : String → String
  decimal_lt : ∀ c value, decimal c = some value → value < 10
  isDigit_of_decimal : ∀ c, (decimal c).isSome → isDigit c
  decimal_ascii : ∀ c, c.toNat < 128 →
    decimal c = if c.isDigit then some (c.toNat - '0'.toNat) else none
  lower_ascii : ∀ text : String, (∀ c ∈ text.toList, c.toNat < 128) → lower text = PyText.lower text

theorem digit_bounds {c : Char} (h : c.isDigit) : 48 ≤ c.toNat ∧ c.toNat ≤ 57 := by
  simp only [Char.isDigit, Bool.and_eq_true, decide_eq_true_eq] at h
  exact h

theorem isDigit_of_toDigits {n : Nat} {c : Char} (h : c ∈ Nat.toDigits 10 n) : c.isDigit :=
  Nat.isDigit_of_mem_toDigits (by decide) (by decide) h

namespace Unicode

variable (unicode : Unicode)

/-- `text.isdigit()`. -/
def isdigit (text : String) : Bool := !text.toList.isEmpty && text.toList.all unicode.isDigit

/-- The ASCII digit for a decimal digit. -/
def asciiDigit (c : Char) : Char :=
  match unicode.decimal c with
  | some value => Char.ofNat ('0'.toNat + value)
  | none => c

/-- The most digits that `int()` and `str()` convert. -/
def maxStrDigits : Nat := 4300

/-- `int(text)`, or `none` where it raises `ValueError`. -/
def int (text : String) : Option Int :=
  let ascii := text.toList.map unicode.asciiDigit
  if maxStrDigits < ascii.countP Char.isDigit then none else parseInt (String.ofList ascii)

theorem decimal_of_digit {c : Char} (h : c.isDigit) : unicode.decimal c = some (c.toNat - 48) := by
  have hbounds := digit_bounds h
  rw [unicode.decimal_ascii c (by omega), if_pos h]
  rfl

theorem asciiDigit_of_digit {c : Char} (h : c.isDigit) : unicode.asciiDigit c = c := by
  have hbounds := digit_bounds h
  have hcode : '0'.toNat + (c.toNat - 48) = c.toNat := by
    have hzero : '0'.toNat = 48 := rfl
    omega
  simp only [asciiDigit, unicode.decimal_of_digit h, hcode, Char.ofNat_toNat]

/-- A number is read from what is written for it. -/
theorem int_toString {n : Nat} (hlength : (toString (n : Int)).length ≤ maxStrDigits) :
    unicode.int (toString (n : Int)) = some (n : Int) := by
  have htext : (toString (n : Int)).toList = Nat.toDigits 10 n := toString_nat_toList n
  have hascii : (Nat.toDigits 10 n).map unicode.asciiDigit = Nat.toDigits 10 n :=
    (List.map_congr_left fun c hc => unicode.asciiDigit_of_digit (isDigit_of_toDigits hc)).trans
      (List.map_id _)
  have hcount : (Nat.toDigits 10 n).countP Char.isDigit ≤ maxStrDigits := by
    refine List.countP_le_length.trans ?_
    rwa [← htext, String.length_toList]
  rw [int, htext, hascii]
  rw [if_neg (by omega), parseInt_digits (fun _ => isDigit_of_toDigits) Nat.toDigits_ne_nil]
  exact congrArg (fun value : Nat => some (value : Int)) Nat.ofDigitChars_ten_toDigits

end Unicode

/-! ## Unicode 14 -/

/-- The zeros of the runs of ten decimal digits. -/
def decimalZeros : List Nat :=
  [0x30, 0x660, 0x6F0, 0x7C0, 0x966, 0x9E6, 0xA66, 0xAE6, 0xB66, 0xBE6, 0xC66, 0xCE6, 0xD66, 0xDE6,
    0xE50, 0xED0, 0xF20, 0x1040, 0x1090, 0x17E0, 0x1810, 0x1946, 0x19D0, 0x1A80, 0x1A90, 0x1B50,
    0x1BB0, 0x1C40, 0x1C50, 0xA620, 0xA8D0, 0xA900, 0xA9D0, 0xA9F0, 0xAA50, 0xABF0, 0xFF10, 0x104A0,
    0x10D30, 0x11066, 0x110F0, 0x11136, 0x111D0, 0x112F0, 0x11450, 0x114D0, 0x11650, 0x116C0,
    0x11730, 0x118E0, 0x11950, 0x11C50, 0x11D50, 0x11DA0, 0x16A60, 0x16AC0, 0x16B50, 0x1D7CE,
    0x1D7D8, 0x1D7E2, 0x1D7EC, 0x1D7F6, 0x1E140, 0x1E2F0, 0x1E950, 0x1FBF0]

/-- The runs of digits that are no decimal digits, from the first to the last. -/
def otherDigits : List (Nat × Nat) :=
  [(0xB2, 0xB3), (0xB9, 0xB9), (0x1369, 0x1371), (0x19DA, 0x19DA), (0x2070, 0x2070),
    (0x2074, 0x2079), (0x2080, 0x2089), (0x2460, 0x2468), (0x2474, 0x247C), (0x2488, 0x2490),
    (0x24EA, 0x24EA), (0x24F5, 0x24FD), (0x24FF, 0x24FF), (0x2776, 0x277E), (0x2780, 0x2788),
    (0x278A, 0x2792), (0x10A40, 0x10A43), (0x10E60, 0x10E68), (0x11052, 0x1105A), (0x1F100, 0x1F10A)]

def decimalOf (c : Char) : Option Nat :=
  (decimalZeros.find? fun first => first ≤ c.toNat && c.toNat < first + 10).map (c.toNat - ·)

def isDigitChar (c : Char) : Bool :=
  (decimalOf c).isSome || otherDigits.any fun (first, last) => first ≤ c.toNat && c.toNat ≤ last

theorem decimalOf_ascii {c : Char} (h : c.toNat < 128) :
    decimalOf c = if c.isDigit then some (c.toNat - '0'.toNat) else none := by
  have hnat : ∀ n < 128,
      (decimalZeros.find? fun first => first ≤ n && n < first + 10).map (n - ·) =
        if 48 ≤ n ∧ n ≤ 57 then some (n - 48) else none := by
    decide
  have hdigit : c.isDigit ↔ 48 ≤ c.toNat ∧ c.toNat ≤ 57 := by
    simp [Char.isDigit, UInt32.le_iff_toNat_le]
  rw [decimalOf, hnat c.toNat h]
  simp only [hdigit]
  rfl

/-- Unicode 14, but for the letters that are not ASCII, which are left alone in lower case. -/
def unicode14 : Unicode where
  decimal := decimalOf
  isDigit := isDigitChar
  lower := PyText.lower
  decimal_lt c value h := by
    rw [decimalOf, Option.map_eq_some_iff] at h
    obtain ⟨first, hfind, rfl⟩ := h
    have hrange := List.find?_some hfind
    simp only [Bool.and_eq_true, decide_eq_true_eq] at hrange
    omega
  isDigit_of_decimal c h := by rw [isDigitChar, h, Bool.true_or]
  decimal_ascii _ h := decimalOf_ascii h
  lower_ascii _ _ := rfl

end PyText
