import ArchInstaller.Python.Text

/-! # Integer literals

A text of digits is the literal of its decimal value, and there are literals of any size. -/

namespace PyText

theorem isSpace_of_isDigit {c : Char} (h : c.isDigit) : isSpace c = false := by
  simp only [Char.isDigit, Bool.and_eq_true, decide_eq_true_eq] at h
  have h1 : 48 ≤ c.toNat := h.1
  have h2 : c.toNat ≤ 57 := h.2
  unfold isSpace
  simp
  omega

theorem rstripChars_digits {cs : List Char} (h : ∀ c ∈ cs, c.isDigit) : rstripChars cs = cs := by
  unfold rstripChars
  cases hcs : cs.reverse with
  | nil => simpa using hcs
  | cons c rest =>
    have hc : c ∈ cs := by
      rw [← List.mem_reverse, hcs]
      exact List.mem_cons_self
    rw [List.dropWhile_cons_of_neg (by simp [isSpace_of_isDigit (h c hc)]), ← hcs,
      List.reverse_reverse]

theorem strip_digits {cs : List Char} (h : ∀ c ∈ cs, c.isDigit) :
    strip (String.ofList cs) = String.ofList cs := by
  rw [strip, String.toList_ofList]
  cases cs with
  | nil => rfl
  | cons c cs =>
    rw [List.dropWhile_cons_of_neg (by simp [isSpace_of_isDigit (h c List.mem_cons_self)]),
      rstripChars_digits h]

theorem digitsOf_digits {cs : List Char} (h : ∀ c ∈ cs, c.isDigit) (hne : cs ≠ []) :
    digitsOf cs = some cs := by
  induction cs with
  | nil => exact absurd rfl hne
  | cons d cs ih =>
    rw [List.forall_mem_cons] at h
    cases cs with
    | nil => simp [digitsOf, h.1]
    | cons d' cs =>
      have hd' : d' ≠ '_' := by
        rintro rfl
        exact absurd (h.2 '_' List.mem_cons_self) (by decide)
      rw [digitsOf, if_pos h.1, ih h.2 (List.cons_ne_nil _ _)]
      · rfl
      · simp
      · exact fun rest heq => hd' (List.cons.inj heq).1

theorem parseInt_digits {cs : List Char} (h : ∀ c ∈ cs, c.isDigit) (hne : cs ≠ []) :
    parseInt (String.ofList cs) = some (digitsValue cs) := by
  rw [parseInt, strip_digits h, String.toList_ofList]
  cases cs with
  | nil => exact absurd rfl hne
  | cons d cs =>
    have hd := h d List.mem_cons_self
    split
    · next heq =>
      obtain rfl : d = '-' := (List.cons.inj heq).1
      exact absurd hd (by decide)
    · next heq =>
      obtain rfl : d = '+' := (List.cons.inj heq).1
      exact absurd hd (by decide)
    · simp [digitsOf_digits h hne]

theorem toString_nat_toList (n : Nat) : (toString n).toList = Nat.toDigits 10 n := by
  rw [show toString n = n.repr from rfl, Nat.repr, String.toList_ofList]

theorem isDigit_of_mem_toString {n : Nat} {c : Char} (hc : c ∈ (toString n).toList) :
    c.isDigit := by
  rw [toString_nat_toList] at hc
  exact Nat.isDigit_of_mem_toDigits (by decide) (by decide) hc

theorem not_mem_toString {c : Char} (hc : c.isDigit = false) (n : Nat) :
    c ∉ (toString n).toList := by
  intro hmem
  rw [isDigit_of_mem_toString hmem] at hc
  cases hc

theorem toDigits_inj {n n' : Nat} (h : Nat.toDigits 10 n = Nat.toDigits 10 n') : n = n' := by
  have hvalue := congrArg (fun digits => Nat.ofDigitChars 10 digits 0) h
  simpa using hvalue

theorem toString_nat_inj {n n' : Nat} (h : toString n = toString n') : n = n' := by
  apply toDigits_inj
  rw [← toString_nat_toList, ← toString_nat_toList, h]

theorem toString_nat_ne_empty (n : Nat) : toString n ≠ "" := by
  intro h
  have hdigits : Nat.toDigits 10 n = [] := by rw [← toString_nat_toList, h, String.toList_empty]
  exact Nat.toDigits_ne_nil hdigits

/-- `1` followed by zeros. -/
def powerOfTen (k : Nat) : String := String.ofList ('1' :: List.replicate k '0')

theorem digitsValue_powerOfTen (k : Nat) : digitsValue ('1' :: List.replicate k '0') = 10 ^ k := by
  have hzeros : ∀ value, (List.replicate k '0').foldl
      (fun value d => 10 * value + (d.toNat - '0'.toNat)) value = value * 10 ^ k := by
    induction k with
    | zero => simp
    | succ k ih =>
      intro value
      rw [List.replicate_succ, List.foldl_cons, ih]
      simp only [Nat.sub_self, Nat.add_zero, Nat.pow_succ]
      ac_rfl
  rw [digitsValue, List.foldl_cons, hzeros]
  exact Nat.one_mul _

end PyText
