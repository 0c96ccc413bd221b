import LoudHeaders.Text.Basic

/-
  Numbers written in decimal.

  A numeral of a number is its decimal digits behind any number of zeros. A numeral of a
  number below the word bound is read back as that number (`word?_of_numeral`), also at
  the front of a text that goes on with something else than a digit
  (`takeWhile_numeral_append`).
-/

namespace LoudHeaders

namespace Text

/-- The text writes the number in decimal digits, with any number of zeros in front. -/
def Numeral (n : Nat) (digits : Text) : Prop :=
  ∃ zeros, digits = List.replicate zeros '0' ++ ofNat n

variable {n : Nat} {digits rest : Text}

theorem digitsValue_ofNat (n : Nat) : digitsValue (ofNat n) = n :=
  Nat.ofDigitChars_toDigits (by decide) (by decide)

/-- Zeros in front add nothing. -/
theorem digitsValue_replicate_append (zeros : Nat) (s : Text) :
    digitsValue (List.replicate zeros '0' ++ s) = digitsValue s := by
  induction zeros with
  | zero => rfl
  | succ zeros ih =>
    rw [List.replicate_succ, List.cons_append]
    exact ih

theorem Numeral.digitsValue_eq (h : Numeral n digits) : digitsValue digits = n := by
  obtain ⟨zeros, rfl⟩ := h
  rw [digitsValue_replicate_append, digitsValue_ofNat]

theorem Numeral.isDigit (h : Numeral n digits) : ∀ c ∈ digits, c.isDigit = true := by
  obtain ⟨zeros, rfl⟩ := h
  intro c hc
  rcases List.mem_append.mp hc with hzero | hdigit
  · rw [List.eq_of_mem_replicate hzero]
    decide
  · exact Nat.isDigit_of_mem_toDigits (by decide) (by decide) hdigit

theorem Numeral.ne_nil (h : Numeral n digits) : digits ≠ [] := by
  obtain ⟨zeros, rfl⟩ := h
  exact List.append_ne_nil_of_right_ne_nil _ Nat.toDigits_ne_nil

theorem word?_of_numeral (h : Numeral n digits) (hn : n < wordBound) : word? digits = some n := by
  have hdigits : ¬(digits.isEmpty || !digits.all Char.isDigit) = true := by
    simpa [h.ne_nil] using h.isDigit
  rw [word?, if_neg hdigits]
  simp only [h.digitsValue_eq, if_pos hn]

/-- A plus sign in front of a numeral changes nothing. -/
theorem count?_of_numeral (h : Numeral n digits) (hn : n < wordBound) :
    count? digits = some n ∧ count? ('+' :: digits) = some n := by
  have hword := word?_of_numeral h hn
  refine ⟨?_, hword⟩
  obtain ⟨c, rest, rfl⟩ := List.exists_cons_of_ne_nil h.ne_nil
  have hplus : c ≠ '+' := by
    rintro rfl
    exact absurd (h.isDigit '+' List.mem_cons_self) (by decide)
  unfold count?
  split
  · rename_i heq
    exact absurd (List.cons.inj heq).1 hplus
  · exact hword

/-- The digits a text starts with are those of a numeral at its front, unless a further
digit follows. -/
theorem takeWhile_numeral_append (h : Numeral n digits)
    (hrest : ∀ c ∈ rest.head?, c.isDigit = false) :
    (digits ++ rest).takeWhile Char.isDigit = digits := by
  rw [List.takeWhile_append_of_pos h.isDigit]
  cases rest with
  | nil => simp
  | cons c more =>
    have hc : c.isDigit = false := hrest c rfl
    simp [hc]

end Text

end LoudHeaders
