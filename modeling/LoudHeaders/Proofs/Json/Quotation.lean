import Mathlib.Data.Bool.AllAny
import Mathlib.Logic.Basic
import LoudHeaders.Json.Quotation

/-
  Quoted texts and how they are read.

  What stands between the quotes is said character by character. A character is
  written as it is, by a letter behind a backslash, or by its UTF-16 code units in
  hexadecimal digits of either case (`Spelling`), so one text can be written in many
  ways (`Spelled`). A quoted text that nobody asks for only has to be made of such
  pieces; its code units need not stand for characters (`Quoted`).
    1. Whichever way a text is written, it is read back (`readText_spelled`).
    2. A quoted text is passed over, up to its closing quote (`skipText_quoted`).
-/

namespace LoudHeaders

namespace Json

/-! ## Space -/

/-- Nothing but the space that JSON allows between its tokens. -/
def Blank (s : Text) : Prop := ∀ c ∈ s, c ∈ [' ', '\t', '\n', '\r']

instance (s : Text) : Decidable (Blank s) :=
  decidable_of_iff (s.all fun c => c ∈ [' ', '\t', '\n', '\r']) List.all_iff_forall_prop

theorem blank_nil : Blank [] := fun _ hc => by cases hc

theorem blank_append {s t : Text} (hs : Blank s) (ht : Blank t) : Blank (s ++ t) :=
  fun c hc => (List.mem_append.mp hc).elim (hs c) (ht c)

theorem isSpace_of_blank {s : Text} (h : Blank s) : ∀ c ∈ s, isSpace c = true := by
  intro c hc
  simpa [isSpace, or_assoc] using h c hc

theorem skipSpace_append {gap : Text} (h : Blank gap) (s : Text) :
    skipSpace (gap ++ s) = skipSpace s := by
  rw [skipSpace, List.dropWhile_append_of_pos (isSpace_of_blank h)]
  rfl

theorem skipSpace_cons {c : Char} (h : isSpace c = false) (s : Text) :
    skipSpace (c :: s) = c :: s :=
  List.dropWhile_cons_of_neg (by simp [h])

theorem skipSpace_skipSpace (s : Text) : skipSpace (skipSpace s) = skipSpace s := by
  induction s with
  | nil => rfl
  | cons c rest ih =>
    cases hc : isSpace c with
    | true => simpa [skipSpace, hc] using ih
    | false => rw [skipSpace_cons hc, skipSpace_cons hc]

/-! ## Code units -/

/-- A hexadecimal digit of a number, in either case. -/
def IsHexDigit (n : Nat) (c : Char) : Prop :=
  n < 16 ∧ (c = n.digitChar ∨ c = n.digitChar.toUpper)

instance (n : Nat) (c : Char) : Decidable (IsHexDigit n c) :=
  inferInstanceAs (Decidable (_ ∧ _))

/-- Four hexadecimal digits of a code unit. -/
inductive CodeUnit : Nat → Text → Prop
  | digits {k l m n : Nat} {a b c d : Char} (ha : IsHexDigit k a) (hb : IsHexDigit l b)
      (hc : IsHexDigit m c) (hd : IsHexDigit n d) :
      CodeUnit (4096 * k + 256 * l + 16 * m + n) [a, b, c, d]

theorem hexDigit?_eq {n : Nat} {c : Char} (h : IsHexDigit n c) : hexDigit? c = some n := by
  obtain ⟨hn, h⟩ := h
  have hall : ∀ n < 16,
      hexDigit? n.digitChar = some n ∧ hexDigit? n.digitChar.toUpper = some n := by decide
  rcases h with rfl | rfl
  · exact (hall n hn).1
  · exact (hall n hn).2

theorem hexFour_eq {n : Nat} {digits : Text} (h : CodeUnit n digits) (rest : Text) :
    hexFour (digits ++ rest) = .ok n := by
  obtain @⟨k, l, m, n, a, b, c, d, ha, hb, hc, hd⟩ := h
  have hsize : ¬Text.byteSize (a :: b :: c :: d :: rest) < 4 := by
    have := a.utf8Size_pos
    have := b.utf8Size_pos
    have := c.utf8Size_pos
    have := d.utf8Size_pos
    simp only [Text.byteSize]
    omega
  have hvalue : ((k * 16 + l) * 256 + m * 16 + n) = 4096 * k + 256 * l + 16 * m + n := by omega
  show hexFour (a :: b :: c :: d :: rest) = _
  rw [hexFour, if_neg hsize]
  simp only [hexFour?, hexDigit?_eq ha, hexDigit?_eq hb, hexDigit?_eq hc, hexDigit?_eq hd]
  exact congrArg Except.ok hvalue

theorem CodeUnit.length_eq {n : Nat} {digits : Text} (h : CodeUnit n digits) :
    digits.length = 4 := by
  cases h
  rfl

/-! ## Spelled texts -/

/-- The letters that stand for a character behind a backslash. -/
def shortEscapes : List (Char × Char) :=
  [('"', '"'), ('\\', '\\'), ('/', '/'), ('b', '\x08'), ('f', '\x0c'), ('n', '\n'), ('r', '\r'),
    ('t', '\t')]

/-- A character that can stand for itself between quotes. -/
def Ordinary (c : Char) : Prop := 0x20 ≤ c.toNat ∧ c ≠ '"' ∧ c ≠ '\\'

instance (c : Char) : Decidable (Ordinary c) := inferInstanceAs (Decidable (_ ∧ _))

/-- The ways a character can be written between quotes. -/
inductive Spelling : Char → Text → Prop
  | plain {c : Char} (h : Ordinary c) : Spelling c [c]
  | short {letter c : Char} (h : (letter, c) ∈ shortEscapes) : Spelling c ['\\', letter]
  | unit {c : Char} {digits : Text} (h : CodeUnit c.toNat digits) :
      Spelling c ('\\' :: 'u' :: digits)
  | pair {c : Char} {lead trail : Text} (hc : 0x10000 ≤ c.toNat)
      (hlead : CodeUnit (0xD800 + (c.toNat - 0x10000) / 0x400) lead)
      (htrail : CodeUnit (0xDC00 + (c.toNat - 0x10000) % 0x400) trail) :
      Spelling c ('\\' :: 'u' :: (lead ++ '\\' :: 'u' :: trail))

/-- A text and one way to write it between quotes. -/
inductive Spelled : Text → Text → Prop
  | nil : Spelled [] []
  | cons {c : Char} {meant front body : Text} (h : Spelling c front)
      (hrest : Spelled meant body) : Spelled (c :: meant) (front ++ body)

/-- A text without quotes, backslashes and control characters can be written as it is. -/
theorem spelled_ordinary {s : Text} (h : ∀ c ∈ s, Ordinary c) : Spelled s s := by
  induction s with
  | nil => exact .nil
  | cons c s ih =>
    obtain ⟨hc, hs⟩ := List.forall_mem_cons.mp h
    exact .cons (.plain hc) (ih hs)

theorem Ordinary.isControl_eq {c : Char} (h : Ordinary c) : isControl c = false := by
  simpa [isControl] using h.1

theorem toNat_lt (c : Char) : c.toNat < 0xD800 ∨ 0xDFFF < c.toNat ∧ c.toNat < 0x110000 := c.valid

theorem shortEscape?_eq {letter c : Char} (h : (letter, c) ∈ shortEscapes) :
    shortEscape? letter = some c ∧ letter ≠ 'u' := by
  have hall : ∀ e ∈ shortEscapes, shortEscape? e.1 = some e.2 ∧ e.1 ≠ 'u' := by decide
  exact hall _ h

theorem escape_short {letter c : Char} (h : (letter, c) ∈ shortEscapes) (rest : Text) :
    escape (letter :: rest) = .ok (c, 1) := by
  obtain ⟨hmeant, hunit⟩ := shortEscape?_eq h
  rw [escape.eq_3 _ _ hunit, hmeant]

theorem escape_unit {c : Char} {digits : Text} (h : CodeUnit c.toNat digits) (rest : Text) :
    escape ('u' :: (digits ++ rest)) = .ok (c, 5) := by
  have hvalid := toNat_lt c
  have htrail : isTrail c.toNat = false := by
    simp only [isTrail, Bool.and_eq_false_iff, decide_eq_false_iff_not]
    omega
  have hlead : isLead c.toNat = false := by
    simp only [isLead, Bool.and_eq_false_iff, decide_eq_false_iff_not]
    omega
  simp only [escape, hexFour_eq h, htrail, hlead, Bool.false_eq_true, if_false, Char.ofNat_toNat]

theorem pairChar_eq {c : Char} (h : 0x10000 ≤ c.toNat) :
    pairChar (0xD800 + (c.toNat - 0x10000) / 0x400) (0xDC00 + (c.toNat - 0x10000) % 0x400) = c := by
  have hsum : 0x10000 + (0xD800 + (c.toNat - 0x10000) / 0x400 - 0xD800) * 0x400 +
      (0xDC00 + (c.toNat - 0x10000) % 0x400 - 0xDC00) = c.toNat := by omega
  rw [pairChar, hsum, Char.ofNat_toNat]

theorem escape_pair {c : Char} {lead trail : Text} (hc : 0x10000 ≤ c.toNat)
    (hlead : CodeUnit (0xD800 + (c.toNat - 0x10000) / 0x400) lead)
    (htrail : CodeUnit (0xDC00 + (c.toNat - 0x10000) % 0x400) trail) (rest : Text) :
    escape ('u' :: (lead ++ '\\' :: 'u' :: (trail ++ rest))) = .ok (c, 11) := by
  have hvalid := toNat_lt c
  have hnot : isTrail (0xD800 + (c.toNat - 0x10000) / 0x400) = false := by
    simp only [isTrail, Bool.and_eq_false_iff, decide_eq_false_iff_not]
    omega
  have hfirst : isLead (0xD800 + (c.toNat - 0x10000) / 0x400) = true := by
    simp only [isLead, Bool.and_eq_true, decide_eq_true_eq]
    omega
  have hsecond : isTrail (0xDC00 + (c.toNat - 0x10000) % 0x400) = true := by
    simp only [isTrail, Bool.and_eq_true, decide_eq_true_eq]
    omega
  have hdrop : (lead ++ '\\' :: 'u' :: (trail ++ rest)).drop 4 = '\\' :: 'u' :: (trail ++ rest) :=
    List.drop_left' hlead.length_eq
  simp only [escape, hexFour_eq hlead, hnot, hfirst, hdrop, trailEscape, hexFour_eq htrail, hsecond,
    Bool.false_eq_true, if_false, if_true, pairChar_eq hc]
  rfl

/-! ## Reading -/

/-- Characters that have been taken care of are passed over. -/
theorem readText_pass (front rest : Text) :
    readText front.length (front ++ rest) = readText 0 rest := by
  induction front with
  | nil => rfl
  | cons c front ih => exact ih

theorem readText_escape (tail : Text) {c : Char} {rest : Text}
    (h : escape (tail ++ rest) = .ok (c, tail.length)) :
    readText 0 ('\\' :: (tail ++ rest)) =
      (readText 0 rest).map fun found => (c :: found.1, found.2) := by
  rw [readText, if_neg (by decide), if_pos rfl, h]
  simp only [readText_pass]

/-- One character is read, whichever way it is written. -/
theorem readText_spelling {c : Char} {front : Text} (h : Spelling c front) (rest : Text) :
    readText 0 (front ++ rest) = (readText 0 rest).map fun found => (c :: found.1, found.2) := by
  cases h with
  | plain h =>
    show readText 0 (c :: rest) = _
    rw [readText, if_neg h.2.1, if_neg h.2.2, h.isControl_eq]
    rfl
  | @short letter _ h =>
    exact readText_escape [letter] (escape_short h rest)
  | @unit _ digits h =>
    refine readText_escape ('u' :: digits) ?_
    rw [List.length_cons, h.length_eq]
    exact escape_unit h rest
  | @pair _ lead trail hc hlead htrail =>
    refine readText_escape ('u' :: (lead ++ '\\' :: 'u' :: trail)) ?_
    have hlength : ('u' :: (lead ++ '\\' :: 'u' :: trail)).length = 11 := by
      simp [hlead.length_eq, htrail.length_eq]
    rw [hlength, List.cons_append, List.append_assoc]
    exact escape_pair hc hlead htrail rest

/-- **A text is read back, whichever way it is written.** -/
theorem readText_spelled {meant body : Text} (h : Spelled meant body) (rest : Text) :
    readText 0 (body ++ '"' :: rest) = .ok (meant, rest) := by
  induction h with
  | nil => rfl
  | cons h hrest ih =>
    rw [List.append_assoc, readText_spelling h, ih]
    rfl

/-! ## Passing over -/

/-- What may stand between quotes. -/
inductive Quoted : Text → Prop
  | nil : Quoted []
  | plain {c : Char} {rest : Text} (h : Ordinary c) (hrest : Quoted rest) : Quoted (c :: rest)
  | short {letter c : Char} {rest : Text} (h : (letter, c) ∈ shortEscapes)
      (hrest : Quoted rest) : Quoted ('\\' :: letter :: rest)
  | unit {n : Nat} {digits rest : Text} (h : CodeUnit n digits) (hrest : Quoted rest) :
      Quoted ('\\' :: 'u' :: (digits ++ rest))

/-- Whatever a text is spelled like may stand between quotes. -/
theorem quoted_of_spelled {meant body : Text} (h : Spelled meant body) : Quoted body := by
  induction h with
  | nil => exact .nil
  | cons h _ ih =>
    cases h with
    | plain h => exact .plain h ih
    | short h => exact .short h ih
    | unit h => exact .unit h ih
    | pair _ hlead htrail =>
      rw [List.cons_append, List.cons_append, List.append_assoc]
      exact .unit hlead (.unit htrail ih)

theorem skipText_pass (front rest : Text) :
    skipText front.length (front ++ rest) = skipText 0 rest := by
  induction front with
  | nil => rfl
  | cons c front ih => exact ih

theorem skipText_escape {tail rest : Text} (h : escapeWidth (tail ++ rest) = .ok tail.length) :
    skipText 0 ('\\' :: (tail ++ rest)) = skipText 0 rest := by
  rw [skipText, if_neg (by decide), if_pos rfl, h]
  exact skipText_pass tail rest

/-- **A quoted text is passed over.** -/
theorem skipText_quoted {body : Text} (h : Quoted body) (rest : Text) :
    skipText 0 (body ++ '"' :: rest) = .ok rest := by
  induction h with
  | nil => rfl
  | plain h hrest ih =>
    rw [List.cons_append, skipText, if_neg h.2.1, if_neg h.2.2, h.isControl_eq]
    exact ih
  | @short letter c body h hrest ih =>
    obtain ⟨hmeant, hunit⟩ := shortEscape?_eq h
    have hwidth : escapeWidth ([letter] ++ (body ++ '"' :: rest)) = .ok 1 := by
      rw [List.singleton_append, escapeWidth.eq_3 _ _ hunit, hmeant]
    exact (skipText_escape hwidth).trans ih
  | @unit n digits body h hrest ih =>
    have hwidth : escapeWidth (('u' :: digits) ++ (body ++ '"' :: rest)) =
        .ok ('u' :: digits).length := by
      rw [List.length_cons, h.length_eq, List.cons_append, escapeWidth, hexFour_eq h]
      rfl
    rw [List.cons_append, List.cons_append, List.append_assoc]
    exact (skipText_escape hwidth).trans ih

end Json

end LoudHeaders
