/-
  Text as lists of characters.

  Every name, path, message and line this library handles is a `Text`, a list
  of characters, so that the readers and printers are recursions over lists.
  This module holds the few operations all of them share: cutting at a
  character, joining with a separator, decimal digits of a number, and the
  number of bytes a text occupies when it is written as UTF-8.
-/

namespace LoudHeaders

/-- A text is the list of its characters. -/
abbrev Text : Type := List Char

namespace Text

/-- The number of bytes of the text's UTF-8 form. -/
def byteSize : Text → Nat
  | [] => 0
  | c :: rest => c.utf8Size + byteSize rest

/-- The text up to the first `sep` and the text behind it, if `sep` occurs. -/
def cut (sep : Char) : Text → Option (Text × Text)
  | [] => none
  | c :: rest =>
    if c = sep then some ([], rest)
    else (cut sep rest).map fun halves => (c :: halves.1, halves.2)

/-- The pieces between the characters in `sep`; there is always one more piece
than separators. -/
def pieces (sep : Char → Bool) : Text → List Text
  | [] => [[]]
  | c :: rest =>
    if sep c then [] :: pieces sep rest
    else match pieces sep rest with
      | [] => [[c]]
      | piece :: others => (c :: piece) :: others

/-- The pieces with `sep` between each two neighbours. -/
def joinWith (sep : Text) : List Text → Text
  | [] => []
  | [piece] => piece
  | piece :: rest => piece ++ sep ++ joinWith sep rest

/-- The decimal digits of a number, without leading zeros. -/
def ofNat (n : Nat) : Text := Nat.toDigits 10 n

/-- The decimal digits of a whole number, behind a minus sign if it is
negative. -/
def ofInt : Int → Text
  | .ofNat n => ofNat n
  | .negSucc n => '-' :: ofNat (n + 1)

/-- The value of a run of decimal digits, the most significant first. -/
def digitsValue (digits : Text) : Nat :=
  digits.foldl (fun value c => 10 * value + (c.toNat - '0'.toNat)) 0

/-- Words of 64 bits hold the numbers below this bound. -/
def wordBound : Nat := Nat.pow 2 64

/-- The number written by a non-empty run of ASCII digits, if it fits a word
of 64 bits. Leading zeros are allowed, a sign is not. -/
def word? (digits : Text) : Option Nat :=
  if digits.isEmpty || !digits.all Char.isDigit then none
  else
    let value := digitsValue digits
    if value < wordBound then some value else none

/-- The number a text writes in decimal digits, with a plus sign or without, if it
fits a word of 64 bits. -/
def count? : Text → Option Nat
  | '+' :: digits => word? digits
  | digits => word? digits

/-- Lexicographic order by code point, which is also the order of the UTF-8
bytes; a proper beginning comes first. -/
def compare : Text → Text → Ordering
  | [], [] => .eq
  | [], _ :: _ => .lt
  | _ :: _, [] => .gt
  | a :: s, b :: t =>
    if a.toNat < b.toNat then .lt else if b.toNat < a.toNat then .gt else compare s t

theorem joinWith_cons_cons (sep a b : Text) (rest : List Text) :
    joinWith sep (a :: b :: rest) = a ++ sep ++ joinWith sep (b :: rest) := rfl

theorem pieces_ne_nil (sep : Char → Bool) (s : Text) : pieces sep s ≠ [] := by
  induction s with
  | nil => simp [pieces]
  | cons c rest ih =>
    cases h : sep c with
    | true => simp [pieces, h]
    | false => cases hs : pieces sep rest <;> simp [pieces, h, hs]

theorem cut_eq_none_iff {sep : Char} {s : Text} : cut sep s = none ↔ sep ∉ s := by
  induction s with
  | nil => simp [cut]
  | cons c rest ih =>
    by_cases h : c = sep
    · simp [cut, h]
    · simp [cut, h, ih, Ne.symm h]

theorem isSome_cut (sep : Char) (s : Text) : (cut sep s).isSome = s.contains sep := by
  rw [Bool.eq_iff_iff, Option.isSome_iff_ne_none, List.contains_iff_mem, Ne, cut_eq_none_iff,
    Decidable.not_not]

end Text

end LoudHeaders
