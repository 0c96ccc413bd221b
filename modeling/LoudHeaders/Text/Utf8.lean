import LoudHeaders.Text.Basic

/-
  UTF-8 between bytes and text.

  `encode` writes a text as bytes. `decode?` reads bytes that are well-formed
  throughout, and `decodeLossy` reads any bytes: each maximal beginning of a
  sequence that goes wrong becomes one replacement character, and reading goes
  on at the byte that broke it.
-/

namespace LoudHeaders

namespace Utf8

/-- The bytes of one character. -/
def encodeChar (c : Char) : List UInt8 :=
  let n := c.toNat
  if n < 0x80 then [n.toUInt8]
  else if n < 0x800 then [(0xC0 + n / 0x40).toUInt8, (0x80 + n % 0x40).toUInt8]
  else if n < 0x10000 then
    [(0xE0 + n / 0x1000).toUInt8, (0x80 + n / 0x40 % 0x40).toUInt8, (0x80 + n % 0x40).toUInt8]
  else
    [(0xF0 + n / 0x40000).toUInt8, (0x80 + n / 0x1000 % 0x40).toUInt8,
      (0x80 + n / 0x40 % 0x40).toUInt8, (0x80 + n % 0x40).toUInt8]

/-- The bytes of a text. -/
def encode (s : Text) : List UInt8 := s.flatMap encodeChar

/-- What is left to read of a character that has begun: how many bytes, the
range the next byte must lie in, and the bits read so far. -/
structure Pending where
  left : Nat
  low : Nat
  high : Nat
  bits : Nat

/-- The character a first byte stands for, or what it begins, or nothing. The
second byte of some sequences is bounded more tightly, which rules out overlong
forms, surrogates and code points above the last one. -/
def start (b : Nat) : Option (Char ⊕ Pending) :=
  if b < 0x80 then some (.inl (Char.ofNat b))
  else if b < 0xC2 then none
  else if b < 0xE0 then some (.inr ⟨1, 0x80, 0xBF, b - 0xC0⟩)
  else if b = 0xE0 then some (.inr ⟨2, 0xA0, 0xBF, 0⟩)
  else if b = 0xED then some (.inr ⟨2, 0x80, 0x9F, 0xD⟩)
  else if b < 0xF0 then some (.inr ⟨2, 0x80, 0xBF, b - 0xE0⟩)
  else if b = 0xF0 then some (.inr ⟨3, 0x90, 0xBF, 0⟩)
  else if b < 0xF4 then some (.inr ⟨3, 0x80, 0xBF, b - 0xF0⟩)
  else if b = 0xF4 then some (.inr ⟨3, 0x80, 0x8F, 4⟩)
  else none

/-- What a pending character becomes with one more byte, if the byte fits. -/
def Pending.step (p : Pending) (b : Nat) : Option (Char ⊕ Pending) :=
  if p.low ≤ b && b ≤ p.high then
    let bits := p.bits * 0x40 + (b - 0x80)
    if p.left ≤ 1 then some (.inl (Char.ofNat bits))
    else some (.inr ⟨p.left - 1, 0x80, 0xBF, bits⟩)
  else none

/-- The character that stands for bytes that are no character. -/
def replacement : Char := Char.ofNat 0xFFFD

/-- The characters of a byte sequence, `none` for each maximal part that is
the beginning of a character or no part of one at all. -/
def scan : Option Pending → List UInt8 → List (Option Char)
  | none, [] => []
  | some _, [] => [none]
  | none, b :: rest =>
    match start b.toNat with
    | some (.inl c) => some c :: scan none rest
    | some (.inr p) => scan (some p) rest
    | none => none :: scan none rest
  | some p, b :: rest =>
    match p.step b.toNat with
    | some (.inl c) => some c :: scan none rest
    | some (.inr q) => scan (some q) rest
    | none =>
      match start b.toNat with
      | some (.inl c) => none :: some c :: scan none rest
      | some (.inr q) => none :: scan (some q) rest
      | none => none :: none :: scan none rest

/-- The text of any bytes, with replacement characters where they are not
well-formed. -/
def decodeLossy (bytes : List UInt8) : Text :=
  (scan none bytes).map fun c => c.getD replacement

/-- The text of bytes that are well-formed throughout. -/
def decode? (bytes : List UInt8) : Option Text := (scan none bytes).mapM id

end Utf8

end LoudHeaders
