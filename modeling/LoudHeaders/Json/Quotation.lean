import LoudHeaders.Json.Fault

/-
  Quoted JSON texts.

  The readers start behind the opening quote and stop behind the closing one.
  `readText` gives the text that is meant; `skipText` only finds its end and is
  laxer about escapes, which it does not combine. An escape is looked at as a
  whole before it is passed over, so both readers walk the list one character at
  a time and `passed` counts the characters already taken care of.
-/

namespace LoudHeaders

namespace Json

/-- The characters JSON allows between its tokens. -/
def isSpace (c : Char) : Bool := c == ' ' || c == '\t' || c == '\n' || c == '\r'

/-- The text behind the space it starts with. -/
def skipSpace (s : Text) : Text := s.dropWhile isSpace

/-- A character that a quoted text may not contain. -/
def isControl (c : Char) : Bool := c.toNat < 0x20

/-- The value of a hexadecimal digit. -/
def hexDigit? (c : Char) : Option Nat :=
  if c.isDigit then some (c.toNat - '0'.toNat)
  else if 'a' ≤ c && c ≤ 'f' then some (c.toNat - 'a'.toNat + 10)
  else if 'A' ≤ c && c ≤ 'F' then some (c.toNat - 'A'.toNat + 10)
  else none

/-- The number written by four hexadecimal digits. -/
def hexFour? : Text → Option Nat
  | a :: b :: c :: d :: _ => do
    return ((← hexDigit? a) * 16 + (← hexDigit? b)) * 256 + (← hexDigit? c) * 16 + (← hexDigit? d)
  | _ => none

/-- The number written by the four hexadecimal digits a text starts with. Four
bytes are read before they are looked at. -/
def hexFour (s : Text) : Except Fault Nat :=
  if Text.byteSize s < 4 then .error ⟨.endInText, 0⟩
  else match hexFour? s with
    | some n => .ok n
    | none => .error ⟨.invalidEscape, Text.byteSize s - 4⟩

/-- The character that a letter stands for behind a backslash. -/
def shortEscape? (c : Char) : Option Char :=
  if c = '"' then some '"'
  else if c = '\\' then some '\\'
  else if c = '/' then some '/'
  else if c = 'b' then some '\x08'
  else if c = 'f' then some '\x0c'
  else if c = 'n' then some '\n'
  else if c = 'r' then some '\r'
  else if c = 't' then some '\t'
  else none

/-- Whether a code unit is the first of a surrogate pair. -/
def isLead (n : Nat) : Bool := 0xD800 ≤ n && n ≤ 0xDBFF

/-- Whether a code unit is the second of a surrogate pair. -/
def isTrail (n : Nat) : Bool := 0xDC00 ≤ n && n ≤ 0xDFFF

/-- The character of a surrogate pair. -/
def pairChar (lead trail : Nat) : Char :=
  Char.ofNat (0x10000 + (lead - 0xD800) * 0x400 + (trail - 0xDC00))

/-- The second half of a surrogate pair whose first half has been read. -/
def trailEscape (lead : Nat) : Text → Except Fault Char
  | [] => .error (.here [] .endInText)
  | '\\' :: [] => .error (.here [] .endInText)
  | '\\' :: 'u' :: rest =>
    match hexFour rest with
    | .error fault => .error fault
    | .ok trail =>
      if isTrail trail then .ok (pairChar lead trail)
      else .error (.here (rest.drop 4) .loneSurrogate)
  | '\\' :: rest => .error (.next rest .unfinishedSurrogate)
  | rest => .error (.next rest .unfinishedSurrogate)

/-- The character an escape means and the number of characters it takes, both
behind the backslash. -/
def escape : Text → Except Fault (Char × Nat)
  | [] => .error (.here [] .endInText)
  | 'u' :: rest =>
    match hexFour rest with
    | .error fault => .error fault
    | .ok n =>
      if isTrail n then .error (.here (rest.drop 4) .loneSurrogate)
      else if isLead n then (trailEscape n (rest.drop 4)).map fun c => (c, 11)
      else .ok (Char.ofNat n, 5)
  | c :: rest =>
    match shortEscape? c with
    | some meant => .ok (meant, 1)
    | none => .error (.next (c :: rest) .invalidEscape)

/-- The quoted text that starts here, and what follows its closing quote. -/
def readText (passed : Nat) : Text → Except Fault (Text × Text)
  | [] => .error (.here [] .endInText)
  | c :: rest =>
    match passed with
    | n + 1 => readText n rest
    | 0 =>
      if c = '"' then .ok ([], rest)
      else if c = '\\' then
        match escape rest with
        | .error fault => .error fault
        | .ok (meant, taken) =>
          (readText taken rest).map fun found => (meant :: found.1, found.2)
      else if isControl c then .error (.here rest .controlCharacter)
      else (readText 0 rest).map fun found => (c :: found.1, found.2)

/-- The number of characters an escape takes behind the backslash when it is
only passed over. -/
def escapeWidth : Text → Except Fault Nat
  | [] => .error (.here [] .endInText)
  | 'u' :: rest => (hexFour rest).map fun _ => 5
  | c :: rest =>
    match shortEscape? c with
    | some _ => .ok 1
    | none => .error (.next (c :: rest) .invalidEscape)

/-- What follows the closing quote of the quoted text that starts here. -/
def skipText (passed : Nat) : Text → Except Fault Text
  | [] => .error (.here [] .endInText)
  | c :: rest =>
    match passed with
    | n + 1 => skipText n rest
    | 0 =>
      if c = '"' then .ok rest
      else if c = '\\' then
        match escapeWidth rest with
        | .error fault => .error fault
        | .ok taken => skipText taken rest
      else if isControl c then .error (.here (c :: rest) .controlCharacter)
      else skipText 0 rest

/-- What follows the literal whose remaining characters are given. -/
def readLiteral : Text → Text → Except Fault Text
  | [], s => .ok s
  | _ :: _, [] => .error (.here [] .endInValue)
  | wanted :: more, c :: rest =>
    if c = wanted then readLiteral more rest else .error (.next (c :: rest) .expectedIdentifier)

end Json

end LoudHeaders
