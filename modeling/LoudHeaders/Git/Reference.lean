import LoudHeaders.Text.Basic

/-
  References and their names.

  A reference is a small file. It holds the id of an object, or `ref: ` and the
  name of another reference. Names have parts between slashes; a name of one part
  is written in capitals, as HEAD is, and a name of several parts does not start
  with such a part. In its normal form a name has no empty parts.
-/

namespace LoudHeaders

namespace Git

/-- What a reference says: another reference's name, or an object's id. -/
inductive Reference where
  | symbolic (target : Text)
  | direct (id : Text)
  deriving DecidableEq, Repr

/-- What a reference file starts with when it names another reference. -/
def refMark : Text := ['r', 'e', 'f', ':', ' ']

/-- Blanks by which a reference file may end. -/
def isFileBlank (c : Char) : Bool := c == ' ' || (9 ≤ c.toNat && c.toNat ≤ 13)

/-- A text without the blanks at its end. -/
def trimFileEnd (s : Text) : Text := (s.reverse.dropWhile isFileBlank).reverse

/-- A text up to its first zero character. -/
def beforeZero (s : Text) : Text := s.takeWhile (· != '\x00')

/-- A hexadecimal digit. -/
def isHexDigit (c : Char) : Bool :=
  c.isDigit || ('a' ≤ c && c ≤ 'f') || ('A' ≤ c && c ≤ 'F')

/-- The number of digits of an id. -/
def idLength : Nat := 40

/-- Whether a text starts with the digits of an id. -/
def startsWithId (s : Text) : Bool := (s.takeWhile isHexDigit).length ≥ idLength

/-- The id at the front of a text, if nothing but a blank or a zero character
follows it. -/
def idOfText? (s : Text) : Option Text :=
  let digits := s.takeWhile isHexDigit
  if digits.length != idLength then none
  else match s.drop idLength with
    | [] => some digits
    | c :: _ => if c = '\x00' || isFileBlank c then some digits else none

/-- Reads the file of the reference with a name. -/
def Reference.ofText (name content : Text) : Except Text Reference :=
  let corrupted := "corrupted loose reference file".toList
  if refMark.isPrefixOf content then
    match (trimFileEnd content).drop refMark.length with
    | [] => .error corrupted
    | target => .ok (.symbolic (beforeZero target))
  else match idOfText? content with
    | some id => .ok (.direct id)
    | none => .error (corrupted ++ ": ".toList ++ name)

namespace ReferenceName

/-- The name of the reference that stands for what is being worked on. -/
def head : Text := "HEAD".toList

/-- Characters that no reference name contains. -/
def isBad (c : Char) : Bool :=
  c.toNat < 0x21 || c == '~' || c == '^' || c == ':' || c == '\\' || c == '?' || c == '[' ||
    c == '*'

/-- Whether two neighbours occur in a text. -/
def hasPair (a b : Char) : Text → Bool
  | c :: d :: rest => (c == a && d == b) || hasPair a b (d :: rest)
  | _ => false

/-- Whether one part of a name is well-formed. -/
def isPartValid (part : Text) : Bool :=
  !part.any isBad && part.head? != some '.' && !hasPair '.' '.' part &&
    !hasPair '@' '\x7b' part && !(".lock".toList).isSuffixOf part

/-- Whether a part consists of capitals, with underscores only inside, as HEAD
does. -/
def isCapital (part : Text) : Bool :=
  !part.isEmpty && (part.all fun c => c.isUpper || c == '_') && part.head? != some '_' &&
    part.getLast? != some '_'

/-- The parts of a name, empty ones left out. -/
def parts (name : Text) : List Text :=
  (Text.pieces (· == '/') name).filter fun part => !part.isEmpty

/-- Whether a name is well-formed. -/
def isValid (name : Text) : Bool :=
  (parts name).all isPartValid && name.head? != some '/' && name.getLast? != some '/' &&
    name.getLast? != some '.' &&
    match parts name with
    | [] => false
    | [part] => isCapital part
    | part :: _ => !isCapital part

/-- The longest normal form, in bytes. -/
def maxSize : Nat := 1023

/-- The normal form of a name, or why it has none. -/
def normalized (name : Text) : Except Text Text :=
  if !isValid name then
    .error ("the given reference name '".toList ++ name ++ "' is not valid".toList)
  else
    let normal := Text.joinWith ['/'] (parts name)
    if maxSize < Text.byteSize normal then
      .error ("the provided buffer is too short to hold the normalization of '".toList ++ name ++
        "'".toList)
    else .ok normal

/-- The families of names that have a short form. -/
def families : List Text :=
  ["refs/heads/".toList, "refs/tags/".toList, "refs/remotes/".toList, "refs/".toList]

/-- The short form of a name. -/
def shorthand (name : Text) : Text :=
  match families.find? fun family => family.isPrefixOf name with
  | some family => name.drop family.length
  | none => name

end ReferenceName

end Git

end LoudHeaders
