import LoudHeaders.Git.Reference

/-
  The configuration of a repository.

  A configuration is a list of variables in the order in which they were written.
  Of several values of one variable the last counts. A variable can be read as a
  switch or as a whole number; numbers may be hexadecimal or octal and may end in
  `k`, `m` or `g` for a power of 1024.

  What a repository's configuration has to say is settled in this order: which
  version its files have and which extensions they need, whether it is bare, and
  where its working tree is.
-/

namespace LoudHeaders

namespace Git

namespace Config

/-- A variable with the name of its section in front, and its value. -/
structure Variable where
  name : Text
  value : Option Text
  deriving DecidableEq, Repr

/-- A name in small letters. -/
def lowered (s : Text) : Text := s.map Char.toLower

/-- The value of a variable that counts. -/
def find? (config : List Variable) (name : Text) : Option Variable :=
  config.reverse.find? fun v => v.name == name

/-- The value of a character as a digit of any base; letters of either case follow
the decimal digits. -/
def digitValue? (c : Char) : Option Nat :=
  if c.isDigit then some (c.toNat - '0'.toNat)
  else if c.isAlpha then some (c.toLower.toNat - 'a'.toNat + 10)
  else none

/-- Whether a character is a digit of a base. -/
def isDigitOf (base : Nat) (c : Char) : Bool := (digitValue? c).any (· < base)

/-- The number that digits of a base write. -/
def valueOf (base : Nat) (digits : Text) : Nat :=
  digits.foldl (fun n c => base * n + (digitValue? c).getD 0) 0

/-- The base a number is written in, and the number without the mark of the base. A
zero in front of further digits makes a number octal. -/
def baseOf : Text → Nat × Text
  | '0' :: 'x' :: c :: rest => (16, c :: rest)
  | '0' :: 'X' :: c :: rest => (16, c :: rest)
  | '0' :: rest => (8, '0' :: rest)
  | digits => (10, digits)

/-- The number of times 1024 that the end of a number stands for. -/
def scale? : Text → Option Nat
  | [] => some 0
  | [c] =>
    if c.toLower = 'k' then some 1
    else if c.toLower = 'm' then some 2
    else if c.toLower = 'g' then some 3
    else none
  | _ => none

/-- The whole number without a sign that a text starts with, and what follows. -/
def natural? (s : Text) : Option (Nat × Text) :=
  let (base, s) := baseOf s
  let digits := s.takeWhile (isDigitOf base)
  if digits.isEmpty then none else some (valueOf base digits, s.drop digits.length)

/-- Whether a number fits a signed word of some bits. -/
def fits (bits : Nat) (n : Int) : Bool :=
  let bound : Int := Nat.pow 2 (bits - 1)
  n < bound && -bound ≤ n

/-- The whole number a text writes, if it fits 32 bits. Digits count up to 64 bits,
and scaling wraps around there. -/
def integer? (s : Text) : Option Int := do
  let s := s.dropWhile isFileBlank
  let (sign, s) := match s with
    | '-' :: rest => (-1, rest)
    | '+' :: rest => (1, rest)
    | _ => (1, s)
  let (size, rest) ← natural? s
  let n : Int := sign * (size : Int)
  let steps ← scale? rest
  let scaled := (n * Nat.pow 1024 steps).bmod (Nat.pow 2 64)
  if fits 64 n && fits 32 scaled then some scaled else none

/-- Words for what is on. -/
def onWords : List Text := ["true".toList, "yes".toList, "on".toList]

/-- Words for what is off. -/
def offWords : List Text := [[], "false".toList, "no".toList, "off".toList]

/-- Why a value cannot be read as something. -/
def unreadable (value : Option Text) (kind : String) : Text :=
  "failed to parse '".toList ++ value.getD "(null)".toList ++ "' as ".toList ++ kind.toList

/-- What a variable says about something that is on or off. A variable without a
value is on, and so is every number but zero. -/
def switch (v : Variable) : Except Text Bool :=
  match v.value with
  | none => .ok true
  | some text =>
    if onWords.contains (lowered text) then .ok true
    else if offWords.contains (lowered text) then .ok false
    else match integer? text with
      | some n => .ok (n != 0)
      | none => .error (unreadable text "a boolean value")

/-- The number that a variable holds. -/
def integer (v : Variable) : Except Text Int :=
  match v.value.bind integer? with
  | some n => .ok n
  | none => .error (unreadable v.value "a 32-bit integer")

/-- The newest version of a repository's files that can be read. -/
def maxVersion : Int := 1

/-- The version of a repository's files. -/
def version (config : List Variable) : Except Text Int :=
  match find? config "core.repositoryformatversion".toList with
  | none => .ok 0
  | some v => do
    let n ← integer v
    if maxVersion < n then
      throw ("unsupported repository version ".toList ++ Text.ofInt n ++
        "; only versions up to ".toList ++ Text.ofInt maxVersion ++ " are supported".toList)
    return n

/-- What the names of extensions start with. -/
def extensionMark : Text := "extensions.".toList

/-- The extension that names the format of ids. -/
def idFormat : Text := extensionMark ++ "objectformat".toList

/-- Extensions that are understood. -/
def extensions : List Text := [extensionMark ++ "noop".toList, idFormat]

/-- Refuses a repository that needs what is not understood. Files of the first
version need no extension. -/
def checkExtensions (config : List Variable) : Except Text Unit := do
  if (← version config) < 1 then return
  let needed := config.filter fun v => extensionMark.isPrefixOf v.name
  match needed.find? fun v => !extensions.contains v.name with
  | some v => throw ("unsupported extension name ".toList ++ v.name)
  | none =>
    match find? config idFormat with
    | none => return
    | some v =>
      if v.value != some "sha1".toList then
        throw ("unknown object format '".toList ++ v.value.getD "(null)".toList ++ ['\x27'])

/-- Whether the configuration is that of a bare repository. -/
def isBare (config : List Variable) : Except Text Bool :=
  match find? config "core.bare".toList with
  | some v => switch v
  | none => .ok false

/-- Where the working tree is, if the configuration says so. -/
def workingTree? (config : List Variable) : Except Text (Option Text) :=
  match (find? config "core.worktree".toList).bind Variable.value with
  | none => .ok none
  | some [] => .error "working directory cannot be set to empty path".toList
  | some path => .ok (some path)

end Config

end Git

end LoudHeaders
