import LoudHeaders.Machine.Shell.Arithmetic
import LoudHeaders.Text.Utf8

/-
  Printing by a shell.

  A text can hold escapes: a backslash and a letter for a control character, or a
  backslash and octal digits for a byte. A format also holds directives, which
  print the arguments one after the other, and starts again as long as arguments
  are left. A number with a fraction is printed as it is given.

  This serves only the world the program is run in; no theorem is about it (see
  Machine/Shell/Basic).
-/

namespace LoudHeaders

namespace Machine

namespace Shell

namespace Printing

/-- The byte that a letter stands for behind a backslash. -/
def escapeByte? (c : Char) : Option UInt8 :=
  if c = 'n' then some 10
  else if c = 't' then some 9
  else if c = 'r' then some 13
  else if c = 'a' then some 7
  else if c = 'b' then some 8
  else if c = 'f' then some 12
  else if c = 'v' then some 11
  else if c = 'e' then some 27
  else if c = '\\' then some 92
  else none

/-- The octal digits a text starts with, at most `most`. -/
def octalRun (most : Nat) (s : Text) : Text := (s.take most).takeWhile Arithmetic.isOctal

/-- The byte that octal digits stand for. -/
def octalByte (digits : Text) : UInt8 := (Arithmetic.valueOf 8 digits).toUInt8

/-- A text with its escapes carried out, and whether it asks for nothing to be
printed after it. A zero in front of octal digits does not count among them. `passed`
characters are already taken care of. -/
def unescape (passed : Nat) : Text → List UInt8 × Bool
  | [] => ([], false)
  | c :: rest =>
    let after (bytes : List UInt8) (more : List UInt8 × Bool) := (bytes ++ more.1, more.2)
    match passed with
    | n + 1 => unescape n rest
    | 0 =>
      if c = '\\' then
        match rest with
        | 'c' :: _ => ([], true)
        | '0' :: digits =>
          let run := octalRun 3 digits
          after [octalByte run] (unescape (run.length + 1) rest)
        | d :: _ =>
          let run := octalRun 3 rest
          if !run.isEmpty then after [octalByte run] (unescape run.length rest)
          else match escapeByte? d with
            | some byte => after [byte] (unescape 1 rest)
            | none => after [92] (unescape 0 rest)
        | [] => ([92], false)
      else after (Utf8.encodeChar c) (unescape 0 rest)

/-- What a line of arguments prints as. -/
def echo (arguments : List Text) : List UInt8 :=
  let (line, words) : List UInt8 × List Text :=
    match arguments with
    | ['-', 'n'] :: rest => ([], rest)
    | _ => ([10], arguments)
  let (bytes, stops) := unescape 0 (Text.joinWith [' '] words)
  if stops then bytes else bytes ++ line

/-- A width or a precision: a number, or one to be taken from the arguments. -/
inductive Extent where
  | fixed (n : Nat)
  | given
  deriving DecidableEq, Repr

/-- A piece of a format. -/
inductive Directive where
  | bytes (content : List UInt8)
  | value (flags : Text) (width precision : Option Extent) (kind : Char)
  | fault (message : Text)
  deriving DecidableEq, Repr

/-- Reads a width or a precision. -/
def extent (s : Text) : Option Extent × Text :=
  match s with
  | '*' :: rest => (some .given, rest)
  | c :: _ =>
    if c.isDigit then
      (some (.fixed (Arithmetic.valueOf 10 (s.takeWhile Char.isDigit))), s.dropWhile Char.isDigit)
    else (none, s)
  | [] => (none, s)

/-- Flags in front of a width. -/
def isFlag (c : Char) : Bool := c == '#' || c == '-' || c == '+' || c == ' ' || c == '0'

/-- The letters of directives. -/
def kinds : List Char :=
  ['b', 'c', 's', 'd', 'i', 'o', 'u', 'x', 'X', 'a', 'A', 'e', 'E', 'f', 'F', 'g', 'G']

/-- Reads a directive behind its percent sign. -/
def directive (s : Text) : Directive × Text :=
  let flags := s.takeWhile isFlag
  let (width, afterWidth) := extent (s.dropWhile isFlag)
  let (precision, afterPrecision) : Option Extent × Text :=
    match afterWidth with
    | '.' :: rest =>
      let (precision, rest) := extent rest
      (some (precision.getD (.fixed 0)), rest)
    | _ => (none, afterWidth)
  match afterPrecision with
  | [] => (.fault "missing format character".toList, [])
  | c :: rest =>
    if kinds.contains c then (.value flags width precision c, rest)
    else
      let spelled := '%' :: s.take (s.length - rest.length)
      (.fault (spelled ++ ": invalid directive".toList), [])

/-- The pieces of a format; `fuel` bounds their number. -/
def directives : Nat → Text → List Directive
  | 0, _ => []
  | _ + 1, [] => []
  | fuel + 1, '%' :: '%' :: rest => .bytes [37] :: directives fuel rest
  | fuel + 1, '%' :: rest =>
    let (d, rest) := directive rest
    d :: directives fuel rest
  | fuel + 1, '\\' :: rest =>
    let run := octalRun 3 rest
    if !run.isEmpty then .bytes [octalByte run] :: directives fuel (rest.drop run.length)
    else match rest with
      | [] => [.bytes [92]]
      | c :: behind =>
        match escapeByte? c with
        | some byte => .bytes [byte] :: directives fuel behind
        | none =>
          if c = '"' then .bytes [34] :: directives fuel behind
          else .bytes [92] :: directives fuel rest
  | fuel + 1, c :: rest => .bytes (Utf8.encodeChar c) :: directives fuel rest

/-- What was printed so far: the bytes, messages, the status, and what is left of
the arguments. -/
structure Printed where
  output : List UInt8
  messages : List Text
  status : Nat
  arguments : List Text
  used : Bool
  stopped : Bool

/-- The number an argument stands for, and the message about one that is none. -/
def numeric (s : Text) : Int × Option Text :=
  match s with
  | [] => (0, none)
  | q :: rest =>
    if q = '\x27' || q = '"' then
      (((Utf8.encode (rest.take 1)).head?.map fun b => (b.toNat : Int)).getD 0, none)
    else
      let start := Text.trimStart s
      let (negative, digits) : Bool × Text :=
        match start with
        | '-' :: more => (true, more)
        | '+' :: more => (false, more)
        | _ => (false, start)
      if digits.head?.any Char.isDigit then
        let (n, behind) := Arithmetic.natural digits
        let (n, message) := Arithmetic.clamped (if negative then -(n : Int) else n)
        (n, if !behind.isEmpty then some (s ++ ": not completely converted".toList)
          else if message then some (s ++ ": Numerical result out of range".toList) else none)
      else (0, some (s ++ ": expected numeric value".toList))

/-- Bytes brought to a width: spaces in front, or behind if the flags say so. -/
def padded (flags : Text) (width : Nat) (content : List UInt8) : List UInt8 :=
  let space := List.replicate (width - content.length) 32
  if flags.contains '-' then content ++ space else space ++ content

/-- Digits with at least as many as the precision says. -/
def withLeast (precision : Option Nat) (digits : Text) : Text :=
  List.replicate (precision.getD 1 - digits.length) '0' ++ digits

/-- The digits of a number as a directive writes them. -/
def digitsOf (kind : Char) (n : Nat) : Text :=
  if kind = 'o' then Nat.toDigits 8 n
  else if kind = 'x' then Nat.toDigits 16 n
  else if kind = 'X' then (Nat.toDigits 16 n).map Char.toUpper
  else Nat.toDigits 10 n

/-- A number as a directive prints it. -/
def number (flags : Text) (width : Nat) (precision : Option Nat) (kind : Char) (n : Int) :
    List UInt8 :=
  let isSigned := kind == 'd' || kind == 'i'
  let magnitude := if isSigned then n.natAbs else (n % (Nat.pow 2 64 : Nat)).toNat
  let sign : Text :=
    if isSigned && n < 0 then ['-']
    else if isSigned && flags.contains '+' then ['+']
    else if isSigned && flags.contains ' ' then [' ']
    else if flags.contains '#' && n != 0 then
      if kind = 'x' then ['0', 'x'] else if kind = 'X' then ['0', 'X']
      else if kind = 'o' then ['0'] else []
    else []
  let digits := withLeast precision (digitsOf kind magnitude)
  let zeros :=
    if flags.contains '0' && !flags.contains '-' && precision.isNone then
      List.replicate (width - sign.length - digits.length) '0'
    else []
  padded flags width (Utf8.encode (sign ++ zeros ++ digits))

namespace Printed

/-- The next argument and the rest. -/
def next (p : Printed) : Text × Printed :=
  (p.arguments.head?.getD [], { p with arguments := p.arguments.tail, used := true })

/-- Adds bytes. -/
def add (p : Printed) (bytes : List UInt8) : Printed := { p with output := p.output ++ bytes }

/-- Notes a message. -/
def note (p : Printed) (message : Option Text) : Printed :=
  match message with
  | some m => { p with messages := p.messages ++ [m], status := 1 }
  | none => p

/-- The number that a width or precision says. -/
def measure (p : Printed) : Option Extent → Option Int × Printed
  | none => (none, p)
  | some (.fixed n) => (some n, p)
  | some .given =>
    let (argument, p) := p.next
    let (n, message) := numeric argument
    (some n, p.note message)

/-- Prints one piece of a format. -/
def step (p : Printed) (d : Directive) : Printed :=
  if p.stopped then p
  else match d with
    | .bytes content => p.add content
    | .fault message => { p with messages := p.messages ++ [message], status := 2, stopped := true }
    | .value flags width precision kind =>
      let (width, p) := p.measure width
      let (precision, p) := p.measure precision
      let (argument, p) := p.next
      let given := width.getD 0
      let flags := if given < 0 then '-' :: flags else flags
      let shown := precision.map Int.toNat
      if kind = 's' then
        let bytes := Utf8.encode argument
        p.add (padded flags given.natAbs (bytes.take (shown.getD bytes.length)))
      else if kind = 'c' then
        p.add (padded flags given.natAbs [(Utf8.encode argument).headD 0])
      else if kind = 'b' then
        let (bytes, stops) := unescape 0 argument
        { p.add (padded flags given.natAbs (bytes.take (shown.getD bytes.length))) with
          stopped := stops }
      else if ['d', 'i', 'o', 'u', 'x', 'X'].contains kind then
        let (n, message) := numeric argument
        (p.note message).add (number flags given.natAbs shown kind n)
      else p.add (padded flags given.natAbs (Utf8.encode argument))

end Printed

/-- Prints by a format that starts again as long as arguments are left; `times`
bounds how often. -/
def formatted (pieces : List Directive) : Nat → Printed → Printed
  | 0, p => p
  | times + 1, p =>
    let p := pieces.foldl Printed.step { p with used := false }
    if p.used && !p.arguments.isEmpty && !p.stopped then formatted pieces times p else p

/-- What a format prints with arguments. -/
def printf (format : Text) (arguments : List Text) : Printed :=
  formatted (directives (format.length + 1) format) (arguments.length + 1)
    ⟨[], [], 0, arguments, false, false⟩

end Printing

end Shell

end Machine

end LoudHeaders
