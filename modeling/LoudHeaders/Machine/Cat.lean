import LoudHeaders.Machine.Files
import LoudHeaders.Machine.QuotedName

/-
  The utility that prints files.

  The files named are printed one after the other, the input where a name is `-`
  and where there is no name. Options ask for line numbers, for runs of empty
  lines to be printed as one, and for control characters, tabs and the ends of
  lines to be made visible. A file that cannot be read is reported, and the others
  are still printed.

  This serves only the world the program is run in; no theorem is about it.
-/

namespace LoudHeaders

namespace Machine

namespace Cat

/-- How files are printed. -/
structure Style where
  numbered : Bool
  onlyFilled : Bool
  squeezed : Bool
  ends : Bool
  tabs : Bool
  controls : Bool
  deriving DecidableEq, Repr

/-- Files as they are. -/
def Style.plain : Style := ⟨false, false, false, false, false, false⟩

/-- The style after an option with a single letter, if there is one. -/
def Style.afterLetter? (s : Style) (c : Char) : Option Style :=
  match c with
  | 'b' => some { s with numbered := true, onlyFilled := true }
  | 'e' => some { s with ends := true, controls := true }
  | 'n' => some { s with numbered := true }
  | 's' => some { s with squeezed := true }
  | 't' => some { s with tabs := true, controls := true }
  | 'u' => some s
  | 'v' => some { s with controls := true }
  | 'A' => some { s with controls := true, ends := true, tabs := true }
  | 'E' => some { s with ends := true }
  | 'T' => some { s with tabs := true }
  | _ => none

/-- What a long option asks for: a letter's style, or a text about the utility. -/
def longOptions : List (Text × Option Char) :=
  [("number-nonblank".toList, some 'b'), ("number".toList, some 'n'),
    ("squeeze-blank".toList, some 's'), ("show-nonprinting".toList, some 'v'),
    ("show-ends".toList, some 'E'), ("show-tabs".toList, some 'T'),
    ("show-all".toList, some 'A'), ("help".toList, none), ("version".toList, none)]

/-- What arguments ask for: files in a style, a text about the utility, or nothing
because of a fault. -/
inductive Request where
  | files (style : Style) (names : List Text)
  | about
  | refused (message : Text)
  deriving DecidableEq, Repr

/-- Takes up letters behind a dash. A letter outside ASCII is said as the first of
its bytes, which is no text. -/
def letters (s : Style) : Text → Except Text Style
  | [] => .ok s
  | c :: rest =>
    match s.afterLetter? c with
    | some s => letters s rest
    | none =>
      let said := if c.utf8Size = 1 then c else Utf8.replacement
      .error ("invalid option -- '".toList ++ [said, '\x27'])

/-- What an option with a name asks for; a name may be cut short. -/
def long (given : Text) : Except Text (Option Char) :=
  let name := given.takeWhile (· != '=')
  let spelled (entry : Text) : Text := "'--".toList ++ entry ++ ['\x27']
  let matching :=
    match longOptions.find? fun entry => entry.1 == name with
    | some entry => [entry]
    | none => longOptions.filter fun entry => name.isPrefixOf entry.1
  match matching with
  | [] => .error ("unrecognized option ".toList ++ spelled given)
  | [entry] =>
    if given.contains '=' then
      .error ("option ".toList ++ spelled entry.1 ++ " doesn't allow an argument".toList)
    else .ok entry.2
  | several =>
    .error ("option ".toList ++ spelled given ++ " is ambiguous; possibilities:".toList ++
      several.flatMap fun entry => ' ' :: spelled entry.1)

/-- Reads arguments. Options may stand between names, and behind `--` all are
names. -/
def request (s : Style) (names : List Text) : List Text → Request
  | [] => .files s names
  | ['-', '-'] :: rest => .files s (names ++ rest)
  | ('-' :: '-' :: given) :: rest =>
    match long given with
    | .error message => .refused message
    | .ok none => .about
    | .ok (some c) => request ((s.afterLetter? c).getD s) names rest
  | ('-' :: c :: more) :: rest =>
    match letters s (c :: more) with
    | .error message => .refused message
    | .ok s => request s names rest
  | name :: rest => request s (names ++ [name]) rest

/-- A character as it is shown if control characters are made visible. -/
def visible (b : UInt8) : List UInt8 :=
  let low (n : Nat) : List Nat := if n = 127 then [94, 63] else if n < 32 then [94, n + 64] else [n]
  let n := b.toNat
  (if n < 128 then low n else 77 :: 45 :: low (n - 128)).map Nat.toUInt8

/-- Where printing stands: the number of the next line, and how many line feeds
have just been printed, unless something of a line has. -/
structure Position where
  number : Nat
  empty : Option Nat
  deriving DecidableEq, Repr

/-- The number in front of a line, six wide. -/
def lineNumber (n : Nat) : List UInt8 :=
  let digits := Text.ofNat n
  Utf8.encode (List.replicate (6 - digits.length) ' ' ++ digits ++ ['\t'])

/-- The byte of a line feed. -/
def lineFeed : UInt8 := 10

/-- Bytes in a style. -/
def shown (s : Style) : Position → List UInt8 → List UInt8
  | _, [] => []
  | p, b :: rest =>
    if b = lineFeed then
      let run := p.empty.elim 0 (· + 1)
      if 2 ≤ run && s.squeezed then shown s p rest
      else
        let counts := 0 < run && s.numbered && !s.onlyFilled
        (if counts then lineNumber p.number else []) ++ (if s.ends then [36] else []) ++
          lineFeed :: shown s ⟨if counts then p.number + 1 else p.number, some run⟩ rest
    else
      let counts := p.empty.isSome && s.numbered
      let character :=
        if b = 9 then (if s.tabs then [94, 73] else [9])
        else if s.controls then visible b
        else if b = 13 && s.ends && rest.head? == some lineFeed then [94, 77]
        else [b]
      (if counts then lineNumber p.number else []) ++ character ++
        shown s ⟨if counts then p.number + 1 else p.number, none⟩ rest

/-- What is read from files, given the input, and what is said about those that
cannot be read. -/
def read (files : FileTree) (directory : Place) (input : List UInt8) :
    List Text → List UInt8 × Text
  | [] => ([], [])
  | name :: rest =>
    if name = ['-'] then
      let (bytes, said) := read files directory [] rest
      (input ++ bytes, said)
    else
      let (bytes, said) := read files directory input rest
      match files.readBytes directory name with
      | .ok first => (first ++ bytes, said)
      | .error e =>
        let line := "cat: ".toList ++ QuotedName.spell name ++ ": ".toList ++ e.text ++ ['\n']
        (bytes, line ++ said)

end Cat

end Machine

end LoudHeaders
