import LoudHeaders.Machine.Files

/-
  Patterns of a shell.

  In a pattern `*` stands for any text, `?` for one character, and square brackets
  for one of a set. A quoted character stands for itself. Patterns choose a case,
  cut a value, and name files: a word with a pattern in it becomes the paths that
  match, in order, and stays as it is if there are none.

  This serves only the world the program is run in; no theorem is about it (see
  Machine/Shell/Basic).
-/

namespace LoudHeaders

namespace Machine

namespace Shell

/-- A character and whether it was quoted. -/
structure Mark where
  char : Char
  quoted : Bool
  deriving DecidableEq, Repr

/-- An element of a pattern. -/
inductive Pattern where
  | exactly (c : Char)
  | one
  | any
  | set (negated : Bool) (ranges : List (Char × Char))
  deriving DecidableEq, Repr

namespace Pattern

/-- The ranges of a set and what is behind its closing bracket; a bracket at the
front is a member. -/
def ranges? (first : Bool) : List Mark → Option (List (Char × Char) × List Mark)
  | [] => none
  | a :: dash :: b :: rest =>
    if a.char = ']' && !a.quoted && !first then some ([], dash :: b :: rest)
    else if dash.char = '-' && !dash.quoted && !(b.char = ']' && !b.quoted) then
      (ranges? false rest).map fun found => ((a.char, b.char) :: found.1, found.2)
    else (ranges? false (dash :: b :: rest)).map fun found => ((a.char, a.char) :: found.1, found.2)
  | a :: rest =>
    if a.char = ']' && !a.quoted && !first then some ([], rest)
    else (ranges? false rest).map fun found => ((a.char, a.char) :: found.1, found.2)

/-- The set behind an opening bracket and what follows it. -/
def set? (s : List Mark) : Option (Pattern × List Mark) :=
  match s with
  | first :: rest =>
    if !first.quoted && (first.char = '!' || first.char = '^') then
      (ranges? true rest).map fun found => (.set true found.1, found.2)
    else (ranges? true s).map fun found => (.set false found.1, found.2)
  | [] => none

/-- The pattern that marked characters stand for; `fuel` bounds their number. -/
def ofMarks : Nat → List Mark → List Pattern
  | 0, _ => []
  | _ + 1, [] => []
  | fuel + 1, m :: rest =>
    if m.quoted then .exactly m.char :: ofMarks fuel rest
    else if m.char = '*' then .any :: ofMarks fuel rest
    else if m.char = '?' then .one :: ofMarks fuel rest
    else if m.char = '[' then
      match set? rest with
      | some (members, behind) => members :: ofMarks fuel behind
      | none => .exactly '[' :: ofMarks fuel rest
    else .exactly m.char :: ofMarks fuel rest

/-- The pattern of marked characters. -/
def of (s : List Mark) : List Pattern := ofMarks s.length s

/-- Whether an element stands for a character. -/
def accepts (c : Char) : Pattern → Bool
  | .exactly d => c == d
  | .one => true
  | .any => true
  | .set negated ranges => (ranges.any fun r => r.1 ≤ c && c ≤ r.2) != negated

/-- A text and what is left of it after each of its characters. -/
def suffixes : Text → List Text
  | [] => [[]]
  | c :: rest => (c :: rest) :: suffixes rest

/-- Whether a pattern stands for a whole text. -/
def fits : List Pattern → Text → Bool
  | [], s => s.isEmpty
  | .any :: rest, s => (suffixes s).any (fits rest)
  | p :: rest, c :: s => p.accepts c && fits rest s
  | _ :: _, [] => false

/-- Whether marked characters hold a pattern that is more than its text. -/
def isProper (s : List Mark) : Bool :=
  s.any fun m => !m.quoted && (m.char == '*' || m.char == '?' || m.char == '[')

end Pattern

/-- The text of marked characters. -/
def textOf (s : List Mark) : Text := s.map Mark.char

/-- The names in a directory, in order. -/
def namesIn (files : FileTree) (place : Place) : List Text :=
  let names := files.filterMap fun entry =>
    if place.isPrefixOf entry.1 then (entry.1.drop place.length).head? else none
  names.eraseDups.mergeSort fun a b => (Text.compare a b).isLE

/-- The pieces of marked characters between slashes. -/
def markedPieces : List Mark → List (List Mark)
  | [] => [[]]
  | m :: rest =>
    if m.char = '/' then [] :: markedPieces rest
    else match markedPieces rest with
      | [] => [[m]]
      | piece :: others => (m :: piece) :: others

/-- The paths that pieces of a pattern stand for, starting at a place whose path so
far is `front`. -/
def pathsFrom (files : FileTree) (place : Place) (front : Text) : List (List Mark) → List Text
  | [] => []
  | piece :: rest =>
    let next (name : Text) : List Text :=
      match rest with
      | [] =>
        if (files.descend place name).toOption.any (fun p => (files.item? p).isSome) then
          [front ++ name]
        else []
      | _ =>
        match files.descend place name with
        | .ok p =>
          if files.isDirectory p then pathsFrom files p (front ++ name ++ ['/']) rest else []
        | .error _ => []
    if Pattern.isProper piece then
      let shown := (namesIn files place).filter fun name =>
        (name.head? != some '.' || piece.head?.any (·.char == '.')) &&
          Pattern.fits (Pattern.of piece) name
      shown.flatMap next
    else next (textOf piece)

/-- The paths that a word with a pattern in it stands for. -/
def matchingPaths (files : FileTree) (directory : Place) (s : List Mark) : List Text :=
  match markedPieces s with
  | [] :: rest => if rest.isEmpty then [] else pathsFrom files [] ['/'] rest
  | pieces => pathsFrom files directory [] pieces

end Shell

end Machine

end LoudHeaders
