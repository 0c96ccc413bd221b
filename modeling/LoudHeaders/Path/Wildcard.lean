import LoudHeaders.Path.Basic

/-
  Patterns of paths.

  In a pattern `?` stands for one character, `*` for any number of them, and square
  brackets for one of a set, but none of these for a slash. Two stars between
  slashes stand for any number of directories, two stars at the end for anything. A
  character behind a backslash stands for itself.
-/

namespace LoudHeaders

namespace Path

/-- An element of a pattern. -/
inductive Wildcard where
  | exactly (c : Char)
  | one
  | run
  | folders
  | anything
  | set (negated : Bool) (ranges : List (Char × Char))
  deriving DecidableEq, Repr

namespace Wildcard

/-- The ranges of a set and what is behind its closing bracket; a bracket at the
front is a member. A dash makes a range with the member before it, which is
`previous` if that is no range itself. -/
def ranges? (first : Bool) (previous : Option Char) :
    Text → Option (List (Char × Char) × Text)
  | [] => none
  | ['\\'] => none
  | '\\' :: c :: rest =>
    (ranges? false (some c) rest).map fun found => ((c, c) :: found.1, found.2)
  | c :: rest =>
    if c = ']' && !first then some ([], rest)
    else match previous, c, rest with
      | some low, '-', '\\' :: high :: rest =>
        (ranges? false none rest).map fun found => ((low, high) :: found.1, found.2)
      | some low, '-', high :: rest =>
        if high = ']' then (ranges? false (some '-') (high :: rest)).map fun found =>
          (('-', '-') :: found.1, found.2)
        else (ranges? false none rest).map fun found => ((low, high) :: found.1, found.2)
      | _, _, rest => (ranges? false (some c) rest).map fun found => ((c, c) :: found.1, found.2)

/-- The set behind an opening bracket and what follows it. -/
def set? (s : Text) : Option (Wildcard × Text) :=
  match s with
  | '!' :: rest => (ranges? true none rest).map fun found => (.set true found.1, found.2)
  | '^' :: rest => (ranges? true none rest).map fun found => (.set true found.1, found.2)
  | _ => (ranges? true none s).map fun found => (.set false found.1, found.2)

/-- Whether a pattern ends here or goes on with a slash. -/
def endsPart : Text → Bool
  | [] => true
  | '/' :: _ => true
  | '\\' :: '/' :: _ => true
  | _ => false

/-- The elements of a pattern, if it is complete. The pattern has at most `fuel`
characters; `fresh` holds where a part of a path starts. -/
def elements? (fresh : Bool) : Nat → Text → Option (List Wildcard)
  | 0, _ => some []
  | fuel + 1, s =>
    match s with
    | [] => some []
    | ['\\'] => none
    | '\\' :: c :: rest => (elements? (c == '/') fuel rest).map (.exactly c :: ·)
    | '?' :: rest => (elements? false fuel rest).map (.one :: ·)
    | '[' :: rest => do
      let (members, rest) ← set? rest
      return members :: (← elements? false fuel rest)
    | '*' :: rest =>
      let behind := rest.dropWhile (· == '*')
      if fresh && rest.head? == some '*' && endsPart behind then
        match behind with
        | '/' :: rest => (elements? true fuel rest).map (.folders :: ·)
        | _ => (elements? false fuel behind).map (.anything :: ·)
      else (elements? false fuel behind).map (.run :: ·)
    | c :: rest => (elements? (c == '/') fuel rest).map (.exactly c :: ·)

/-- A text and what is left of it after each of its characters. -/
def suffixes : Text → List Text
  | [] => [[]]
  | c :: rest => (c :: rest) :: suffixes rest

/-- A text and what is left of it after each character up to its first slash. -/
def suffixesInPart : Text → List Text
  | [] => [[]]
  | c :: rest => if c = '/' then [c :: rest] else (c :: rest) :: suffixesInPart rest

/-- Whether elements stand for a whole text. -/
def fits : List Wildcard → Text → Bool
  | [], s => s.isEmpty
  | .anything :: rest, s => (suffixes s).any (fits rest)
  | .run :: rest, s => (suffixesInPart s).any (fits rest)
  | .folders :: rest, s =>
    fits rest s || (suffixes s).any fun behind => behind.head? == some '/' &&
      fits rest (behind.drop 1)
  | .exactly d :: rest, c :: s => c == d && fits rest s
  | .one :: rest, c :: s => c != '/' && fits rest s
  | .set negated ranges :: rest, c :: s =>
    c != '/' && (ranges.any fun r => r.1 ≤ c && c ≤ r.2) != negated && fits rest s
  | _ :: _, [] => false

end Wildcard

/-- Whether a path is one that a pattern stands for. -/
def isLike (pattern path : Text) : Bool :=
  (Wildcard.elements? true pattern.length pattern).any fun elements =>
    Wildcard.fits elements path

end Path

end LoudHeaders
