import LoudHeaders.RegularExpression.Basic

/-
  Classes of characters between square brackets.

  A class lists characters, ranges, classes with a name such as `[:alpha:]` and
  further classes, and joins such lists by `&&`, `--` and `~~`. What is read of it
  is how deep it nests.
-/

namespace LoudHeaders

namespace RegularExpression

namespace CharacterClass

/-- The names of classes. -/
def names : List Text :=
  ["alnum".toList, "alpha".toList, "ascii".toList, "blank".toList, "cntrl".toList,
    "digit".toList, "graph".toList, "lower".toList, "print".toList, "punct".toList,
    "space".toList, "upper".toList, "word".toList, "xdigit".toList]

/-- What is behind a class with a name at the front of a text, and whether it is
negated. -/
def named? (s : Text) : Option (Bool × Text) :=
  match s with
  | '[' :: ':' :: inside =>
    let negated := inside.head? == some '^'
    let inside := if negated then inside.drop 1 else inside
    let name := inside.takeWhile (· != ':')
    match inside.drop name.length with
    | ':' :: ']' :: rest => if names.contains name then some (negated, rest) else none
    | _ => none
  | _ => none

/-- What has been read of a class: how many parts its last list has, how deep they
nest, and how deep the lists in front of it nest. -/
structure Outline where
  parts : Nat
  deepest : Nat
  front : Option Nat
  deriving DecidableEq, Repr

namespace Outline

/-- Nothing read. -/
def empty : Outline := ⟨0, 0, none⟩

/-- One more part. -/
def add (o : Outline) (nesting : Nat) : Outline :=
  { o with parts := o.parts + 1, deepest := max o.deepest nesting }

/-- How deep a class nests. -/
def nesting (o : Outline) : Nat :=
  let last := if o.parts < 2 then o.deepest else o.deepest + 1
  match o.front with
  | none => last
  | some n => max n last + 1

/-- A new list begins. -/
def join (o : Outline) : Outline := ⟨0, 0, some o.nesting⟩

end Outline

/-- Reads a character or an escape. -/
def atom : Step Atom := do
  if ← accept ['\\'] then escape else return .character (← next) false

/-- The character an atom stands for. -/
def characterOf : Atom → Step Char
  | .character c _ => return c
  | _ => failure

/-- Reads a character, a range or a class by a letter. -/
def range : Step Unit := do
  let first ← atom
  skipToMore
  let r ← get
  let behind := (if r.mode.spaced then skipped false (r.rest.drop 1) else r.rest.drop 1).head?
  if r.rest.head? != some '-' || behind == some ']' || behind == some '-' then
    match first with
    | .character c _ => if !r.mode.allowsInside c then failure
    | .letterClass negated => if r.mode.characters || negated then failure
    | .place _ => failure
  else
    let _ ← next
    skipToMore
    let last ← characterOf (← atom)
    let first ← characterOf first
    if last < first || !r.mode.allowsInside first || !r.mode.allowsInside last then failure

/-- Reads dashes that stand for themselves at the front of a class. -/
def dashes : Nat → Outline → Step Outline
  | 0, _ => failure
  | fuel + 1, o => do
    if ← accept ['-'] then
      if !(← get).mode.allowsInside '-' then failure
      skipToMore
      dashes fuel (o.add 0)
    else return o

/-- Reads the front of a class, behind its bracket. -/
def opening (fuel : Nat) : Step Outline := do
  skipToMore
  if ← accept ['^'] then
    if !(← get).mode.characters then failure
    skipToMore
  let o ← dashes fuel .empty
  if o.parts = 0 then
    if ← accept [']'] then
      if !(← get).mode.allowsInside ']' then failure
      skipToMore
      return o.add 0
  return o

/-- Reads the rest of a class and gives how deep it nests. -/
def body : Nat → Outline → Step Nat
  | 0, _ => failure
  | fuel + 1, o => do
    skipToMore
    let r ← get
    match named? r.rest with
    | some (negated, rest) =>
      if if r.mode.characters then r.mode.caseless else negated then failure
      set { r with rest }
      body fuel (o.add 0)
    | none =>
      if ← accept ['['] then
        let inner ← body fuel (← opening fuel)
        body fuel (o.add (inner + 1))
      else if ← accept [']'] then return o.nesting
      else if (← accept ['&', '&']) || (← accept ['-', '-']) || (← accept ['~', '~']) then
        body fuel o.join
      else
        range
        body fuel (o.add 0)

end CharacterClass

end RegularExpression

end LoudHeaders
