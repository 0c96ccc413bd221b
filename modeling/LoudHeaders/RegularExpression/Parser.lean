import LoudHeaders.RegularExpression.CharacterClass
import LoudHeaders.Text.Number

/-
  Which regular expressions can be used.

  An expression is a choice of sequences of characters, classes, groups and
  repetitions. Flags at the front of a group hold inside it, flags in a group of
  their own up to the end of the group around them. Groups may have names, each at
  most once. An expression nests 250 deep at most, where every group, repetition,
  class, choice and sequence counts.
-/

namespace LoudHeaders

namespace RegularExpression

/-- What has been read of a sequence: for each part how deep it nests, and whether
it only sets flags; last first. -/
abbrev Parts : Type := List (Nat × Bool)

/-- How deep several things nest together: one alone adds nothing. -/
def together : List Nat → Nat
  | [] => 0
  | [n] => n
  | ns => ns.foldl max 0 + 1

/-- Whether a character can stand in the name of a group. -/
def isNameCharacter (first : Bool) (c : Char) : Bool :=
  c == '_' ||
    if first then Text.isAlphanumeric c && !Text.isNumber c
    else c == '.' || c == '[' || c == ']' || Text.isAlphanumeric c

/-- Reads the name of a group. -/
def groupName : Step Unit := do
  let r ← get
  let name := r.rest.takeWhile (· != '>')
  match name with
  | [] => failure
  | c :: more =>
    if !isNameCharacter true c || !more.all (isNameCharacter false) then failure
    if r.names.contains name then failure
    match r.rest.drop name.length with
    | [] => failure
    | _ :: rest => set { r with rest, names := name :: r.names }

/-- How a group starts: as one that holds an expression, or as flags alone. -/
inductive Opening where
  | group (mode : Mode)
  | flags (mode : Mode)
  deriving DecidableEq, Repr

/-- Reads the start of a group, behind its bracket. Nothing can look ahead or
behind. -/
def groupStart : Step Opening := do
  skip
  let r ← get
  if (← accept "?P<".toList) || (← accept "?<".toList) then
    groupName
    return .group r.mode
  else if ← accept ['?'] then
    let found ← flags (r.rest.length + 1) [] none
    let mode := r.mode.with found
    if (← next) = ')' then
      let written := r.rest.drop 1
      if written.head? = some ')' then failure
      return .flags mode
    else return .group mode
  else return .group r.mode

/-- Reads a character, an escape, a dot or a place in the text. -/
def primitive : Step Unit := do
  let m := (← get).mode
  if ← accept ['\\'] then
    let found ← escape
    if !m.allowsAtom found then failure
  else
    let c ← next
    if c = '.' then
      if !m.characters then failure
    else if c != '^' && c != '$' && !m.allows c false then failure

/-- Reads an expression up to a closing bracket or the end and gives how deep it
nests. -/
def expression : Nat → Parts → List Nat → Step Nat
  | 0, _, _ => failure
  | fuel + 1, parts, choices => do
    skip
    match ← peek with
    | none => return together (together (parts.map (·.1)) :: choices)
    | some ')' => return together (together (parts.map (·.1)) :: choices)
    | some '|' =>
      let _ ← next
      expression fuel [] (together (parts.map (·.1)) :: choices)
    | some '(' =>
      let _ ← next
      let outer := (← get).mode
      match ← groupStart with
      | .flags mode =>
        modify fun r => { r with mode }
        expression fuel ((0, true) :: parts) choices
      | .group mode =>
        modify fun r => { r with mode }
        let inner ← expression fuel [] []
        if !(← accept [')']) then failure
        modify fun r => { r with mode := outer }
        expression fuel ((inner + 1, false) :: parts) choices
    | some '[' =>
      let _ ← next
      let inner ← CharacterClass.body fuel (← CharacterClass.opening fuel)
      expression fuel ((inner + 1, false) :: parts) choices
    | some c =>
      if ['?', '*', '+'].contains c then
        let _ ← next
        match parts with
        | (n, false) :: others =>
          let _ ← accept ['?']
          expression fuel ((n + 1, false) :: others) choices
        | _ => failure
      else if c = '\x7b' then failure
      else
        primitive
        expression fuel ((0, false) :: parts) choices

/-- How deep an expression can nest. -/
def maxNesting : Nat := 250

/-- Whether a text is a regular expression that can be used. -/
def isUsable (s : Text) : Bool :=
  match (expression (2 * s.length + 2) [] []).run ⟨s, .start, []⟩ with
  | some (nesting, r) => r.rest.isEmpty && nesting ≤ maxNesting
  | none => false

end RegularExpression

end LoudHeaders
