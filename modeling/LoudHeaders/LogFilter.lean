import LoudHeaders.RegularExpression.Parser
import LoudHeaders.Trace

/-
  Filters for log lines.

  Every topic has a name, and a filter says for each name which levels are shown.
  It is a list of directives between commas, written

    level        target        target=level        target[span field]=level

  where the part between square brackets is a name, or a field between braces, or
  both. A field may ask for a value, `field=value`, which is a number or a regular
  expression. A directive is about all names that start with its target. Of those that
  are about a name, the one with the longest target decides, and of equal ones
  the last. A name that no directive is about shows nothing.

  Positions inside a directive are counted from its first character that is not
  blank, but its parts are cut out of the whole text: a directive with blanks in
  front of it has its parts shifted, and one that is cut inside a character cannot
  be read at all.
-/

namespace LoudHeaders

namespace LogFilter

/-- One directive. Lines stand outside every span, so that a directive with a
span is about none of them. -/
structure Directive where
  target : Option Text
  span : Option Text
  field : Option Text
  verbosity : Verbosity
  deriving DecidableEq, Repr

/-- Why a filter cannot be used. -/
inductive Fault where
  | malformed
  | insideCharacter
  deriving DecidableEq, Repr

/-- The only field a log line has. -/
def messageField : Text := "message".toList

namespace Directive

/-- Whether a directive is about the lines of a name. -/
def concerns (d : Directive) (name : Text) : Bool :=
  d.target.all (·.isPrefixOf name) && d.span.isNone && d.field.all (· == messageField)

/-- How specific a directive is: by the length of its target, then by whether it
asks for a field. -/
def specificity (d : Directive) : Nat :=
  2 * d.target.elim 0 (fun target => Text.byteSize target + 1) + d.field.elim 0 fun _ => 1

end Directive

/-- The directive that decides about a name, given the best one so far. -/
def deciding (name : Text) (best : Option Directive) : List Directive → Option Directive
  | [] => best
  | d :: rest =>
    if d.concerns name && best.all (·.specificity ≤ d.specificity) then deciding name (some d) rest
    else deciding name best rest

/-- What directives show of the lines of a name. -/
def verbosityOf (directives : List Directive) (name : Text) : Verbosity :=
  (deciding name none directives).elim .silent Directive.verbosity

/-! Reading -/

/-- The names of the levels, in small letters. -/
def levelNames : List (Text × Verbosity) :=
  [([], .upTo .error), ("off".toList, .silent), ("error".toList, .upTo .error),
    ("warn".toList, .upTo .warn), ("info".toList, .upTo .info), ("debug".toList, .upTo .debug),
    ("trace".toList, .upTo .trace)]

/-- The level a text stands for, by its number or its name. -/
def level? (s : Text) : Option Verbosity :=
  let named := (levelNames.find? fun entry => entry.1 == s.map Char.toLower).map (·.2)
  match Text.count? s with
  | some n => if n ≤ Level.trace.rank then some ⟨n⟩ else named
  | none => named

/-- The parts before and behind a number of bytes, unless that is inside a
character or past the end. -/
def splitBytes : Nat → Text → Except Fault (Text × Text)
  | 0, s => .ok ([], s)
  | _ + 1, [] => .error .insideCharacter
  | n + 1, c :: rest =>
    if n + 1 < c.utf8Size then .error .insideCharacter
    else do
      let (front, back) ← splitBytes (n + 1 - c.utf8Size) rest
      return (c :: front, back)

/-- The part of a text between two positions. -/
def slice (s : Text) (start stop : Nat) : Except Fault Text := do
  let (front, _) ← splitBytes stop s
  let (_, part) ← splitBytes start front
  return part

/-- The level behind an equals sign; without one, everything is shown. -/
def levelFrom (whole : Text) (start : Nat) : Except Fault Verbosity := do
  let (_, text) ← splitBytes start whole
  if text.isEmpty then return .full
  match level? text with
  | some v => return v
  | none => throw .malformed

/-- Reads what stands behind a closing square bracket at position `start`. -/
def afterBrackets (whole : Text) (start : Nat) (d : Directive) : Text → Except Fault Directive
  | [] => return d
  | '=' :: _ => do return { d with verbosity := ← levelFrom whole (start + 1) }
  | _ => throw .malformed

/-- Reads the digits at the front of a text, none of which there may be; gives what
is behind them and whether there were any. -/
def pastDigits (s : Text) : Text × Bool :=
  (s.dropWhile Char.isDigit, s.head?.any Char.isDigit)

/-- Whether a text is empty or the exponent of a number. -/
def isExponent : Text → Bool
  | [] => true
  | c :: rest =>
    let digits :=
      match rest with
      | '+' :: digits => digits
      | '-' :: digits => digits
      | _ => rest
    (c == 'e' || c == 'E') && !digits.isEmpty && digits.all Char.isDigit

/-- Whether a text is a number, possibly with a sign, a fraction and an exponent, or
one of the words for what is no finite number. -/
def isNumber (s : Text) : Bool :=
  let size :=
    match s with
    | '+' :: rest => rest
    | '-' :: rest => rest
    | _ => s
  let word := size.map Char.toLower
  if ["inf".toList, "infinity".toList, "nan".toList].contains word then true
  else
    let (behind, whole) := pastDigits size
    match behind with
    | '.' :: rest =>
      let (behind, fraction) := pastDigits rest
      (whole || fraction) && isExponent behind
    | _ => whole && isExponent behind

/-- Whether the value that a field asks for can be used. Behind a second equals sign
nothing counts. -/
def isFieldUsable (field : Text) : Bool :=
  match Text.pieces (· == '=') field with
  | _ :: value :: _ => isNumber value || RegularExpression.isUsable value
  | _ => true

/-- Reads a field from position `start` on, behind the opening brace. -/
def fieldFrom (whole : Text) (start : Nat) (target span : Option Text) (s : Text) :
    Except Fault Directive := do
  let inside := s.takeWhile (· != '\x7d')
  let stop := start + Text.byteSize inside
  match s.dropWhile (· != '\x7d') with
  | _ :: ']' :: rest =>
    let field ← slice whole start stop
    if field.isEmpty || !isFieldUsable field then throw .malformed
    afterBrackets whole (stop + 2) ⟨target, span, some field, .full⟩ rest
  | _ :: _ =>
    let _ ← slice whole start stop
    throw .malformed
  | [] => throw .malformed

/-- Reads a span from position `start` on, behind the opening square bracket. -/
def spanFrom (whole : Text) (start : Nat) (target : Option Text) (s : Text) :
    Except Fault Directive := do
  let inside := s.takeWhile fun c => c != ']' && c != '\x7b'
  let stop := start + Text.byteSize inside
  match s.drop inside.length with
  | [] => throw .malformed
  | ']' :: rest =>
    let span ← slice whole start stop
    afterBrackets whole (stop + 1) ⟨target, some span, none, .full⟩ rest
  | _ :: rest =>
    let span ← slice whole start stop
    fieldFrom whole (stop + 1) target (if span.isEmpty then none else some span) rest

/-- Whether a target can start with a character. -/
def startsTarget (c : Char) : Bool :=
  c == '-' || c == ':' || c == '_' || Text.isAlphanumeric c

/-- Reads one directive. -/
def directive (whole : Text) : Except Fault Directive :=
  match Text.trim whole with
  | [] => throw .malformed
  | '[' :: rest => spanFrom whole 1 none rest
  | c :: rest => do
    if !startsTarget c then throw .malformed
    let s := c :: rest
    let name := s.takeWhile fun d => d != '=' && d != '['
    let stop := Text.byteSize name
    match s.drop name.length with
    | [] =>
      match level? whole with
      | some v => return ⟨none, none, none, v⟩
      | none => return ⟨some whole, none, none, .full⟩
    | '=' :: _ =>
      let target ← slice whole 0 stop
      return ⟨some target, none, none, ← levelFrom whole (stop + 1)⟩
    | _ :: more =>
      let target ← slice whole 0 stop
      spanFrom whole (stop + 1) (some target) more

/-- Reads a filter. Empty directives do not count. -/
def parse (filter : Text) : Except Fault (List Directive) :=
  ((Text.pieces (· == ',') filter).filter fun piece => !piece.isEmpty).mapM directive

end LogFilter

/-- What is shown of each topic under a filter, given the names of the topics.
Without a filter and with a malformed one, that is everything up to `info`. There
is no answer for a filter that cannot be read at all. -/
def LogFilter.verbosity? (nameOf : Topic → Text) : Option Text → Option (Topic → Verbosity)
  | none => some fun _ => .upTo .info
  | some filter =>
    match parse filter with
    | .ok directives => some fun topic => verbosityOf directives (nameOf topic)
    | .error .malformed => some fun _ => .upTo .info
    | .error .insideCharacter => none

end LoudHeaders
