import LoudHeaders.Machine.Shell.Basic

/-
  The tokens of a shell script.

  A script is cut into words, operators and line feeds; words are taken apart into
  their parts at once. The text below `<<` is collected when its line ends. Where
  quotes or brackets are not closed, the list of tokens ends with the fault, so
  that the lines before it can still be run.

  This serves only the world the program is run in; no theorem is about it (see
  Machine/Shell/Basic).
-/

namespace LoudHeaders

namespace Machine

namespace Shell

/-- An operator. -/
inductive Operator where
  | lineFeed
  | semicolon
  | doubleSemicolon
  | ampersand
  | doubleAmpersand
  | bar
  | doubleBar
  | opening
  | closing
  deriving DecidableEq, Repr

/-- What an arrow does. -/
inductive Arrow where
  | read
  | write
  | append
  | join
  deriving DecidableEq, Repr

/-- A token. A text below the line is named by its number. -/
inductive Token where
  | word (w : Word)
  | operator (o : Operator)
  | redirect (source : Nat) (arrow : Arrow)
  | here (source : Nat) (number : Nat)
  | fault (message : Text)
  | finish
  deriving DecidableEq, Repr

/-- What is still open inside brackets. -/
inductive Bracket where
  | round
  | sum
  | choice
  | comment
  | curly
  | quotedCurly
  | single
  | double
  | back
  deriving DecidableEq, Repr

/-- What a character does to what is open: nothing, one bracket closes, or one more
opens. -/
inductive Turn where
  | stay
  | close
  | enter (b : Bracket)
  deriving DecidableEq, Repr

/-- Characters that end a word. -/
def endsWord (c : Char) : Bool :=
  c == ' ' || c == '\t' || c == '\n' || c == ';' || c == '&' || c == '|' || c == '<' ||
    c == '>' || c == '(' || c == ')'

/-- Words behind which a command starts. -/
def openingWords : List Text :=
  ["if".toList, "then".toList, "elif".toList, "else".toList, "while".toList, "until".toList,
    "do".toList, "!".toList, ['\x7b']]

/-- Whether a command starts behind a text, given last character first; `words` are
those that it may start behind. -/
def startsCommand (words : List Text) (passed : Text) : Bool :=
  match passed.dropWhile fun c => c == ' ' || c == '\t' with
  | [] => true
  | c :: rest =>
    ['\n', ';', '&', '|', '(', ')'].contains c ||
      words.contains ((c :: rest).takeWhile fun d => !endsWord d).reverse

/-- Whether a character ends the word `case` where it starts a choice. -/
def opensChoice (passed : Text) (c : Char) (rest : Text) : Bool :=
  c == 'e' && passed.take 3 == ['s', 'a', 'c'] &&
    (rest.head?.any fun d => d == ' ' || d == '\t' || d == '\n') &&
    startsCommand openingWords (passed.drop 3)

/-- Whether a character ends the word `esac` where it closes a choice. -/
def closesChoice (passed : Text) (c : Char) (rest : Text) : Bool :=
  c == 'c' && passed.take 3 == ['a', 's', 'e'] && rest.head?.all endsWord &&
    startsCommand ("in".toList :: openingWords) (passed.drop 3)

/-- What a character does inside a script, between the text passed, last character
first, and the rest. -/
def scriptTurn (passed : Text) (c : Char) (rest : Text) : Turn :=
  if c = '(' then .enter .round
  else if c = '\x27' then .enter .single
  else if c = '"' then .enter .double
  else if c = '\x60' then .enter .back
  else if passed.head? == some '$' && c == '\x7b' then .enter .curly
  else if c == '#' && passed.head?.all endsWord then .enter .comment
  else if opensChoice passed c rest then .enter .choice
  else .stay

/-- What a character does between the text passed, last character first, and the
rest, given the bracket opened last. In a choice a round bracket closes nothing. -/
def Bracket.turn (passed : Text) (c : Char) (rest : Text) (b : Bracket) : Turn :=
  let afterDollar := passed.head? == some '$'
  match b with
  | .single => if c = '\x27' then .close else .stay
  | .back => if c = '\x60' then .close else .stay
  | .comment => if c = '\n' then .close else .stay
  | .double =>
    if c = '"' then .close
    else if c = '\x60' then .enter .back
    else if afterDollar && c == '(' then .enter .round
    else if afterDollar && c == '\x7b' then .enter .quotedCurly
    else .stay
  | .quotedCurly =>
    if c = '\x7d' then .close
    else if c = '\x60' then .enter .back
    else if afterDollar && c == '(' then .enter .round
    else if afterDollar && c == '\x7b' then .enter .quotedCurly
    else .stay
  | .curly =>
    if c = '\x7d' then .close
    else if c = '\x27' then .enter .single
    else if c = '"' then .enter .double
    else if c = '\x60' then .enter .back
    else if afterDollar && c == '(' then .enter .round
    else if afterDollar && c == '\x7b' then .enter .curly
    else .stay
  | .sum =>
    if c = ')' then .close
    else if c = '\x60' then .enter .back
    else if c = '(' then .enter (if afterDollar then .round else .sum)
    else if afterDollar && c == '\x7b' then .enter .curly
    else .stay
  | .round => if c = ')' then .close else scriptTurn passed c rest
  | .choice => if closesChoice passed c rest then .close else scriptTurn passed c rest

/-- The texts before and behind the bracket that closes all that is open, given
the text passed so far, last character first. -/
def closing? (passed : Text) (opened : List Bracket) : Text → Option (Text × Text)
  | [] => none
  | c :: rest =>
    match opened with
    | [] => none
    | b :: outer =>
      if c = '\\' && b != .single && b != .comment then
        match rest with
        | [] => none
        | d :: rest => closing? (d :: c :: passed) opened rest
      else match b.turn passed c rest with
        | .stay => closing? (c :: passed) opened rest
        | .enter inner => closing? (c :: passed) (inner :: opened) rest
        | .close =>
          if outer.isEmpty then some (passed.reverse, rest) else closing? (c :: passed) outer rest

/-- The script between back quotes; a backslash before a dollar sign, a back quote
or a backslash goes, and inside double quotes also one before a double quote. -/
def backScript (inQuotes : Bool) : Text → Text
  | '\\' :: c :: rest =>
    if c = '$' || c = '\x60' || c = '\\' || (inQuotes && c == '"') then
      c :: backScript inQuotes rest
    else '\\' :: c :: backScript inQuotes rest
  | c :: rest => c :: backScript inQuotes rest
  | [] => []

/-- A parameter that is a single character. -/
def isSpecialParameter (c : Char) : Bool :=
  c.isDigit || c == '@' || c == '*' || c == '#' || c == '?' || c == '-' || c == '$' || c == '!'

/-- Reads what a dollar sign stands for, from the text behind it. -/
def dollar (inQuotes : Bool) (s : Text) : Except Text (Part × Text) :=
  match s with
  | '(' :: '(' :: rest =>
    match closing? [] [.sum, .sum] rest with
    | some (inside, rest) => .ok (.arithmetic inside.dropLast inQuotes, rest)
    | none => .error "Missing '))'".toList
  | '(' :: rest =>
    match closing? [] [.round] rest with
    | some (inside, rest) => .ok (.substitution inside true inQuotes, rest)
    | none => .error "end of file unexpected (expecting \")\")".toList
  | '\x7b' :: rest =>
    match closing? [] [if inQuotes then .quotedCurly else .curly] rest with
    | some (inside, rest) => .ok (.parameter inside inQuotes, rest)
    | none => .error "Missing '\x7d'".toList
  | c :: rest =>
    if isSpecialParameter c then .ok (.parameter [c] inQuotes, rest)
    else if isNameStart c then
      .ok (.parameter (s.takeWhile isNameChar) inQuotes, s.dropWhile isNameChar)
    else .ok (if inQuotes then .quoted '$' else .plain '$', s)
  | [] => .ok (if inQuotes then .quoted '$' else .plain '$', s)

/-- How parts are read: as a word of a command, as a whole text, inside double
quotes, or as a text in which quotes mean nothing. -/
inductive Reading where
  | word
  | whole
  | inDouble (outer : Bool)
  | literal
  deriving DecidableEq, Repr

/-- The characters up to a closing single quote, last first, and what is behind
it. -/
def singleQuoted (s : Text) : Except Text (Word × Text) :=
  match s.dropWhile (· != '\x27') with
  | [] => .error "Unterminated quoted string".toList
  | _ :: rest => .ok ((s.takeWhile (· != '\x27')).reverse.map .quoted, rest)

/-- Reads parts until the reading ends; `fuel` bounds the number of steps, and
`passed` are the parts so far, last first. -/
def parts : Nat → Reading → Word → Text → Except Text (Word × Text)
  | 0, _, passed, s => .ok (passed.reverse, s)
  | fuel + 1, reading, passed, s =>
    let inQuotes := reading = .literal || reading = .inDouble true || reading = .inDouble false
    let back (outer : Bool) : Reading := if outer then .word else .whole
    match s with
    | [] =>
      match reading with
      | .inDouble _ => .error "Unterminated quoted string".toList
      | _ => .ok (passed.reverse, [])
    | '\\' :: rest =>
      match rest with
      | [] => .ok ((.quoted '\\' :: passed).reverse, [])
      | '\n' :: rest => parts fuel reading passed rest
      | c :: rest =>
        if inQuotes && !(c == '$' || c == '\x60' || c == '\\' || (c == '"' && reading != .literal))
        then parts fuel reading (.quoted c :: .quoted '\\' :: passed) rest
        else parts fuel reading (.quoted c :: passed) rest
    | '$' :: rest => do
      let (part, rest) ← dollar inQuotes rest
      parts fuel reading (part :: passed) rest
    | '\x60' :: rest =>
      match closing? [] [.back] rest with
      | some (inside, rest) =>
        let part := Part.substitution (backScript inQuotes inside) false inQuotes
        parts fuel reading (part :: passed) rest
      | none => .error "EOF in backquote substitution".toList
    | c :: rest =>
      match reading with
      | .inDouble outer =>
        if c = '"' then parts fuel (back outer) passed rest
        else parts fuel reading (.quoted c :: passed) rest
      | .literal => parts fuel reading (.quoted c :: passed) rest
      | .word =>
        if endsWord c then .ok (passed.reverse, s)
        else if c = '"' then parts fuel (.inDouble true) (.mark :: passed) rest
        else if c = '\x27' then do
          let (inside, rest) ← singleQuoted rest
          parts fuel reading (inside ++ .mark :: passed) rest
        else parts fuel reading (.plain c :: passed) rest
      | .whole =>
        if c = '"' then parts fuel (.inDouble false) (.mark :: passed) rest
        else if c = '\x27' then do
          let (inside, rest) ← singleQuoted rest
          parts fuel reading (inside ++ .mark :: passed) rest
        else parts fuel reading (.plain c :: passed) rest

/-- The parts of a text in which nothing ends a word. -/
def wholeParts (s : Text) : Except Text Word :=
  (parts (s.length + 1) .whole [] s).map (·.1)

/-- The parts of a text in which quotes mean nothing. -/
def literalParts (s : Text) : Except Text Word :=
  (parts (s.length + 1) .literal [] s).map (·.1)

/-- A text below the line that is still to come: whether tabs in front of its lines
go, whether it is filled in, and the line it ends before. -/
structure Awaited where
  stripped : Bool
  filled : Bool
  delimiter : Text

/-- The tokens of a script with their lines, and the texts below lines. -/
structure Tokens where
  list : List (Token × Nat)
  bodies : List Word

/-- A script that is being cut: what is left, the line, the tokens so far, last
first, the texts to come, and the texts collected. -/
structure Cutter where
  rest : Text
  line : Nat
  tokens : List (Token × Nat)
  awaited : List Awaited
  bodies : List Word

namespace Cutter

/-- Adds a token and goes on behind it. -/
def push (k : Cutter) (token : Token) (rest : Text) : Cutter :=
  { k with rest, tokens := (token, k.line) :: k.tokens }

/-- Ends with a fault. -/
def fail (k : Cutter) (message : Text) : Cutter :=
  let line := k.line + k.rest.count '\n'
  { k with rest := [], tokens := (.fault message, line) :: k.tokens }

/-- Collects one text below the line: gives it, the lines behind it and how many
lines were passed. Without the line it should end before it ends with the
script. -/
def collect (a : Awaited) (lines : List Text) : List Text → Text × List Text × Nat
  | [] => (Text.joinWith ['\n'] lines, [], 0)
  | line :: rest =>
    let line := if a.stripped then line.dropWhile (· == '\t') else line
    if line = a.delimiter then (lines.flatMap fun l => l ++ ['\n'], rest, 1)
    else
      let (body, rest, passed) := collect a (lines ++ [line]) rest
      (body, rest, passed + 1)

/-- Collects all texts that are to come below the line that has just ended. -/
def fetch (k : Cutter) : List Awaited → Except Text Cutter
  | [] => .ok { k with awaited := [] }
  | a :: others => do
    let all := if k.rest.isEmpty then [] else Text.pieces (· == '\n') k.rest
    let (body, rest, passed) := collect a [] all
    let word ← if a.filled then literalParts body else .ok (body.map Part.quoted)
    fetch { k with
      rest := Text.joinWith ['\n'] rest, line := k.line + passed, bodies := k.bodies ++ [word] }
      others

/-- Ends a line. -/
def endLine (k : Cutter) (rest : Text) : Cutter :=
  let ended := k.push (.operator .lineFeed) rest
  let below := { ended with line := k.line + 1 }
  match below.fetch k.awaited with
  | .ok fetched => fetched
  | .error message => below.fail message

/-- Notes a text to come below the line. -/
def await (k : Cutter) (source : Nat) (stripped : Bool) (rest : Text) : Cutter :=
  let rest := rest.dropWhile fun c => c == ' ' || c == '\t'
  match parts (rest.length + 1) .word [] rest with
  | .error message => k.fail message
  | .ok (w, rest) =>
    let filled := w.all fun
      | .plain _ => true
      | _ => false
    let noted := k.push (.here source (k.bodies.length + k.awaited.length)) rest
    { noted with awaited := k.awaited ++ [⟨stripped, filled, w.characters⟩] }

/-- Takes up an arrow for an input or output. -/
def arrow (k : Cutter) (source : Option Nat) (c : Char) (rest : Text) : Cutter :=
  let redirect (given : Nat) (a : Arrow) (rest : Text) :=
    k.push (.redirect (source.getD given) a) rest
  if c = '<' then
    match rest with
    | '<' :: '-' :: rest => k.await (source.getD 0) true rest
    | '<' :: rest => k.await (source.getD 0) false rest
    | '&' :: rest => redirect 0 .join rest
    | '>' :: rest => redirect 0 .read rest
    | _ => redirect 0 .read rest
  else
    match rest with
    | '>' :: rest => redirect 1 .append rest
    | '&' :: rest => redirect 1 .join rest
    | '|' :: rest => redirect 1 .write rest
    | _ => redirect 1 .write rest

/-- Takes up a word, or an arrow with a number in front of it. -/
def takeWord (k : Cutter) : Cutter :=
  match parts (k.rest.length + 1) .word [] k.rest with
  | .error message => k.fail message
  | .ok (w, rest) =>
    let passed := k.rest.take (k.rest.length - rest.length)
    let behind := { k.push (.word w) rest with line := k.line + passed.count '\n' }
    match w, rest with
    | [.plain c], d :: more =>
      if c.isDigit && (d == '<' || d == '>') then
        k.arrow (some (c.toNat - '0'.toNat)) d more
      else behind
    | _, _ => if w.isEmpty then { k with rest, line := behind.line } else behind

/-- Takes up one token. -/
def step (k : Cutter) : Cutter :=
  match k.rest with
  | [] => k
  | '\n' :: rest => k.endLine rest
  | ' ' :: rest => { k with rest }
  | '\t' :: rest => { k with rest }
  | '#' :: rest => { k with rest := rest.dropWhile (· != '\n') }
  | ';' :: ';' :: rest => k.push (.operator .doubleSemicolon) rest
  | ';' :: rest => k.push (.operator .semicolon) rest
  | '&' :: '&' :: rest => k.push (.operator .doubleAmpersand) rest
  | '&' :: rest => k.push (.operator .ampersand) rest
  | '|' :: '|' :: rest => k.push (.operator .doubleBar) rest
  | '|' :: rest => k.push (.operator .bar) rest
  | '(' :: rest => k.push (.operator .opening) rest
  | ')' :: rest => k.push (.operator .closing) rest
  | '<' :: rest => k.arrow none '<' rest
  | '>' :: rest => k.arrow none '>' rest
  | _ => k.takeWord

/-- Takes up tokens until nothing is left; `fuel` bounds their number. -/
def run : Nat → Cutter → Cutter
  | 0, k => k
  | fuel + 1, k => if k.rest.isEmpty then k else run fuel k.step

end Cutter

/-- Cuts a script into tokens, counting its lines from a number on. -/
def tokens (line : Nat) (script : Text) : Tokens :=
  let k := Cutter.run (2 * script.length + 1) ⟨script, line, [], [], []⟩
  let k := if k.awaited.isEmpty then k else k.endLine []
  { list := ((.finish, k.line) :: k.tokens).reverse, bodies := k.bodies }

end Shell

end Machine

end LoudHeaders
