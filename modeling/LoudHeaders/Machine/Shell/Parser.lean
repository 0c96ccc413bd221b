import LoudHeaders.Machine.Shell.Token

/-
  Reading shell commands.

  A script is read line by line: one call gives the command on the next line,
  which may go on over several lines where a construct is open. A token that does
  not fit is a fault, which says what was met and, where only one thing could have
  followed, what was expected.

  This serves only the world the program is run in; no theorem is about it (see
  Machine/Shell/Basic).
-/

namespace LoudHeaders

namespace Machine

namespace Shell

/-- A fault in a script: the line and what is wrong. -/
structure SyntaxFault where
  line : Nat
  message : Text
  deriving DecidableEq, Repr

/-- A reader of commands; its state is the tokens that are left. -/
abbrev Parser (α : Type) : Type := StateT Tokens (Except SyntaxFault) α

namespace Parser

/-- The words with a meaning of their own where a command can start. -/
def keywords : List Text :=
  ["if".toList, "then".toList, "else".toList, "elif".toList, "fi".toList, "do".toList,
    "done".toList, "case".toList, "esac".toList, "while".toList, "until".toList, "for".toList,
    "in".toList, "!".toList, "\x7b".toList, "\x7d".toList]

/-- The keyword a token is, if it is one. -/
def keyword? : Token → Option Text
  | .word w =>
    match w.plain? with
    | some text => if keywords.contains text then some text else none
    | none => none
  | _ => none

/-- The next token. -/
def peek : Parser Token := do return ((← get).list.head?.map (·.1)).getD .finish

/-- The line of the next token. -/
def line : Parser Nat := do return ((← get).list.head?.map (·.2)).getD 1

/-- Goes on to the token behind the next one; the last token stays. -/
def advance : Parser Unit :=
  modify fun t =>
    match t.list with
    | _ :: next :: rest => { t with list := next :: rest }
    | _ => t

/-- Ends with a fault. At the end of a line that is one of the next line. -/
def fail {α : Type} (message : Text) : Parser α := do
  let n ← line
  let ended := (← peek) == .operator .lineFeed
  throw ⟨if ended then n + 1 else n, "Syntax error: ".toList ++ message⟩

/-- How an operator is written. -/
def operatorText : Operator → Text
  | .lineFeed => ['\n']
  | .semicolon => [';']
  | .doubleSemicolon => [';', ';']
  | .ampersand => ['&']
  | .doubleAmpersand => ['&', '&']
  | .bar => ['|']
  | .doubleBar => ['|', '|']
  | .opening => ['(']
  | .closing => [')']

/-- A text between double quotes, nothing in it escaped. -/
def inQuotes (s : Text) : Text := ['"'] ++ s ++ ['"']

/-- How a token is named; a keyword counts as one only where `asKeyword` holds. -/
def tokenName (asKeyword : Bool) (t : Token) : Text :=
  match t with
  | .word _ =>
    match keyword? t with
    | some k => if asKeyword then inQuotes k else "word".toList
    | none => "word".toList
  | .operator .lineFeed => "newline".toList
  | .operator o => inQuotes (operatorText o)
  | .redirect _ _ => "redirection".toList
  | .here _ _ => "redirection".toList
  | .fault message => message
  | .finish => "end of file".toList

/-- Ends with the fault that the next token does not fit. -/
def unexpected {α : Type} (asKeyword : Bool) (expected : Text) : Parser α := do
  match ← peek with
  | .fault message => fail message
  | t =>
    let wanted := if expected.isEmpty then [] else " (expecting ".toList ++ expected ++ [')']
    fail (tokenName asKeyword t ++ " unexpected".toList ++ wanted)

/-- Passes a keyword, or ends with the fault that it is missing. -/
def expectKeyword (k : Text) : Parser Unit := do
  if keyword? (← peek) = some k then advance else unexpected true (inQuotes k)

/-- Passes line feeds; `fuel` bounds their number. -/
def skipLines : Nat → Parser Unit
  | 0 => pure ()
  | fuel + 1 => do
    if (← peek) = .operator .lineFeed then
      advance
      skipLines fuel

/-- Whether a list of commands can end before a token. -/
def endsList (t : Token) : Bool :=
  match t with
  | .finish => true
  | .operator o => o == .closing || o == .doubleSemicolon
  | _ =>
    match keyword? t with
    | some k =>
      ["then".toList, "else".toList, "elif".toList, "fi".toList, "do".toList, "done".toList,
        "esac".toList, "\x7d".toList].contains k
    | none => false

/-- Reads a redirection, if there is one next. -/
def redirect? : Parser (Option Redirect) := do
  match ← peek with
  | .here source number =>
    advance
    return some (.here source (((← get).bodies[number]?).getD []))
  | .redirect source arrow =>
    advance
    match ← peek with
    | .word w =>
      advance
      match arrow with
      | .read => return some (.read source w)
      | .write => return some (.write source w false)
      | .append => return some (.write source w true)
      | .join => return some (.join source w)
    | _ => unexpected false []
  | _ => return none

/-- Reads redirections up to the first token that is none. -/
def redirects : Nat → Parser (List Redirect)
  | 0 => return []
  | fuel + 1 => do
    match ← redirect? with
    | some r => return r :: (← redirects fuel)
    | none => return []

/-- The assignment a word is, if it is one. -/
def assignment? (w : Word) : Option (Text × Word) :=
  let isNamePart (p : Part) : Bool :=
    match p with
    | .plain c => isNameChar c
    | _ => false
  let name := Word.characters (w.takeWhile isNamePart)
  match w.dropWhile isNamePart with
  | .plain '=' :: value => if isName name then some (name, value) else none
  | _ => none

/-- Words up to the first token that is none. -/
def wordList : Nat → Parser (List Word)
  | 0 => return []
  | fuel + 1 => do
    match ← peek with
    | .word w =>
      advance
      return w :: (← wordList fuel)
    | _ => return []

/-- The builtins that keep their names from functions. -/
def reserved : List Text :=
  [".".toList, ":".toList, "break".toList, "continue".toList, "eval".toList, "exec".toList,
    "exit".toList, "export".toList, "readonly".toList, "return".toList, "set".toList,
    "shift".toList, "times".toList, "trap".toList, "unset".toList]

/-- A command with what its inputs and outputs are led to. -/
def redirectedBy (body : Command) (rs : List Redirect) : Command :=
  if rs.isEmpty then body else .redirected body rs

mutual

/-- Reads a list of commands. At the top of a script it ends with the line, and
inside a construct before a token that ends lists; `started` says whether it has a
command yet. -/
def list : Nat → Bool → Bool → Command → Parser Command
  | 0, _, _, before => return before
  | fuel + 1, top, started, before => do
    if !top then skipLines (fuel + 1)
    let t ← peek
    if t = .operator .lineFeed then
      advance
      return before
    if t = .finish then return before
    if started && !top && endsList t then return before
    let n ← andOr fuel
    let next ← peek
    let item := if next = .operator .ampersand then .background n else n
    let all := if started then .sequence before item else item
    if next = .operator .ampersand || next = .operator .semicolon then
      advance
      list fuel top true all
    else if next = .operator .lineFeed then
      advance
      if top then return all else list fuel top true all
    else if next = .finish then return all
    else if top then unexpected true []
    else return all

/-- Reads commands joined by `&&` and `||`. -/
def andOr : Nat → Parser Command
  | 0 => return .nothing
  | fuel + 1 => do
    let first ← pipeline fuel
    moreAndOr fuel first

/-- Reads what is joined to a command by `&&` and `||`. -/
def moreAndOr : Nat → Command → Parser Command
  | 0, first => return first
  | fuel + 1, first => do
    match ← peek with
    | .operator .doubleAmpersand =>
      advance
      skipLines (fuel + 1)
      let second ← pipeline fuel
      moreAndOr fuel (.both first second)
    | .operator .doubleBar =>
      advance
      skipLines (fuel + 1)
      let second ← pipeline fuel
      moreAndOr fuel (.either first second)
    | _ => return first

/-- Reads a pipeline. -/
def pipeline : Nat → Parser Command
  | 0 => return .nothing
  | fuel + 1 => do
    if keyword? (← peek) = some ['!'] then
      advance
      let first ← command fuel
      return .negated (← morePipeline fuel first)
    else
      let first ← command fuel
      morePipeline fuel first

/-- Reads what a command is piped into. -/
def morePipeline : Nat → Command → Parser Command
  | 0, first => return first
  | fuel + 1, first => do
    match ← peek with
    | .operator .bar =>
      advance
      skipLines (fuel + 1)
      let second ← command fuel
      return .piped first (← morePipeline fuel second)
    | _ => return first

/-- Reads one command. -/
def command : Nat → Parser Command
  | 0 => return .nothing
  | fuel + 1 => do
    let t ← peek
    match t with
    | .operator .opening =>
      advance
      let body ← list fuel false false .nothing
      if (← peek) != .operator .closing then unexpected true "\")\"".toList
      advance
      return redirectedBy (.subshell body) (← redirects (fuel + 1))
    | .redirect _ _ => simple fuel
    | .here _ _ => simple fuel
    | .word _ =>
      match keyword? t with
      | none => simple fuel
      | some k =>
        if k = "if".toList then
          advance
          let body ← branches fuel
          return redirectedBy body (← redirects (fuel + 1))
        else if k = "while".toList || k = "until".toList then
          advance
          let test ← list fuel false false .nothing
          expectKeyword "do".toList
          let body ← list fuel false false .nothing
          expectKeyword "done".toList
          return redirectedBy (.loop (k == "while".toList) test body) (← redirects (fuel + 1))
        else if k = "for".toList then
          advance
          let body ← forLoop fuel
          return redirectedBy body (← redirects (fuel + 1))
        else if k = "case".toList then
          advance
          let body ← selection fuel
          return redirectedBy body (← redirects (fuel + 1))
        else if k = "\x7b".toList then
          advance
          let body ← list fuel false false .nothing
          expectKeyword "\x7d".toList
          return redirectedBy body (← redirects (fuel + 1))
        else unexpected true []
    | _ => unexpected true []

/-- Reads an `if` behind its keyword, or an `elif`. -/
def branches : Nat → Parser Command
  | 0 => return .nothing
  | fuel + 1 => do
    let test ← list fuel false false .nothing
    expectKeyword "then".toList
    let yes ← list fuel false false .nothing
    let k := keyword? (← peek)
    if k = some "elif".toList then
      advance
      return .branch test yes (← branches fuel)
    else if k = some "else".toList then
      advance
      let no ← list fuel false false .nothing
      expectKeyword "fi".toList
      return .branch test yes no
    else
      expectKeyword "fi".toList
      return .branch test yes .nothing

/-- Reads a `for` behind its keyword. -/
def forLoop : Nat → Parser Command
  | 0 => return .nothing
  | fuel + 1 => do
    match ← peek with
    | .word w =>
      match w.plain? with
      | some name =>
        if !isName name then fail "Bad for loop variable".toList
        advance
        skipLines (fuel + 1)
        let words ← if keyword? (← peek) = some "in".toList then do
            advance
            let words ← wordList (fuel + 1)
            let t ← peek
            if t != .operator .lineFeed && t != .operator .semicolon then unexpected false []
            advance
            pure words
          else do
            if (← peek) = .operator .semicolon then advance
            pure [[.parameter ['@'] true]]
        skipLines (fuel + 1)
        expectKeyword "do".toList
        let body ← list fuel false false .nothing
        expectKeyword "done".toList
        return .each name words body
      | none => fail "Bad for loop variable".toList
    | _ => fail "Bad for loop variable".toList

/-- Reads a `case` behind its keyword. -/
def selection : Nat → Parser Command
  | 0 => return .nothing
  | fuel + 1 => do
    match ← peek with
    | .word subject =>
      advance
      skipLines (fuel + 1)
      expectKeyword "in".toList
      return .select subject (← choices fuel)
    | _ => unexpected false "word".toList

/-- Reads the cases of a `case`. -/
def choices : Nat → Parser (List (List Word × Command))
  | 0 => return []
  | fuel + 1 => do
    skipLines (fuel + 1)
    if keyword? (← peek) = some "esac".toList then
      advance
      return []
    if (← peek) = .operator .opening then advance
    let patterns ← patternList (fuel + 1)
    if (← peek) != .operator .closing then unexpected false "\")\"".toList
    advance
    skipLines (fuel + 1)
    let empty := endsList (← peek)
    let body ← if empty then pure .nothing else list fuel false false .nothing
    skipLines (fuel + 1)
    if (← peek) = .operator .doubleSemicolon then
      advance
      return (patterns, body) :: (← choices fuel)
    else if keyword? (← peek) = some "esac".toList then
      advance
      return [(patterns, body)]
    else unexpected true "\";;\"".toList

/-- Reads patterns with bars between them. -/
def patternList : Nat → Parser (List Word)
  | 0 => return []
  | fuel + 1 => do
    match ← peek with
    | .word w =>
      advance
      if (← peek) = .operator .bar then
        advance
        return w :: (← patternList fuel)
      else return [w]
    | _ =>
      advance
      return [[]]

/-- Reads a simple command or the definition of a function. -/
def simple : Nat → Parser Command
  | 0 => return .nothing
  | fuel + 1 => do
    let n ← line
    simpleFrom fuel n [] [] []

/-- Reads a simple command of which some parts are known. -/
def simpleFrom : Nat → Nat → List (Text × Word) → List Word → List Redirect → Parser Command
  | 0, n, assignments, words, rs => return .simple n assignments words rs
  | fuel + 1, n, assignments, words, rs => do
    match ← redirect? with
    | some r => simpleFrom fuel n assignments words (rs ++ [r])
    | none =>
      match ← peek with
      | .word w =>
        advance
        match assignment? w with
        | some a =>
          if words.isEmpty then simpleFrom fuel n (assignments ++ [a]) words rs
          else simpleFrom fuel n assignments (words ++ [w]) rs
        | none => simpleFrom fuel n assignments (words ++ [w]) rs
      | .operator .opening =>
        match assignments, words, rs with
        | [], [w], [] =>
          advance
          if (← peek) != .operator .closing then unexpected true "\")\"".toList
          let name := (w.plain?).getD []
          if !isName name || reserved.contains name then fail "Bad function name".toList
          advance
          skipLines (fuel + 1)
          return .function name (← command fuel)
        | _, _, _ => return .simple n assignments words rs
      | _ => return .simple n assignments words rs

end

/-- Reads the command on the next line. There is none if nothing is left. -/
def nextLine (t : Tokens) : Except SyntaxFault (Option (Command × Tokens)) :=
  match t.list with
  | [] => .ok none
  | (.finish, _) :: _ => .ok none
  | rest =>
    match (list (4 * rest.length + 4) true false .nothing).run t with
    | .error fault => .error fault
    | .ok result => .ok (some result)

end Parser

end Shell

end Machine

end LoudHeaders
