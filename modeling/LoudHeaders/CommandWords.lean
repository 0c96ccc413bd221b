import LoudHeaders.Text.Blank

/-
  Command lines split into words.

  A stored command line is split the way a shell would read it: words are
  separated by spaces, tabs and line feeds; quotes and backslashes keep
  characters together and disappear; a `#` where a word could start hides the
  rest of its line. Nothing else is special. A quote that is never closed and a
  backslash at the very end make the split fail.
-/

namespace LoudHeaders

namespace CommandWords

/-- The characters that separate words. -/
def isSeparator (c : Char) : Bool := c == ' ' || c == '\t' || c == '\n'

/-- The characters that a backslash takes the meaning from inside double
quotes. -/
def isSpecialInDouble (c : Char) : Bool :=
  c == '$' || c == '\x60' || c == '"' || c == '\\'

/-- Where in a command line the reader stands. -/
inductive Place where
  | between
  | comment
  | word
  | escape
  | single
  | double
  | doubleEscape
  deriving DecidableEq, Repr

/-- Adds a character to the word that the rest begins with. -/
def extend (c : Char) : List Text → List Text
  | [] => [[c]]
  | word :: words => (c :: word) :: words

/-- The words of the rest of a command line. Inside a word, the first text of
the answer is the rest of that word. -/
def split : Place → Text → Option (List Text)
  | .between, [] => some []
  | .comment, [] => some []
  | .word, [] => some [[]]
  | _, [] => none
  | .between, c :: rest =>
    if isSeparator c then split .between rest
    else if c = '#' then split .comment rest
    else if c = '\\' then split .escape rest
    else if c = '\x27' then split .single rest
    else if c = '"' then split .double rest
    else (split .word rest).map (extend c)
  | .comment, c :: rest => if c = '\n' then split .between rest else split .comment rest
  | .word, c :: rest =>
    if isSeparator c then (split .between rest).map ([] :: ·)
    else if c = '\\' then split .escape rest
    else if c = '\x27' then split .single rest
    else if c = '"' then split .double rest
    else (split .word rest).map (extend c)
  | .escape, c :: rest =>
    if c = '\n' then split .word rest else (split .word rest).map (extend c)
  | .single, c :: rest =>
    if c = '\x27' then split .word rest else (split .single rest).map (extend c)
  | .double, c :: rest =>
    if c = '"' then split .word rest
    else if c = '\\' then split .doubleEscape rest
    else (split .double rest).map (extend c)
  | .doubleEscape, c :: rest =>
    if c = '\n' then split .double rest
    else if isSpecialInDouble c then (split .double rest).map (extend c)
    else (split .double rest).map fun words => extend '\\' (extend c words)

/-- The words of a command line, or nothing if its quoting is incomplete. -/
def shellWords? (command : Text) : Option (List Text) := split .between command

/-- The flags that make a compiler print the rule for its inputs instead of
compiling. -/
def dependencyFlags : List Text := [['-', 'M', 'M'], ['-', 'M', 'F'], ['-']]

/-- The arguments to run for the dependencies of a stored command. A command
whose quoting is incomplete is split at blanks instead, so that it still
reaches the compiler. -/
def dependencyCommand (command : Text) : List Text :=
  (shellWords? command).getD (Text.words command) ++ dependencyFlags

end CommandWords

end LoudHeaders
