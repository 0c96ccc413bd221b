import LoudHeaders.Text.Basic

/-
  Shell scripts as data.

  A word is a list of parts: characters, quoted or not, and things that are filled
  in when the word is used. What is filled in is kept as the text between its
  brackets and read when it is needed. A script inside a word counts its lines on
  from those of the command, or from one if it stands between back quotes. A command
  is built from simple commands by lists, pipelines, branches and loops.

  The shell serves only the world the program is run in, where a compiler or a build
  tool can be a script. The theorems are about the program in every world, whatever
  its programs answer, and none of them is about what a script does.
-/

namespace LoudHeaders

namespace Machine

namespace Shell

/-- A part of a word. A `mark` is where quotes open; it makes a word of nothing
else a word. -/
inductive Part where
  | plain (c : Char)
  | quoted (c : Char)
  | mark
  | parameter (expression : Text) (inQuotes : Bool)
  | substitution (script : Text) (counted inQuotes : Bool)
  | arithmetic (expression : Text) (inQuotes : Bool)
  deriving DecidableEq, Repr

/-- A word. -/
abbrev Word : Type := List Part

namespace Word

/-- The text of a word that consists of unquoted characters. -/
def plain? : Word → Option Text
  | [] => some []
  | .plain c :: rest => (plain? rest).map (c :: ·)
  | _ => none

/-- The characters of a word, quoted or not. -/
def characters (w : Word) : Text :=
  w.filterMap fun
    | .plain c => some c
    | .quoted c => some c
    | _ => none

end Word

/-- What an output or the input of a command is led to. -/
inductive Redirect where
  | read (source : Nat) (file : Word)
  | write (source : Nat) (file : Word) (append : Bool)
  | join (source : Nat) (target : Word)
  | here (source : Nat) (body : Word)
  deriving DecidableEq, Repr

/-- A command. -/
inductive Command where
  | nothing
  | simple (line : Nat) (assignments : List (Text × Word)) (words : List Word)
      (redirects : List Redirect)
  | redirected (body : Command) (redirects : List Redirect)
  | subshell (body : Command)
  | sequence (first second : Command)
  | background (body : Command)
  | both (first second : Command)
  | either (first second : Command)
  | negated (body : Command)
  | piped (first second : Command)
  | branch (test yes no : Command)
  | loop (wanted : Bool) (test body : Command)
  | each (name : Text) (words : List Word) (body : Command)
  | select (subject : Word) (cases : List (List Word × Command))
  | function (name : Text) (body : Command)

/-- A letter or an underscore. -/
def isNameStart (c : Char) : Bool := c.isAlpha || c == '_'

/-- A character inside a name. -/
def isNameChar (c : Char) : Bool := isNameStart c || c.isDigit

/-- Whether a text is a name. -/
def isName : Text → Bool
  | [] => false
  | c :: rest => isNameStart c && rest.all isNameChar

end Shell

end Machine

end LoudHeaders
