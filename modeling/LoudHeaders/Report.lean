import LoudHeaders.Arguments.Basic
import LoudHeaders.Ranking
import LoudHeaders.Trace

/-
  Reports.

  A ranking is printed with one line for each entry or as a JSON list. The line
  starts with the path as it is and names the score in a fixed wording. Log
  lines carry their level in front; characters that could steer a terminal are
  spelled out in them. A fatal error is followed by its causes, numbered if
  there are several.
-/

namespace LoudHeaders

namespace Report

/-- What the scores of a ranking count. -/
inductive Meaning where
  | targets
  | recompilations
  | changes
  deriving DecidableEq, Repr

namespace Meaning

/-- The wording in front of a score. -/
def lead : Meaning → Text
  | .targets => " contributes to ".toList
  | .recompilations => " contributed to ".toList
  | .changes => " was changed ".toList

/-- The wording behind a score. -/
def tail : Meaning → Text
  | .targets => " targets".toList
  | .recompilations => " recompilations".toList
  | .changes => " times".toList

end Meaning

/-- The line of an entry. -/
def line (meaning : Meaning) (entry : RankEntry) : Text :=
  entry.path ++ meaning.lead ++ Text.ofNat entry.score ++ meaning.tail

/-- A ranking with one line for each entry. -/
def textForm (meaning : Meaning) (ranking : List RankEntry) : Text :=
  ranking.flatMap fun entry => line meaning entry ++ ['\n']

/-- A number of at least `width` hexadecimal digits. -/
def hexPadded (width n : Nat) : Text :=
  let digits := Text.hexDigits n
  List.replicate (width - digits.length) '0' ++ digits

/-- A character inside a JSON text. -/
def jsonChar (c : Char) : Text :=
  if c = '"' then ['\\', '"']
  else if c = '\\' then ['\\', '\\']
  else if c = '\n' then ['\\', 'n']
  else if c = '\r' then ['\\', 'r']
  else if c = '\t' then ['\\', 't']
  else if c = '\x08' then ['\\', 'b']
  else if c = '\x0c' then ['\\', 'f']
  else if c.toNat < 0x20 then ['\\', 'u'] ++ hexPadded 4 c.toNat
  else [c]

/-- A text as JSON. -/
def jsonText (s : Text) : Text := '"' :: s.flatMap jsonChar ++ ['"']

/-- An entry as a JSON map over several lines. -/
def jsonEntry (entry : RankEntry) : Text :=
  "  \x7b\n    \"path\": ".toList ++ jsonText entry.path ++ ",\n    \"score\": ".toList ++
    Text.ofNat entry.score ++ "\n  \x7d".toList

/-- A ranking as a JSON list over several lines. -/
def jsonForm (ranking : List RankEntry) : Text :=
  if ranking.isEmpty then "[]\n".toList
  else "[\n".toList ++ Text.joinWith ",\n".toList (ranking.map jsonEntry) ++ "\n]\n".toList

/-- A ranking as it is printed. -/
def print (format : Format) (meaning : Meaning) (ranking : List RankEntry) : Text :=
  match format with
  | .text => textForm meaning ranking
  | .json => jsonForm ranking

/-- A character inside a log line; those that could steer a terminal are spelled
out. -/
def logChar (c : Char) : Text :=
  let n := c.toNat
  if n = 0x1B then "\\x1b".toList
  else if n = 0x07 then "\\x07".toList
  else if n = 0x08 then "\\x08".toList
  else if n = 0x0C then "\\x0c".toList
  else if n = 0x7F then "\\x7f".toList
  else if 0x80 ≤ n && n ≤ 0x9F then Text.escapeCode c
  else [c]

/-- A log line with its level. -/
def logText (l : LogLine) : Text := l.level.name ++ ' ' :: l.message.flatMap logChar ++ ['\n']

/-- A text whose lines behind the first are indented. -/
def indented (indent : Text) (s : Text) : Text :=
  s.flatMap fun c => if c = '\n' then '\n' :: indent else [c]

/-- One of several causes, with its number. -/
def numberedCause (number : Nat) (cause : Text) : Text :=
  let digits := Text.ofNat number
  ['\n'] ++ List.replicate (5 - digits.length) ' ' ++ digits ++ ": ".toList ++
    indented (List.replicate 7 ' ') cause

/-- The causes of an error below it. -/
def causesText : List Text → Text
  | [] => []
  | [cause] => "\n\nCaused by:\n    ".toList ++ indented (List.replicate 4 ' ') cause
  | causes =>
    "\n\nCaused by:".toList ++ (causes.zipIdx.flatMap fun entry => numberedCause entry.2 entry.1)

/-- A fatal error as it is printed. -/
def fatal (e : Error) : Text := "Error: ".toList ++ e.message ++ causesText e.causes ++ ['\n']

end Report

end LoudHeaders
