import LoudHeaders.Text.Blank

/-
  Summaries of commit messages.

  The summary of a message is its first paragraph on one line. A message ends at
  its first zero character, and line feeds in front of it do not count. A run of
  blanks with a line feed in it becomes one space, any other run stays as it is, and
  blanks at the end go.
-/

namespace LoudHeaders

namespace Git

namespace Message

/-- The blanks a message is broken at. -/
def isBreak (c : Char) : Bool := c == ' ' || (9 ≤ c.toNat && c.toNat ≤ 13)

/-- The first paragraph, which ends at a line feed that only blanks follow up to
the next line feed or the end. -/
def paragraph : Text → Text
  | [] => []
  | c :: rest =>
    if c = '\n' then
      match rest.dropWhile fun d => isBreak d && d != '\n' with
      | [] => []
      | '\n' :: _ => []
      | _ => c :: paragraph rest
    else c :: paragraph rest

/-- A paragraph on one line; `run` is the run of blanks just passed. -/
def oneLine (run : Text) : Text → Text
  | [] => []
  | c :: rest =>
    if isBreak c then oneLine (run ++ [c]) rest
    else
      let gap := if run.contains '\n' then [' '] else run
      gap ++ c :: oneLine [] rest

/-- The summary of a message. -/
def summary (message : Text) : Text :=
  oneLine [] (paragraph ((message.takeWhile (· != '\x00')).dropWhile (· == '\n')))

end Message

end Git

end LoudHeaders
