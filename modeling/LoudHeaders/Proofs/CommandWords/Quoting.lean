import Mathlib.Data.Bool.AllAny
import LoudHeaders.Proofs.CommandWords.Line

/-
  Words in quotes.

  Every text can be written as one word of a command line, in single quotes or in double
  quotes (`Quotes.write`). In single quotes everything stands for itself but the quote,
  for which they are closed, the quote is written behind a backslash, and they are opened
  again. In double quotes a backslash goes in front of the four characters that would
  mean something there. Either way the word is spelled (`spells_write`), so what is made
  of such words and separators is a command line (`QuotedLine.isLine`), and its words
  reach the compiler as they are (`dependencyCommand_quoted`).
-/

namespace LoudHeaders

namespace CommandWords

/-- The two kinds of quotes. -/
inductive Quotes where
  | single
  | double
  deriving DecidableEq, Repr

/-- A character between single quotes. -/
def inSingle (c : Char) : Text := if c = '\x27' then ['\x27', '\\', '\x27', '\x27'] else [c]

/-- A character between double quotes. -/
def inDouble (c : Char) : Text := if c ∈ ['$', '\x60', '"', '\\'] then ['\\', c] else [c]

/-- A word in quotes. -/
def Quotes.write : Quotes → Text → Text
  | .single, word => '\x27' :: (word.flatMap inSingle ++ ['\x27'])
  | .double, word => '"' :: (word.flatMap inDouble ++ ['"'])

/-- A run of spaces, tabs and line feeds. -/
def IsGap (g : Text) : Prop := ∀ c ∈ g, c ∈ [' ', '\t', '\n']

instance (g : Text) : Decidable (IsGap g) :=
  decidable_of_iff (g.all fun c => c ∈ [' ', '\t', '\n']) List.all_iff_forall_prop

/-- A word, the quotes it is written in and the gap in front of it. -/
structure QuotedWord where
  gap : Text
  quotes : Quotes
  word : Text
  deriving DecidableEq, Repr

/-- Words in quotes, each behind a gap, and a gap at the end. The gap between two words
is not empty. -/
structure QuotedLine where
  items : List QuotedWord
  last : Text
  isGap : ∀ item ∈ items, IsGap item.gap
  isGap_last : IsGap last
  apart : ∀ item ∈ items.tail, item.gap ≠ []

/-- Words in quotes one after the other, with their gaps, and what stands at the end. -/
def writeAll (last : Text) : List QuotedWord → Text
  | [] => last
  | item :: rest => item.gap ++ (item.quotes.write item.word ++ writeAll last rest)

namespace QuotedLine

/-- The words without quotes and gaps. -/
def words (l : QuotedLine) : List Text := l.items.map QuotedWord.word

/-- The command line. -/
def text (l : QuotedLine) : Text := writeAll l.last l.items

end QuotedLine

/-! ## A word in quotes -/

theorem doubled_inDouble (word : Text) : Doubled (word.flatMap inDouble) word := by
  induction word with
  | nil => exact .nil
  | cons c rest ih =>
    rw [List.flatMap_cons, inDouble]
    split
    · rename_i hc
      have hspecial : isSpecialInDouble c = true := by simpa [isSpecialInDouble, or_assoc] using hc
      exact .special hspecial ih
    · rename_i hc
      simp only [List.mem_cons, List.not_mem_nil, or_false, not_or] at hc
      obtain ⟨_, _, hquote, hbackslash⟩ := hc
      exact .plain hquote hbackslash ih

/-- What has been written since the quotes were opened belongs to the word as well. -/
theorem spells_inSingle (word : Text) {q : Text} (hq : '\x27' ∉ q) :
    Spells ('\x27' :: (q ++ (word.flatMap inSingle ++ ['\x27']))) (q ++ word) := by
  induction word generalizing q with
  | nil => exact .single hq .nil
  | cons c rest ih =>
    rw [List.flatMap_cons, inSingle]
    split
    · rename_i hc
      subst hc
      exact .single hq (.escaped (by decide) (ih List.not_mem_nil))
    · rename_i hc
      have hmore : '\x27' ∉ q ++ [c] := by simpa [hq] using Ne.symm hc
      have := ih hmore
      rwa [List.append_assoc, List.append_assoc, ← List.append_assoc [c]] at this

theorem spells_write (quotes : Quotes) (word : Text) : Spells (quotes.write word) word := by
  cases quotes with
  | single => exact spells_inSingle word List.not_mem_nil
  | double =>
    have := Spells.double (doubled_inDouble word) .nil
    rwa [List.append_nil] at this

theorem starts_write (quotes : Quotes) (word : Text) : Starts (quotes.write word) := by
  cases quotes with
  | single => exact ⟨List.cons_ne_nil _ _, by simp [Quotes.write]⟩
  | double => exact ⟨List.cons_ne_nil _ _, by simp [Quotes.write]⟩

/-! ## A line of words in quotes -/

theorem isSeparator_iff {c : Char} : isSeparator c = true ↔ c ∈ [' ', '\t', '\n'] := by
  simp [isSeparator, or_assoc]

/-- A gap in front of a command line changes nothing in its words. -/
theorem Line.gap_append {g s : Text} {ws : List Text} (hg : IsGap g) (h : Line s ws) :
    Line (g ++ s) ws := by
  induction g with
  | nil => exact h
  | cons c rest ih =>
    obtain ⟨hc, hrest⟩ := List.forall_mem_cons.mp hg
    exact .separator (isSeparator_iff.mpr hc) (ih hrest)

theorem endsWord_of_isGap {g : Text} (hg : IsGap g) : EndsWord g := fun c hc =>
  isSeparator_iff.mpr (hg c (List.mem_of_mem_head? hc))

theorem line_writeAll {last : Text} {items : List QuotedWord}
    (hgaps : ∀ item ∈ items, IsGap item.gap) (hlast : IsGap last)
    (hapart : ∀ item ∈ items.tail, item.gap ≠ []) :
    Line (writeAll last items) (items.map QuotedWord.word) := by
  induction items with
  | nil =>
    have := Line.nil.gap_append hlast
    rwa [List.append_nil] at this
  | cons item rest ih =>
    obtain ⟨hgap, hrest⟩ := List.forall_mem_cons.mp hgaps
    -- the word ends at the gap of the next one, or at the last gap
    have hend : EndsWord (writeAll last rest) := by
      cases rest with
      | nil => exact endsWord_of_isGap hlast
      | cons next more =>
        have hnext := endsWord_of_isGap (hrest next List.mem_cons_self)
        obtain ⟨c, gap, hc⟩ := List.exists_cons_of_ne_nil (hapart next List.mem_cons_self)
        intro d hd
        rw [writeAll, hc] at hd
        exact hnext d (by rw [hc]; exact hd)
    have hbehind := ih hrest fun next hnext => hapart next (List.mem_of_mem_tail hnext)
    exact Line.gap_append hgap
      (.word (spells_write item.quotes item.word) (starts_write _ _) hend hbehind)

theorem QuotedLine.isLine (l : QuotedLine) : Line l.text l.words :=
  line_writeAll l.isGap l.isGap_last l.apart

/-- **Words in quotes reach the compiler as they are.** Whatever characters the words
hold, whichever quotes each of them is written in and whatever gaps are between them, the
arguments are these words and the three flags. -/
theorem dependencyCommand_quoted (l : QuotedLine) :
    dependencyCommand l.text = l.words ++ ["-MM".toList, "-MF".toList, "-".toList] := by
  rw [dependencyCommand, shellWords?_of_line l.isLine]
  rfl

/-- A word with a quote in it, an empty one, and one that would be a comment and holds a
dollar sign, which stands on a line of its own. -/
def QuotedLine.mixed : QuotedLine where
  items := [⟨[], .single, "it's".toList⟩, ⟨['\t'], .double, []⟩,
    ⟨[' ', '\n'], .double, "# $".toList⟩]
  last := [' ']
  isGap := by decide
  isGap_last := by decide
  apart := by decide

theorem dependencyCommand_quoted_mixed :
    QuotedLine.mixed.text = "'it'\\''s'\t\"\" \n\"# \\$\" ".toList ∧
    dependencyCommand QuotedLine.mixed.text =
      ["it's".toList, [], "# $".toList, "-MM".toList, "-MF".toList, "-".toList] :=
  ⟨by decide, dependencyCommand_quoted QuotedLine.mixed⟩

end CommandWords

end LoudHeaders
