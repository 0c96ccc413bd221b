import Mathlib.Data.Bool.AllAny
import LoudHeaders.Proofs.CommandWords.Quoting
import LoudHeaders.Proofs.Text.Pieces

/-
  Command lines split at blanks.

  A command that cannot be read as a command line is split at its blanks, so there are two
  ways to its words. Where both apply they agree: a text without quotes, backslashes and
  comments, in which only separators are blank, is a command line, and its words are what
  stands between the blanks (`line_words`). Whichever way is taken, there are words, and
  the flags are behind them (`dependencyCommand_words`).
-/

namespace LoudHeaders

namespace CommandWords

/-- There is nothing in the text that a shell reads in its own way: no quote and no
backslash, no blank that is not a space, a tab or a line feed, and no word that is a
comment. -/
structure IsPlain (s : Text) : Prop where
  unquoted : ∀ c ∈ s, c ≠ '\\' ∧ c ≠ '\x27' ∧ c ≠ '"'
  blanks : ∀ c ∈ s, Text.isBlank c = true → c ∈ [' ', '\t', '\n']
  no_comment : ∀ w ∈ Text.words s, w.head? ≠ some '#'

theorem isBlank_of_isSeparator {c : Char} (hc : isSeparator c = true) :
    Text.isBlank c = true := by
  have hmem := isSeparator_iff.mp hc
  simp only [List.mem_cons, List.not_mem_nil, or_false] at hmem
  rcases hmem with rfl | rfl | rfl <;> decide

/-- Bare characters stand for themselves. -/
theorem spells_of_bare {s : Text} (h : ∀ c ∈ s, isBare c = true) : Spells s s := by
  induction s with
  | nil => exact .nil
  | cons c rest ih =>
    obtain ⟨hc, hrest⟩ := List.forall_mem_cons.mp h
    exact .bare hc (ih hrest)

namespace IsPlain

variable {s : Text}

theorem isBlank_eq (h : IsPlain s) {c : Char} (hc : c ∈ s) :
    Text.isBlank c = isSeparator c := by
  rw [Bool.eq_iff_iff]
  exact ⟨fun hblank => isSeparator_iff.mpr (h.blanks c hc hblank), isBlank_of_isSeparator⟩

theorem isBare_of_mem (h : IsPlain s) {c : Char} (hc : c ∈ s) (hsep : isSeparator c = false) :
    isBare c = true := isBare_iff.mpr ⟨hsep, h.unquoted c hc⟩

/-- What is behind a part of a plain text is plain. -/
theorem of_append (front : Text) {rest : Text} (h : IsPlain (front ++ rest))
    (hwords : ∀ w ∈ Text.words rest, w ∈ Text.words (front ++ rest)) : IsPlain rest where
  unquoted c hc := h.unquoted c (List.mem_append_right front hc)
  blanks c hc := h.blanks c (List.mem_append_right front hc)
  no_comment w hw := h.no_comment w (hwords w hw)

end IsPlain

/-- The word in front of a separator, and those behind it. -/
theorem words_append_endsWord {front rest : Text} (hne : front ≠ [])
    (hblank : ∀ c ∈ front, Text.isBlank c = false) (hend : EndsWord rest) :
    Text.words (front ++ rest) = front :: Text.words rest := by
  have hsplit := Text.runs_append front fun c hc => isBlank_of_isSeparator (hend c hc)
  rw [Text.runs_of_none hne hblank] at hsplit
  exact hsplit

/-- The words of a plain text are those of a command line. -/
theorem line_words {s : Text} (h : IsPlain s) : Line s (Text.words s) := by
  match s with
  | [] => exact .nil
  | c :: rest =>
    cases hsep : isSeparator c with
    | true =>
      have hwords : Text.words (c :: rest) = Text.words rest :=
        Text.runs_cons_sep (isBlank_of_isSeparator hsep) rest
      have hrest : IsPlain rest := IsPlain.of_append [c] h fun w hw => by
        rwa [List.singleton_append, hwords]
      rw [hwords]
      exact .separator hsep (line_words hrest)
    | false =>
      -- a word starts here, and reaches up to the first separator
      obtain ⟨front, back, hs, hfront, hend⟩ := Text.exists_front isSeparator (c :: rest)
      have hne : front ≠ [] := by
        rintro rfl
        have hhead : isSeparator c = true := hend c (by rw [← List.nil_append back, ← hs]; rfl)
        rw [hsep] at hhead
        cases hhead
      have hlt : back.length < (c :: rest).length := by
        have := List.length_pos_iff.mpr hne
        rw [hs, List.length_append]
        omega
      rw [hs] at h ⊢
      have hmem {d : Char} (hd : d ∈ front) : d ∈ front ++ back := List.mem_append_left back hd
      have hwords : Text.words (front ++ back) = front :: Text.words back :=
        words_append_endsWord hne
          (fun d hd => by rw [h.isBlank_eq (hmem hd), hfront d hd]) hend
      have hbare : ∀ d ∈ front, isBare d = true := fun d hd =>
        h.isBare_of_mem (hmem hd) (hfront d hd)
      have hcomment : front.head? ≠ some '#' :=
        h.no_comment front (by rw [hwords]; exact List.mem_cons_self)
      have hback : IsPlain back := h.of_append front fun w hw => by
        rw [hwords]
        exact List.mem_cons_of_mem front hw
      rw [hwords]
      exact .word (spells_of_bare hbare) ⟨hne, hcomment⟩ hend (line_words hback)
termination_by s.length
decreasing_by
  · exact hlt
  · exact Nat.lt_succ_self _

/-- **Both ways to the words of a command agree, and one of them is always open.** A plain
text is read as what stands between its blanks. A text is not read at all exactly if its
last word is not complete, and is then split at its blanks. Either way the arguments are
words and the three flags. -/
theorem dependencyCommand_words :
    (∀ s, IsPlain s → shellWords? s = some (Text.words s)) ∧
    (∀ s, shellWords? s = none ↔ Open s) ∧
    (∀ s, shellWords? s = none →
      dependencyCommand s = Text.words s ++ ["-MM".toList, "-MF".toList, "-".toList]) ∧
    ∀ s, ∃ ws, (Line s ws ∨ Open s ∧ ws = Text.words s) ∧
      dependencyCommand s = ws ++ ["-MM".toList, "-MF".toList, "-".toList] := by
  refine ⟨fun s h => shellWords?_of_line (line_words h), fun s => shellWords?_eq_none_iff,
    fun s h => ?_, fun s => ?_⟩
  · rw [dependencyCommand, h]
    rfl
  · rcases line_or_open s with ⟨ws, hline⟩ | hopen
    · refine ⟨ws, .inl hline, ?_⟩
      rw [dependencyCommand, shellWords?_of_line hline]
      rfl
    · refine ⟨Text.words s, .inr ⟨hopen, rfl⟩, ?_⟩
      rw [dependencyCommand, shellWords?_of_open hopen]
      rfl

/-- A number sign inside a word, runs of separators and a character of several bytes; and a
quote that is left open in front of a wide blank. -/
theorem dependencyCommand_words_mixed :
    IsPlain "\tcc  a#b\n\u00e9 ".toList ∧
    shellWords? "\tcc  a#b\n\u00e9 ".toList =
      some ["cc".toList, "a#b".toList, "\u00e9".toList] ∧
    Open "cc 'a\u3000b".toList ∧
    dependencyCommand "cc 'a\u3000b".toList =
      ["cc".toList, "'a".toList, "b".toList, "-MM".toList, "-MF".toList, "-".toList] := by
  have hplain : IsPlain "\tcc  a#b\n\u00e9 ".toList :=
    ⟨List.all_iff_forall_prop.mp (by decide), List.all_iff_forall_prop.mp (by decide), by decide⟩
  obtain ⟨hagree, hopen, hblanks, _⟩ := dependencyCommand_words
  have hnone : shellWords? "cc 'a\u3000b".toList = none := by decide
  refine ⟨hplain, (hagree _ hplain).trans (by decide), (hopen _).mp hnone, ?_⟩
  exact (hblanks _ hnone).trans (by decide)

end CommandWords

end LoudHeaders
