import LoudHeaders.Proofs.Text.Pieces
import LoudHeaders.Text.Blank

/-
  Lines and the blanks around them.

  What a line says is what is left when it is trimmed. For that it does not matter
  whether lines end at a line feed alone or at a carriage return and a line feed,
  nor whether the last line is ended at all.

  Trimming takes away the blanks in front of a text and those behind it, and nothing
  in front of the last character that is no blank (`trim_append`).
-/

namespace LoudHeaders

namespace Text

/-- A blank at the end is trimmed away. -/
theorem trim_concat_blank {c : Char} (hc : isBlank c = true) (s : Text) :
    trim (s ++ [c]) = trim s := by
  unfold trim trimStart
  rw [List.dropWhile_append]
  split
  · rename_i h
    rw [List.isEmpty_iff.mp h]
    simp [hc]
  · simp [trimEnd, hc]

/-- What is left when a text is trimmed at its end is its front. -/
theorem trimEnd_prefix (s : Text) : trimEnd s <+: s := by
  rw [trimEnd, ← List.reverse_suffix, List.reverse_reverse]
  exact List.dropWhile_suffix isBlank

/-- Blanks at the end are trimmed away. -/
theorem trimEnd_append_blanks {after : Text} (h : ∀ c ∈ after, isBlank c = true) (s : Text) :
    trimEnd (s ++ after) = trimEnd s := by
  have hafter : ∀ c ∈ after.reverse, isBlank c = true := fun c hc => h c (List.mem_reverse.mp hc)
  rw [trimEnd, List.reverse_append, List.dropWhile_append_of_pos hafter, trimEnd]

/-- Nothing is trimmed away in front of the end of a text without blanks. -/
theorem trimEnd_append {core : Text} (hne : core ≠ []) (h : ∀ c ∈ core, isBlank c = false)
    (rest : Text) : trimEnd (core ++ rest) = core ++ trimEnd rest := by
  obtain ⟨front, last, rfl⟩ := List.eq_nil_or_concat core |>.resolve_left hne
  have hlast : isBlank last = false := h last (by simp)
  have hstay : (last :: front.reverse).dropWhile isBlank = last :: front.reverse := by simp [hlast]
  rw [trimEnd, trimEnd, List.reverse_append, List.dropWhile_append]
  split
  · rename_i hblank
    rw [List.isEmpty_iff.mp hblank]
    simp [hstay]
  · simp

theorem trim_append {before core : Text} (hbefore : ∀ c ∈ before, isBlank c = true)
    (hne : core ≠ []) (hcore : ∀ c ∈ core, isBlank c = false) (rest : Text) :
    trim (before ++ (core ++ rest)) = core ++ trimEnd rest := by
  obtain ⟨first, others, rfl⟩ := List.exists_cons_of_ne_nil hne
  have hfirst : isBlank first = false := hcore first List.mem_cons_self
  have hstart : trimStart (before ++ (first :: others ++ rest)) = first :: others ++ rest := by
    rw [trimStart, List.dropWhile_append_of_pos hbefore]
    simp [hfirst]
  rw [trim, hstart, trimEnd_append hne hcore]

theorem trim_dropReturn (line : Text) : trim (dropReturn line) = trim line := by
  unfold dropReturn
  split
  · rename_i h
    obtain ⟨front, rfl⟩ := List.getLast?_eq_some_iff.mp h
    rw [List.dropLast_concat, trim_concat_blank (by decide)]
  · rfl

theorem trim_comp_dropReturn : trim ∘ dropReturn = trim := by
  funext line
  exact trim_dropReturn line

/-- What the lines of a text say is what its pieces between line feeds say. -/
theorem nonblank_lines (s : Text) :
    ((lines s).map trim).filter (fun line => !line.isEmpty) =
      ((pieces (· == '\n') s).map trim).filter fun line => !line.isEmpty := by
  rcases List.eq_nil_or_concat (pieces (· == '\n') s) with h | ⟨front, last, h⟩
  · exact absurd h (pieces_ne_nil _ s)
  · unfold lines
    rw [h]
    cases last with
    | nil =>
      have hlast : trim [] = [] := rfl
      simp [trim_comp_dropReturn, hlast]
    | cons c rest => simp [trim_comp_dropReturn]

end Text

end LoudHeaders
