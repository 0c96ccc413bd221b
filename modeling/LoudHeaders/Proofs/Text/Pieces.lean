import LoudHeaders.Text.Basic

/-
  Pieces of a text between separators.

  Splitting is described by three facts: it distributes over a separator that
  stands between two texts, no piece holds a separator, and joining and splitting
  undo each other. Cutting at the first separator is described by `cut_append`.

  The pieces that are not empty are the runs of a text. Separators in front of a text
  and behind it change nothing in them (`runs_append`).
-/

namespace LoudHeaders

namespace Text

variable {sep : Char → Bool}

theorem pieces_cons_sep {c : Char} (hc : sep c = true) (s : Text) :
    pieces sep (c :: s) = [] :: pieces sep s := by
  rw [pieces, if_pos hc]

/-- A character that is no separator belongs to the first piece. -/
theorem pieces_cons_other {c : Char} (hc : sep c = false) (s : Text) :
    ∃ piece others, pieces sep s = piece :: others ∧
      pieces sep (c :: s) = (c :: piece) :: others := by
  cases hs : pieces sep s with
  | nil => exact absurd hs (pieces_ne_nil sep s)
  | cons piece others => exact ⟨piece, others, rfl, by simp [pieces, hc, hs]⟩

/-- A separator between two texts separates their pieces. -/
theorem pieces_append_sep {c : Char} (hc : sep c = true) (s t : Text) :
    pieces sep (s ++ c :: t) = pieces sep s ++ pieces sep t := by
  induction s with
  | nil => exact pieces_cons_sep hc t
  | cons d rest ih =>
    cases hd : sep d with
    | true => rw [List.cons_append, pieces_cons_sep hd, pieces_cons_sep hd, ih, List.cons_append]
    | false =>
      obtain ⟨piece, others, hrest, hcons⟩ := pieces_cons_other hd rest
      rw [hrest] at ih
      rw [hcons, List.cons_append, pieces, if_neg (by simp [hd]), ih]
      rfl

/-- A text without separators is one piece. -/
theorem pieces_of_none {s : Text} (h : ∀ c ∈ s, sep c = false) : pieces sep s = [s] := by
  induction s with
  | nil => rfl
  | cons c rest ih =>
    have hrest := ih fun d hd => h d (List.mem_cons_of_mem c hd)
    simp [pieces, h c List.mem_cons_self, hrest]

/-- A text without separators belongs to the first piece of what follows it. -/
theorem pieces_append_of_none {s t first : Text} {others : List Text}
    (h : ∀ c ∈ s, sep c = false) (ht : pieces sep t = first :: others) :
    pieces sep (s ++ t) = (s ++ first) :: others := by
  induction s with
  | nil => exact ht
  | cons c rest ih =>
    have hrest := ih fun d hd => h d (List.mem_cons_of_mem c hd)
    rw [List.cons_append, pieces, if_neg (by simp [h c List.mem_cons_self]), hrest]
    rfl

/-- The first piece starts as the text does, if it is not empty. -/
theorem mem_head?_of_pieces {s first : Text} {others : List Text} {c : Char}
    (h : pieces sep s = first :: others) (hc : c ∈ first.head?) : c ∈ s.head? := by
  cases s with
  | nil =>
    obtain ⟨rfl, rfl⟩ := List.cons.inj h
    cases hc
  | cons d rest =>
    cases hd : sep d with
    | true =>
      rw [pieces_cons_sep hd] at h
      obtain ⟨rfl, rfl⟩ := List.cons.inj h
      cases hc
    | false =>
      obtain ⟨piece, more, _, hcons⟩ := pieces_cons_other hd rest
      rw [hcons] at h
      obtain ⟨rfl, rfl⟩ := List.cons.inj h
      exact hc

/-- No piece holds a separator. -/
theorem not_sep_of_mem_pieces {s piece : Text} (h : piece ∈ pieces sep s) :
    ∀ c ∈ piece, sep c = false := by
  induction s generalizing piece with
  | nil =>
    rw [pieces, List.mem_singleton] at h
    subst h
    intro c hc
    cases hc
  | cons d rest ih =>
    cases hd : sep d with
    | true =>
      rw [pieces_cons_sep hd, List.mem_cons] at h
      rcases h with rfl | h
      · intro c hc
        cases hc
      · exact ih h
    | false =>
      obtain ⟨first, others, hrest, hcons⟩ := pieces_cons_other hd rest
      rw [hcons, List.mem_cons] at h
      rcases h with rfl | h
      · intro c hc
        rcases List.mem_cons.mp hc with rfl | hc
        · exact hd
        · exact ih (by rw [hrest]; exact List.mem_cons_self) c hc
      · exact ih (by rw [hrest]; exact List.mem_cons_of_mem first h)

/-- A character that is no separator stands in a piece. -/
theorem exists_piece_of_mem {c : Char} {s : Text} (hmem : c ∈ s) (hc : sep c = false) :
    ∃ piece ∈ pieces sep s, c ∈ piece := by
  induction s with
  | nil => cases hmem
  | cons d rest ih =>
    cases hd : sep d with
    | true =>
      have hrest : c ∈ rest := by
        rcases List.mem_cons.mp hmem with rfl | hrest
        · rw [hc] at hd
          cases hd
        · exact hrest
      obtain ⟨piece, hpiece, hmem⟩ := ih hrest
      rw [pieces_cons_sep hd]
      exact ⟨piece, List.mem_cons_of_mem _ hpiece, hmem⟩
    | false =>
      obtain ⟨first, others, hrest, hcons⟩ := pieces_cons_other hd rest
      rw [hcons]
      rcases List.mem_cons.mp hmem with rfl | hmem
      · exact ⟨_, List.mem_cons_self, List.mem_cons_self⟩
      · obtain ⟨piece, hpiece, hmem⟩ := ih hmem
        rw [hrest] at hpiece
        rcases List.mem_cons.mp hpiece with rfl | hpiece
        · exact ⟨_, List.mem_cons_self, List.mem_cons_of_mem d hmem⟩
        · exact ⟨piece, List.mem_cons_of_mem _ hpiece, hmem⟩

/-- Pieces without the separator come back when they are joined and split. -/
theorem pieces_joinWith {d : Char} {ps : List Text} (hne : ps ≠ []) (h : ∀ p ∈ ps, d ∉ p) :
    pieces (· == d) (joinWith [d] ps) = ps := by
  have one {p : Text} (hp : d ∉ p) : pieces (· == d) p = [p] := by
    apply pieces_of_none
    intro c hc
    rw [beq_eq_false_iff_ne]
    rintro rfl
    exact hp hc
  induction ps with
  | nil => exact absurd rfl hne
  | cons p rest ih =>
    have hp := one (h p List.mem_cons_self)
    cases rest with
    | nil => exact hp
    | cons q more =>
      have hrest := ih (by simp) fun r hr => h r (List.mem_cons_of_mem p hr)
      rw [joinWith_cons_cons, List.append_assoc, List.singleton_append,
        pieces_append_sep (by simp), hp, hrest]
      rfl

/-- The pieces of a text, joined, are the text. -/
theorem joinWith_pieces (d : Char) (s : Text) : joinWith [d] (pieces (· == d) s) = s := by
  induction s with
  | nil => rfl
  | cons c rest ih =>
    by_cases hc : c = d
    · subst hc
      obtain ⟨piece, others, hrest⟩ := List.exists_cons_of_ne_nil (pieces_ne_nil (· == c) rest)
      rw [pieces_cons_sep (by simp), hrest, joinWith_cons_cons, ← hrest, ih]
      rfl
    · have hother : (c == d) = false := by simpa using hc
      obtain ⟨piece, others, hrest, hcons⟩ := @pieces_cons_other (· == d) c hother rest
      rw [hrest] at ih
      rw [hcons]
      -- the character stands in front of the first piece, alone or not
      cases others with
      | nil => exact congrArg (c :: ·) ih
      | cons second more => exact congrArg (c :: ·) ih

/-- A text is cut where its front, which has no separator, ends. -/
theorem cut_append {d : Char} {front : Text} (h : d ∉ front) (rest : Text) :
    cut d (front ++ d :: rest) = some (front, rest) := by
  induction front with
  | nil => simp [cut]
  | cons c front ih =>
    rw [List.mem_cons, not_or] at h
    have hc : c ≠ d := Ne.symm h.1
    rw [List.cons_append, cut, if_neg hc, ih h.2]
    rfl

/-- What a text holds in front of its first separator, and the rest. -/
theorem exists_front (sep : Char → Bool) (s : Text) :
    ∃ front rest, s = front ++ rest ∧ (∀ c ∈ front, sep c = false) ∧
      ∀ c ∈ rest.head?, sep c = true := by
  induction s with
  | nil => exact ⟨[], [], rfl, by simp, by simp⟩
  | cons c s ih =>
    cases hc : sep c with
    | true => exact ⟨[], c :: s, rfl, by simp, by simp [hc]⟩
    | false =>
      obtain ⟨front, rest, rfl, hfront, hrest⟩ := ih
      exact ⟨c :: front, rest, rfl, List.forall_mem_cons.mpr ⟨hc, hfront⟩, hrest⟩

/-! ## Pieces that are not empty -/

/-- The longest stretches of a text without a separator. -/
def runs (sep : Char → Bool) (s : Text) : List Text :=
  (pieces sep s).filter fun piece => !piece.isEmpty

theorem runs_cons_sep {c : Char} (hc : sep c = true) (s : Text) :
    runs sep (c :: s) = runs sep s := by
  rw [runs, pieces_cons_sep hc]
  rfl

/-- No run reaches across a separator. -/
theorem runs_append (s : Text) {t : Text} (ht : ∀ c ∈ t.head?, sep c = true) :
    runs sep (s ++ t) = runs sep s ++ runs sep t := by
  cases t with
  | nil => simp [runs, pieces]
  | cons c rest =>
    have hc : sep c = true := ht c rfl
    calc runs sep (s ++ c :: rest)
        = runs sep s ++ runs sep rest := by
          rw [runs, pieces_append_sep hc, List.filter_append]
          rfl
      _ = runs sep s ++ runs sep (c :: rest) := by rw [runs_cons_sep hc]

/-- A text without separators is one run. -/
theorem runs_of_none {s : Text} (hne : s ≠ []) (h : ∀ c ∈ s, sep c = false) :
    runs sep s = [s] := by
  rw [runs, pieces_of_none h]
  simp [hne]

/-- Separators in front of a text are not part of its runs. -/
theorem runs_all_append {front : Text} (h : ∀ c ∈ front, sep c = true) (s : Text) :
    runs sep (front ++ s) = runs sep s := by
  induction front with
  | nil => rfl
  | cons c rest ih =>
    obtain ⟨hc, hrest⟩ := List.forall_mem_cons.mp h
    rw [List.cons_append, runs_cons_sep hc, ih hrest]

/-- A text of separators has no run. -/
theorem runs_of_all {s : Text} (h : ∀ c ∈ s, sep c = true) : runs sep s = [] := by
  have hrest := runs_all_append h []
  rwa [List.append_nil] at hrest

theorem of_mem_runs {s run : Text} (h : run ∈ runs sep s) :
    run ≠ [] ∧ ∀ c ∈ run, sep c = false := by
  obtain ⟨hpiece, hne⟩ := List.mem_filter.mp h
  exact ⟨by simpa using hne, not_sep_of_mem_pieces hpiece⟩

end Text

end LoudHeaders
