import LoudHeaders.CommandWords

/-
  How command lines are written.

  A word is spelled in parts, each of which stands for some characters of it: characters
  that stand for themselves, characters behind a backslash, continued lines, which stand
  for nothing, and quotations (`Spells`). A command line is made of words, of separators,
  of which there is one behind each word that is not the last, and of comments (`Line`).
  A text that is no command line starts like one and ends within a word, with a quotation
  that is not closed or with a backslash (`Open`).

  Spelled words are read as what they stand for (`split_spells`). So
    1. a command line is read as its words (`shellWords?_of_line`);
    2. an open text is not read at all (`shellWords?_of_open`);
    3. there is no other text (`line_or_open`).

  This makes the reader exact: it gives words exactly if these are the words of the
  command line (`shellWords?_eq_some_iff`).
-/

namespace LoudHeaders

namespace CommandWords

/-- A character that stands for itself inside a word. -/
def isBare (c : Char) : Bool := !isSeparator c && c != '\\' && c != '\x27' && c != '"'

/-- A text between double quotes, and what it stands for. -/
inductive Doubled : Text → Text → Prop
  | nil : Doubled [] []
  | plain {c : Char} {q k : Text} (hquote : c ≠ '"') (hbackslash : c ≠ '\\') (h : Doubled q k) :
      Doubled (c :: q) (c :: k)
  | special {c : Char} {q k : Text} (hc : isSpecialInDouble c = true) (h : Doubled q k) :
      Doubled ('\\' :: c :: q) (c :: k)
  | kept {c : Char} {q k : Text} (hc : isSpecialInDouble c = false) (hline : c ≠ '\n')
      (h : Doubled q k) : Doubled ('\\' :: c :: q) ('\\' :: c :: k)
  | continued {q k : Text} (h : Doubled q k) : Doubled ('\\' :: '\n' :: q) k

/-- A text inside a word, and what it stands for. -/
inductive Spells : Text → Text → Prop
  | nil : Spells [] []
  | bare {c : Char} {s m : Text} (hc : isBare c = true) (h : Spells s m) :
      Spells (c :: s) (c :: m)
  | escaped {c : Char} {s m : Text} (hline : c ≠ '\n') (h : Spells s m) :
      Spells ('\\' :: c :: s) (c :: m)
  | continued {s m : Text} (h : Spells s m) : Spells ('\\' :: '\n' :: s) m
  | single {q s m : Text} (hq : '\x27' ∉ q) (h : Spells s m) :
      Spells ('\x27' :: (q ++ '\x27' :: s)) (q ++ m)
  | double {q k s m : Text} (hq : Doubled q k) (h : Spells s m) :
      Spells ('"' :: (q ++ '"' :: s)) (k ++ m)

/-- The text is not empty, and a word can start with it: it is no comment. -/
structure Starts (s : Text) : Prop where
  ne_nil : s ≠ []
  no_comment : s.head? ≠ some '#'

/-- A word in front of the text ends there. -/
def EndsWord (rest : Text) : Prop := ∀ c ∈ rest.head?, isSeparator c = true

/-- A command line and its words. -/
inductive Line : Text → List Text → Prop
  | nil : Line [] []
  | separator {c : Char} {s : Text} {ws : List Text} (hc : isSeparator c = true)
      (h : Line s ws) : Line (c :: s) ws
  | comment {body s : Text} {ws : List Text} (hbody : '\n' ∉ body) (h : Line s ws) :
      Line ('#' :: (body ++ '\n' :: s)) ws
  | lastComment {body : Text} (hbody : '\n' ∉ body) : Line ('#' :: body) []
  | word {s m rest : Text} {ws : List Text} (hs : Spells s m) (hstart : Starts s)
      (hend : EndsWord rest) (h : Line rest ws) : Line (s ++ rest) (m :: ws)

/-- The beginning of something that is not complete: a quotation or a character behind a
backslash. -/
inductive Unclosed : Text → Prop
  | backslash : Unclosed ['\\']
  | single {q : Text} (hq : '\x27' ∉ q) : Unclosed ('\x27' :: q)
  | double {q k : Text} (hq : Doubled q k) : Unclosed ('"' :: q)
  | doubleBackslash {q k : Text} (hq : Doubled q k) : Unclosed ('"' :: (q ++ ['\\']))

/-- A text that starts like a command line, but whose last word is not complete. -/
inductive Open : Text → Prop
  | separator {c : Char} {s : Text} (hc : isSeparator c = true) (h : Open s) : Open (c :: s)
  | comment {body s : Text} (hbody : '\n' ∉ body) (h : Open s) :
      Open ('#' :: (body ++ '\n' :: s))
  | word {s m rest : Text} (hs : Spells s m) (hstart : Starts s) (hend : EndsWord rest)
      (h : Open rest) : Open (s ++ rest)
  | last {s m t : Text} (hs : Spells s m) (hstart : s = [] ∨ Starts s) (ht : Unclosed t) :
      Open (s ++ t)

/-! ## Reading a character -/

section Step

variable {c : Char} (s : Text)

theorem isBare_iff :
    isBare c = true ↔ isSeparator c = false ∧ c ≠ '\\' ∧ c ≠ '\x27' ∧ c ≠ '"' := by
  simp only [isBare, Bool.and_eq_true, Bool.not_eq_true', bne_iff_ne, and_assoc]

theorem split_between_separator (hc : isSeparator c = true) :
    split .between (c :: s) = split .between s := if_pos hc

/-- A word that starts with a bare character starts there. -/
theorem split_between_bare (hc : isBare c = true) (hcomment : c ≠ '#') :
    split .between (c :: s) = split .word (c :: s) := by
  have hsep : ¬isSeparator c = true := by simp [(isBare_iff.mp hc).1]
  show (if isSeparator c = true then _ else if c = '#' then _ else _) =
    if isSeparator c = true then _ else _
  rw [if_neg hsep, if_neg hsep, if_neg hcomment]

theorem split_comment_plain (hc : c ≠ '\n') :
    split .comment (c :: s) = split .comment s := if_neg hc

theorem split_word_separator (hc : isSeparator c = true) :
    split .word (c :: s) = (split .between s).map ([] :: ·) := if_pos hc

theorem split_word_bare (hc : isBare c = true) :
    split .word (c :: s) = (split .word s).map (extend c) := by
  obtain ⟨hsep, hbackslash, hsingle, hdouble⟩ := isBare_iff.mp hc
  have hsep : ¬isSeparator c = true := by simp [hsep]
  show (if isSeparator c = true then _ else if c = '\\' then _ else if c = '\x27' then _
    else if c = '"' then _ else _) = _
  rw [if_neg hsep, if_neg hbackslash, if_neg hsingle, if_neg hdouble]

theorem split_word_escaped (hline : c ≠ '\n') :
    split .word ('\\' :: c :: s) = (split .word s).map (extend c) := if_neg hline

theorem split_single_plain (hc : c ≠ '\x27') :
    split .single (c :: s) = (split .single s).map (extend c) := if_neg hc

theorem split_double_plain (hquote : c ≠ '"') (hbackslash : c ≠ '\\') :
    split .double (c :: s) = (split .double s).map (extend c) :=
  (if_neg hquote).trans (if_neg hbackslash)

theorem split_double_special (hc : isSpecialInDouble c = true) :
    split .double ('\\' :: c :: s) = (split .double s).map (extend c) := by
  have hline : c ≠ '\n' := by
    rintro rfl
    exact absurd hc (by decide)
  exact (if_neg hline).trans (if_pos hc)

theorem split_double_kept (hc : isSpecialInDouble c = false) (hline : c ≠ '\n') :
    split .double ('\\' :: c :: s) =
      (split .double s).map fun words => extend '\\' (extend c words) :=
  (if_neg hline).trans (if_neg (by simp [hc]))

end Step

/-! ## Reading a word -/

/-- Adds characters to the word that the rest begins with. -/
def extendAll (m : Text) (words : List Text) : List Text := m.foldr extend words

theorem extendAll_append (m n : Text) :
    extendAll (m ++ n) = extendAll m ∘ extendAll n := by
  funext words
  exact List.foldr_append

/-- In front of the end of a word, the characters are the word. -/
theorem extendAll_end (m : Text) (words : List Text) :
    extendAll m ([] :: words) = m :: words := by
  induction m with
  | nil => rfl
  | cons c rest ih =>
    show extend c (extendAll rest ([] :: words)) = _
    rw [ih]
    rfl

theorem split_doubled {q k : Text} (h : Doubled q k) (rest : Text) :
    split .double (q ++ rest) = (split .double rest).map (extendAll k) := by
  induction h with
  | nil => exact congrFun Option.map_id.symm (split .double rest)
  | plain hquote hbackslash _ ih =>
    rw [List.cons_append, split_double_plain _ hquote hbackslash, ih, Option.map_map]
    rfl
  | special hc _ ih =>
    rw [List.cons_append, List.cons_append, split_double_special _ hc, ih, Option.map_map]
    rfl
  | kept hc hline _ ih =>
    rw [List.cons_append, List.cons_append, split_double_kept _ hc hline, ih, Option.map_map]
    rfl
  | continued _ ih => exact ih

theorem split_single {q : Text} (hq : '\x27' ∉ q) (rest : Text) :
    split .single (q ++ '\x27' :: rest) = (split .word rest).map (extendAll q) := by
  induction q with
  | nil => exact congrFun Option.map_id.symm (split .word rest)
  | cons c q ih =>
    rw [List.mem_cons, not_or] at hq
    rw [List.cons_append, split_single_plain _ (Ne.symm hq.1), ih hq.2, Option.map_map]
    rfl

/-- A spelled part of a word is read as what it stands for. -/
theorem split_spells {s m : Text} (h : Spells s m) (rest : Text) :
    split .word (s ++ rest) = (split .word rest).map (extendAll m) := by
  induction h with
  | nil => exact congrFun Option.map_id.symm (split .word rest)
  | bare hc _ ih =>
    rw [List.cons_append, split_word_bare _ hc, ih, Option.map_map]
    rfl
  | escaped hline _ ih =>
    rw [List.cons_append, List.cons_append, split_word_escaped _ hline, ih, Option.map_map]
    rfl
  | continued _ ih => exact ih
  | @single q s m hq _ ih =>
    show split .single ((q ++ '\x27' :: s) ++ rest) = _
    rw [List.append_assoc, List.cons_append, split_single hq, ih, Option.map_map,
      extendAll_append]
  | @double q k s m hq _ ih =>
    show split .double ((q ++ '"' :: s) ++ rest) = _
    rw [List.append_assoc, List.cons_append, split_doubled hq]
    show (split .word (s ++ rest)).map (extendAll k) = _
    rw [ih, Option.map_map, extendAll_append]

/-- Where a word can start, it is read as one. -/
theorem split_between {s m : Text} (hs : Spells s m) (hstart : Starts s) (rest : Text) :
    split .between (s ++ rest) = split .word (s ++ rest) := by
  cases hs with
  | nil => exact absurd rfl hstart.ne_nil
  | bare hc _ => exact split_between_bare _ hc fun h => hstart.no_comment (congrArg some h)
  | escaped _ _ => rfl
  | continued _ => rfl
  | single _ _ => rfl
  | double _ _ => rfl

theorem split_end {rest : Text} (h : EndsWord rest) :
    split .word rest = (split .between rest).map ([] :: ·) := by
  cases rest with
  | nil => rfl
  | cons c rest =>
    have hsep : isSeparator c = true := h c rfl
    rw [split_word_separator _ hsep, split_between_separator _ hsep]

/-- A word and what follows it. -/
theorem split_word {s m rest : Text} (hs : Spells s m) (hstart : Starts s)
    (hend : EndsWord rest) :
    split .between (s ++ rest) = (split .between rest).map (m :: ·) := by
  rw [split_between hs hstart, split_spells hs, split_end hend, Option.map_map]
  congr 1
  funext words
  exact extendAll_end m words

theorem split_comment {body : Text} (hbody : '\n' ∉ body) (s : Text) :
    split .between ('#' :: (body ++ '\n' :: s)) = split .between s := by
  have hskip : split .comment (body ++ '\n' :: s) = split .between s := by
    induction body with
    | nil => rfl
    | cons c body ih =>
      rw [List.mem_cons, not_or] at hbody
      rw [List.cons_append, split_comment_plain _ (Ne.symm hbody.1), ih hbody.2]
  exact hskip

theorem split_lastComment {body : Text} (hbody : '\n' ∉ body) :
    split .between ('#' :: body) = some [] := by
  have hskip : split .comment body = some [] := by
    induction body with
    | nil => rfl
    | cons c body ih =>
      rw [List.mem_cons, not_or] at hbody
      rw [split_comment_plain _ (Ne.symm hbody.1), ih hbody.2]
  exact hskip

/-- What is not complete is not read, whether a word starts with it or not. -/
theorem split_unclosed {t : Text} (h : Unclosed t) :
    split .word t = none ∧ split .between t = none := by
  cases h with
  | backslash => exact ⟨rfl, rfl⟩
  | @single q hq =>
    have hnone : split .single q = none := by
      induction q with
      | nil => rfl
      | cons c q ih =>
        rw [List.mem_cons, not_or] at hq
        rw [split_single_plain _ (Ne.symm hq.1), ih hq.2]
        rfl
    exact ⟨hnone, hnone⟩
  | @double q k hq =>
    have hnone : split .double q = none := by
      rw [← List.append_nil q, split_doubled hq]
      rfl
    exact ⟨hnone, hnone⟩
  | @doubleBackslash q k hq =>
    have hnone : split .double (q ++ ['\\']) = none := by
      rw [split_doubled hq]
      rfl
    exact ⟨hnone, hnone⟩

/-! ## Reading a command line -/

/-- A command line is read as its words. -/
theorem shellWords?_of_line {s : Text} {ws : List Text} (h : Line s ws) :
    shellWords? s = some ws := by
  unfold shellWords?
  induction h with
  | nil => rfl
  | separator hc _ ih => rw [split_between_separator _ hc, ih]
  | comment hbody _ ih => rw [split_comment hbody, ih]
  | lastComment hbody => exact split_lastComment hbody
  | word hs hstart hend _ ih =>
    rw [split_word hs hstart hend, ih]
    rfl

/-- A text whose last word is not complete is not read. -/
theorem shellWords?_of_open {s : Text} (h : Open s) : shellWords? s = none := by
  unfold shellWords?
  induction h with
  | separator hc _ ih => rw [split_between_separator _ hc, ih]
  | comment hbody _ ih => rw [split_comment hbody, ih]
  | word hs hstart hend _ ih =>
    rw [split_word hs hstart hend, ih]
    rfl
  | last hs hstart ht =>
    obtain ⟨hword, hbetween⟩ := split_unclosed ht
    rcases hstart with rfl | hstart
    · exact hbetween
    · rw [split_between hs hstart, split_spells hs, hword]
      rfl

/-! ## Every text is a command line or open -/

/-- A backslash and a character stand for something, whatever the character is. -/
theorem Doubled.pair {q k : Text} (h : Doubled q k) (c : Char) :
    ∃ k', Doubled ('\\' :: c :: q) k' := by
  by_cases hline : c = '\n'
  · rw [hline]
    exact ⟨k, .continued h⟩
  cases hc : isSpecialInDouble c with
  | true => exact ⟨c :: k, .special hc h⟩
  | false => exact ⟨'\\' :: c :: k, .kept hc hline h⟩

theorem Spells.pair {s m : Text} (h : Spells s m) (c : Char) :
    ∃ m', Spells ('\\' :: c :: s) m' := by
  by_cases hline : c = '\n'
  · rw [hline]
    exact ⟨m, .continued h⟩
  · exact ⟨c :: m, .escaped hline h⟩

/-- Behind a double quote, a text is closed by another one or not at all. -/
theorem closed_or_unclosed : ∀ s : Text,
    (∃ q k rest, s = q ++ '"' :: rest ∧ Doubled q k) ∨ Unclosed ('"' :: s)
  | [] => .inr (.double .nil)
  | c :: s => by
    by_cases hquote : c = '"'
    · rw [hquote]
      exact .inl ⟨[], [], s, rfl, .nil⟩
    by_cases hbackslash : c = '\\'
    · rw [hbackslash]
      cases s with
      | nil => exact .inr (.doubleBackslash .nil)
      | cons d s =>
        rcases closed_or_unclosed s with ⟨q, k, rest, rfl, hq⟩ | hunclosed
        · obtain ⟨k', hk⟩ := hq.pair d
          exact .inl ⟨_, k', rest, rfl, hk⟩
        · right
          cases hunclosed with
          | double hq =>
            obtain ⟨k', hk⟩ := hq.pair d
            exact .double hk
          | doubleBackslash hq =>
            obtain ⟨k', hk⟩ := hq.pair d
            exact .doubleBackslash hk
    · rcases closed_or_unclosed s with ⟨q, k, rest, rfl, hq⟩ | hunclosed
      · exact .inl ⟨_, _, rest, rfl, hq.plain hquote hbackslash⟩
      · right
        cases hunclosed with
        | double hq => exact .double (hq.plain hquote hbackslash)
        | doubleBackslash hq => exact .doubleBackslash (hq.plain hquote hbackslash)

/-- A text starts with a part of a word, behind which the word ends or is not complete. -/
theorem exists_spells (s : Text) :
    ∃ front m rest, s = front ++ rest ∧ Spells front m ∧ (EndsWord rest ∨ Unclosed rest) := by
  match s with
  | [] => exact ⟨[], [], [], rfl, .nil, .inl (by simp [EndsWord])⟩
  | c :: s =>
    cases hsep : isSeparator c with
    | true => exact ⟨[], [], c :: s, rfl, .nil, .inl (by simp [EndsWord, hsep])⟩
    | false =>
    by_cases hbackslash : c = '\\'
    · rw [hbackslash]
      match s with
      | [] => exact ⟨[], [], _, rfl, .nil, .inr .backslash⟩
      | d :: s =>
        obtain ⟨front, m, rest, rfl, hfront, hrest⟩ := exists_spells s
        obtain ⟨m', hm⟩ := hfront.pair d
        exact ⟨_, m', rest, rfl, hm, hrest⟩
    by_cases hsingle : c = '\x27'
    · rw [hsingle]
      by_cases hmem : '\x27' ∈ s
      · obtain ⟨q, s, rfl, hq⟩ := List.eq_append_cons_of_mem hmem
        obtain ⟨front, m, rest, rfl, hfront, hrest⟩ := exists_spells s
        exact ⟨_, _, rest, by simp, .single hq hfront, hrest⟩
      · exact ⟨[], [], _, rfl, .nil, .inr (.single hmem)⟩
    by_cases hdouble : c = '"'
    · rw [hdouble]
      rcases closed_or_unclosed s with ⟨q, k, s, rfl, hq⟩ | hunclosed
      · obtain ⟨front, m, rest, rfl, hfront, hrest⟩ := exists_spells s
        exact ⟨_, _, rest, by simp, .double hq hfront, hrest⟩
      · exact ⟨[], [], _, rfl, .nil, .inr hunclosed⟩
    · obtain ⟨front, m, rest, rfl, hfront, hrest⟩ := exists_spells s
      have hbare : isBare c = true := isBare_iff.mpr ⟨hsep, hbackslash, hsingle, hdouble⟩
      exact ⟨_, _, rest, rfl, .bare hbare hfront, hrest⟩
termination_by s.length

theorem line_or_open (s : Text) : (∃ ws, Line s ws) ∨ Open s := by
  match s with
  | [] => exact .inl ⟨[], .nil⟩
  | c :: s =>
    cases hsep : isSeparator c with
    | true =>
      exact (line_or_open s).imp (fun ⟨ws, h⟩ => ⟨ws, .separator hsep h⟩) (.separator hsep)
    | false =>
    by_cases hcomment : c = '#'
    · rw [hcomment]
      by_cases hmem : '\n' ∈ s
      · obtain ⟨body, s, rfl, hbody⟩ := List.eq_append_cons_of_mem hmem
        exact (line_or_open s).imp (fun ⟨ws, h⟩ => ⟨ws, .comment hbody h⟩) (.comment hbody)
      · exact .inl ⟨[], .lastComment hmem⟩
    -- neither a separator nor a comment, so the part of a word in front is one or is empty
    obtain ⟨front, m, rest, hs, hfront, hrest⟩ := exists_spells (c :: s)
    cases front with
    | nil =>
      rw [hs]
      rcases hrest with hend | hunclosed
      · have hseparator : isSeparator c = true := hend c (by rw [← List.nil_append rest, ← hs]; rfl)
        rw [hsep] at hseparator
        cases hseparator
      · exact .inr (.last hfront (.inl rfl) hunclosed)
    | cons d front =>
      obtain ⟨rfl, rfl⟩ := List.cons.inj hs
      have hstart : Starts (c :: front) :=
        ⟨List.cons_ne_nil _ _, fun h => hcomment (Option.some.inj h)⟩
      rcases hrest with hend | hunclosed
      · have hlt : rest.length < (c :: (front ++ rest)).length := by
          rw [List.length_cons, List.length_append]
          omega
        exact (line_or_open rest).imp (fun ⟨ws, h⟩ => ⟨m :: ws, .word hfront hstart hend h⟩)
          (.word hfront hstart hend)
      · exact .inr (.last hfront (.inr hstart) hunclosed)
termination_by s.length

/-- **Reading is exact.** The words read are those of the command line. -/
theorem shellWords?_eq_some_iff {s : Text} {ws : List Text} :
    shellWords? s = some ws ↔ Line s ws := by
  refine ⟨fun h => ?_, shellWords?_of_line⟩
  rcases line_or_open s with ⟨ws', hline⟩ | hopen
  · rw [shellWords?_of_line hline] at h
    obtain rfl := Option.some.inj h
    exact hline
  · rw [shellWords?_of_open hopen] at h
    cases h

/-- No words are read exactly where the last one is not complete. -/
theorem shellWords?_eq_none_iff {s : Text} : shellWords? s = none ↔ Open s := by
  refine ⟨fun h => ?_, shellWords?_of_open⟩
  rcases line_or_open s with ⟨ws, hline⟩ | hopen
  · rw [shellWords?_of_line hline] at h
    cases h
  · exact hopen

end CommandWords

end LoudHeaders
