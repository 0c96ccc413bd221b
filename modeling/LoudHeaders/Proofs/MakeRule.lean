import LoudHeaders.MakeRule
import LoudHeaders.Proofs.Text.Pieces

/-
  Make rules, laid out and read back.

  A layout puts items one after the other, each behind a gap of blanks and backslashes,
  and ends with a gap. What is read from it are the stretches of its text that hold
  neither (`parse?_eq`), and these are the stretches of its items
  (`stretches_text`). Both rest on one equation: a gap separates the
  stretches in front of it from those behind it (`stretches_append`).

  So items that hold no blank and no backslash are read as they are, whatever the gaps
  (`parses_layouts`). Other items are not: a backslash separates wherever it stands, at
  the end of a line, in front of a blank or inside a name, so that a name that holds one
  is read as several, although the layout is that of a compiler (`breaks_names`).
-/

namespace LoudHeaders

namespace MakeRule

/-- What stands between dependencies: a blank or a backslash. -/
def isFiller (c : Char) : Bool := Text.isBlank c || c == '\\'

/-- A run of blanks and backslashes. -/
def IsGap (g : Text) : Prop := ∀ c ∈ g, isFiller c = true

/-- A text that holds no blank and no backslash, and is not empty. -/
structure IsWord (w : Text) : Prop where
  ne_nil : w ≠ []
  no_filler : ∀ c ∈ w, isFiller c = false

theorem isWord_iff {w : Text} : IsWord w ↔ w ≠ [] ∧ w.any isFiller = false := by
  simp only [List.any_eq_false, Bool.not_eq_true]
  constructor
  · rintro ⟨hne, hnone⟩
    exact ⟨hne, hnone⟩
  · rintro ⟨hne, hnone⟩
    exact ⟨hne, hnone⟩

-- both look at the characters of the text only, and not at all that there are
instance (g : Text) : Decidable (IsGap g) :=
  decidable_of_iff (g.all isFiller = true) List.all_eq_true

instance (w : Text) : Decidable (IsWord w) := decidable_of_iff _ isWord_iff.symm

/-- The longest stretches of a text that hold no blank and no backslash. -/
def stretches (s : Text) : List Text :=
  (Text.pieces isFiller s).filter fun piece => !piece.isEmpty

/-! ## Stretches of a text -/

theorem isWord_of_mem_stretches {s w : Text} (h : w ∈ stretches s) : IsWord w := by
  obtain ⟨hne, hnone⟩ := Text.of_mem_runs h
  exact ⟨hne, hnone⟩

theorem stretches_of_isWord {w : Text} (h : IsWord w) : stretches w = [w] :=
  Text.runs_of_none h.ne_nil h.no_filler

/-- A gap in front of a text holds no stretch. -/
theorem stretches_gap_append {g : Text} (hg : IsGap g) (s : Text) :
    stretches (g ++ s) = stretches s := Text.runs_all_append hg s

/-- No stretch reaches across the front of a gap. -/
theorem stretches_append (s : Text) {t : Text} (ht : ∀ c ∈ t.head?, isFiller c = true) :
    stretches (s ++ t) = stretches s ++ stretches t := Text.runs_append s ht

/-- Texts with the same gap between each two neighbours keep their stretches. -/
theorem stretches_joinWith {gap : Text} (hgap : IsGap gap) (hne : gap ≠ []) (texts : List Text) :
    stretches (Text.joinWith gap texts) = texts.flatMap stretches := by
  have hfront (t : Text) : ∀ c ∈ (gap ++ t).head?, isFiller c = true := by
    obtain ⟨c, rest, rfl⟩ := List.exists_cons_of_ne_nil hne
    intro d hd
    obtain rfl := Option.some.inj hd
    exact hgap c List.mem_cons_self
  induction texts with
  | nil => rfl
  | cons t rest ih =>
    cases rest with
    | nil => simp [Text.joinWith]
    | cons u more =>
      rw [Text.joinWith_cons_cons, List.append_assoc, stretches_append t (hfront _),
        stretches_gap_append hgap, ih]
      rfl

/-! ## What a rule is read as -/

theorem pieces_map_plain (s : Text) :
    Text.pieces Text.isBlank (s.map plain) = Text.pieces isFiller s := by
  have hplain (c : Char) : Text.isBlank (plain c) = isFiller c := by
    unfold plain isFiller
    split
    · rename_i hc
      rw [hc]
      rfl
    · rename_i hc
      simp [hc]
  induction s with
  | nil => rfl
  | cons c rest ih =>
    rw [List.map_cons, Text.pieces, Text.pieces, hplain, ih]
    cases hc : isFiller c with
    | true => rfl
    | false =>
      -- a character that is no filler is read as it is
      have hself : plain c = c := by
        unfold plain
        split
        · rename_i hbackslash
          rw [hbackslash] at hc
          exact absurd hc (by decide)
        · rfl
      rw [hself]

theorem words_map_plain (s : Text) : Text.words (s.map plain) = stretches s := by
  rw [Text.words, pieces_map_plain, stretches]

/-- A rule is read as its target without the blanks around it and the stretches behind
its first colon. -/
theorem parse?_eq {target : Text} (h : ':' ∉ target) (s : Text) :
    parse? (target ++ ':' :: s) = some ⟨Text.trim target, stretches s⟩ := by
  rw [parse?, Text.cut_append h, Option.map_some, words_map_plain]

theorem parse?_eq_none_iff {s : Text} : parse? s = none ↔ ':' ∉ s := by
  rw [parse?, Option.map_eq_none_iff, Text.cut_eq_none_iff]

theorem isWord_of_parse? {s : Text} {rule : MakeRule} (h : parse? s = some rule) :
    ∀ d ∈ rule.dependencies, IsWord d := by
  obtain ⟨halves, _, rfl⟩ := Option.map_eq_some_iff.mp h
  intro d hd
  rw [words_map_plain] at hd
  exact isWord_of_mem_stretches hd

/-! ## Layouts -/

/-- Items, each behind a gap, and a gap at the end. The gap between two items is not
empty. -/
structure Layout where
  items : List (Text × Text)
  last : Text
  isGap : ∀ item ∈ items, IsGap item.1
  isGap_last : IsGap last
  apart : ∀ item ∈ items.tail, item.1 ≠ []

/-- Gaps and items one after the other, each item in the form it is written in. -/
def spread (write : Text → Text) (last : Text) : List (Text × Text) → Text
  | [] => last
  | item :: rest => item.1 ++ write item.2 ++ spread write last rest

namespace Layout

/-- The items without the gaps. -/
def names (l : Layout) : List Text := l.items.map Prod.snd

/-- What is laid out. -/
def text (write : Text → Text) (l : Layout) : Text := spread write l.last l.items

end Layout

theorem stretches_spread (write : Text → Text) {last : Text} {items : List (Text × Text)}
    (hgaps : ∀ item ∈ items, IsGap item.1) (hlast : IsGap last)
    (hapart : ∀ item ∈ items.tail, item.1 ≠ []) :
    stretches (spread write last items) = items.flatMap fun item => stretches (write item.2) := by
  induction items with
  | nil =>
    have hgap := stretches_gap_append hlast []
    rw [List.append_nil] at hgap
    exact hgap
  | cons item rest ih =>
    obtain ⟨hgap, hrest⟩ := List.forall_mem_cons.mp hgaps
    -- what follows the item starts with a gap, or there is nothing
    have hfront : ∀ c ∈ (spread write last rest).head?, isFiller c = true := by
      intro c hc
      cases rest with
      | nil => exact hlast c (List.mem_of_mem_head? hc)
      | cons next more =>
        obtain ⟨d, gap, hd⟩ := List.exists_cons_of_ne_nil (hapart next List.mem_cons_self)
        rw [spread, hd] at hc
        obtain rfl := Option.some.inj hc
        apply hrest next List.mem_cons_self
        rw [hd]
        exact List.mem_cons_self
    have hbehind := ih hrest fun next hnext => hapart next (List.mem_of_mem_tail hnext)
    rw [spread, List.append_assoc, stretches_gap_append hgap, stretches_append _ hfront, hbehind,
      List.flatMap_cons]

theorem stretches_text (write : Text → Text) (l : Layout) :
    stretches (l.text write) = l.names.flatMap fun name => stretches (write name) := by
  rw [Layout.text, stretches_spread write l.isGap l.isGap_last l.apart, Layout.names,
    List.flatMap_map]

/-- Words are the stretches of their layout. -/
theorem flatMap_stretches {words : List Text} (h : ∀ w ∈ words, IsWord w) :
    words.flatMap stretches = words := by
  induction words with
  | nil => rfl
  | cons w rest ih =>
    obtain ⟨hw, hrest⟩ := List.forall_mem_cons.mp h
    rw [List.flatMap_cons, stretches_of_isWord hw, ih hrest]
    rfl

/-- **Dependencies are read back from every layout.** There is a rule exactly where
there is a colon, and what it depends on never holds a blank or a backslash. -/
theorem parses_layouts :
    (∀ (target : Text) (l : Layout), ':' ∉ target → (∀ w ∈ l.names, IsWord w) →
      parse? (target ++ ':' :: l.text id) = some ⟨Text.trim target, l.names⟩) ∧
    (∀ s, parse? s = none ↔ ':' ∉ s) ∧
    ∀ s rule, parse? s = some rule → ∀ d ∈ rule.dependencies, IsWord d := by
  refine ⟨?_, fun s => parse?_eq_none_iff, fun s rule => isWord_of_parse?⟩
  intro target l htarget hwords
  have hread : stretches (l.text id) = l.names := by
    rw [stretches_text]
    exact flatMap_stretches hwords
  rw [parse?_eq htarget, hread]

/-- Three dependencies with a colon in each, two of them the same: directly behind the
colon of the rule, behind a continued line with a carriage return and a wide blank, and
behind a tab. -/
def Layout.continued : Layout where
  items := [([], "x:y.h".toList), ("\\\r\n\u3000".toList, "C:/z.h".toList),
    (['\t'], "x:y.h".toList)]
  last := " \\\n".toList
  isGap := by decide
  isGap_last := by decide
  apart := by decide

theorem parses_layouts_continued :
    "a.o ".toList ++ ':' :: Layout.continued.text id =
      "a.o :x:y.h\\\r\n\u3000C:/z.h\tx:y.h \\\n".toList ∧
    ':' ∉ "a.o ".toList ∧ (∀ w ∈ Layout.continued.names, IsWord w) ∧
    parse? ("a.o ".toList ++ ':' :: Layout.continued.text id) =
      some ⟨"a.o".toList, ["x:y.h".toList, "C:/z.h".toList, "x:y.h".toList]⟩ := by
  have htarget : ':' ∉ "a.o ".toList := by decide
  have hwords : ∀ w ∈ Layout.continued.names, IsWord w := by decide
  exact ⟨by decide, htarget, hwords, parses_layouts.1 _ _ htarget hwords⟩

/-! ## Names as compilers write them -/

/-- A name as compilers write it: a backslash stands in front of each space, and the
other characters, backslashes among them, stay as they are. -/
def escaped (name : Text) : Text := Text.joinWith ['\\', ' '] (Text.pieces (· == ' ') name)

/-- The backslashes in front of the spaces change nothing in what is read. -/
theorem stretches_escaped (name : Text) : stretches (escaped name) = stretches name := by
  have hpieces {gap : Text} (hgap : IsGap gap) (hne : gap ≠ []) :
      stretches (Text.joinWith gap (Text.pieces (· == ' ') name)) =
        (Text.pieces (· == ' ') name).flatMap stretches := stretches_joinWith hgap hne _
  calc stretches (escaped name)
      = (Text.pieces (· == ' ') name).flatMap stretches := hpieces (by decide) (by decide)
    _ = stretches (Text.joinWith [' '] (Text.pieces (· == ' ') name)) :=
        (hpieces (by decide) (by decide)).symm
    _ = stretches name := by rw [Text.joinWith_pieces]

/-- **A name is read as its stretches, and survives only if it is one.** From a rule in
the form compilers give it, the dependencies are the names exactly if no name is empty or
holds a blank or a backslash. -/
theorem breaks_names {target : Text} (htarget : ':' ∉ target) (l : Layout) :
    ∃ rule, parse? (target ++ ':' :: l.text escaped) = some rule ∧
      rule.target = Text.trim target ∧
      rule.dependencies = l.names.flatMap stretches ∧
      (rule.dependencies = l.names ↔ ∀ name ∈ l.names, IsWord name) := by
  have hread : stretches (l.text escaped) = l.names.flatMap stretches := by
    rw [stretches_text]
    simp only [stretches_escaped]
  refine ⟨_, parse?_eq htarget _, rfl, hread, ?_⟩
  constructor
  · intro hnames name hname
    rw [← hnames] at hname
    exact isWord_of_mem_stretches hname
  · intro hwords
    exact hread.trans (flatMap_stretches hwords)

/-- A name with a space, a name with a backslash and one on a continued line. -/
def Layout.mixed : Layout where
  items := [([' '], "my file.h".toList), ([' '], "dir\\b.h".toList),
    (" \\\n ".toList, "c.h".toList)]
  last := ['\n']
  isGap := by decide
  isGap_last := by decide
  apart := by decide

theorem breaks_names_mixed :
    "a.o".toList ++ ':' :: Layout.mixed.text escaped =
      "a.o: my\\ file.h dir\\b.h \\\n c.h\n".toList ∧
    ∃ rule, parse? ("a.o".toList ++ ':' :: Layout.mixed.text escaped) = some rule ∧
      rule.dependencies = ["my".toList, "file.h".toList, "dir".toList, "b.h".toList,
        "c.h".toList] := by
  have htarget : ':' ∉ "a.o".toList := by decide
  obtain ⟨rule, hrule, _, hnames, _⟩ := breaks_names htarget Layout.mixed
  refine ⟨by decide, rule, hrule, ?_⟩
  rw [hnames]
  decide

/-- One name, behind a space. -/
def Layout.single (name : Text) : Layout where
  items := [([' '], name)]
  last := []
  isGap := by
    intro item hitem
    obtain rfl := List.mem_singleton.mp hitem
    show IsGap [' ']
    decide
  isGap_last := by decide
  apart := by
    intro item hitem
    cases hitem

/-- A backslash inside a name, and one that guards a space of it, continue no line and
break the name in two. -/
theorem backslash_breaks_name :
    "a.o".toList ++ ':' :: (Layout.single "dir\\file.h".toList).text escaped =
      "a.o: dir\\file.h".toList ∧
    parse? "a.o: dir\\file.h".toList =
      some ⟨"a.o".toList, ["dir".toList, "file.h".toList]⟩ ∧
    "a.o".toList ++ ':' :: (Layout.single "my file.h".toList).text escaped =
      "a.o: my\\ file.h".toList ∧
    parse? "a.o: my\\ file.h".toList =
      some ⟨"a.o".toList, ["my".toList, "file.h".toList]⟩ := by
  decide

end MakeRule

end LoudHeaders
