import LoudHeaders.Json.Skip
import LoudHeaders.Proofs.Json.Quotation

/-
  Well-formed values and how they are passed over.

  A value is well formed if it follows the grammar: a literal, a number, a quoted text,
  or members between brackets, separated by commas (`WellFormed`). What stands inside
  brackets is made of parts of its own, so the grammar is one family over the parts.
    1. A number is scanned to its end, if no digit, point or exponent stands behind it
       (`scanNumeral_number`).
    2. From the stage where a part is expected, moves lead past the part; two for each of
       its characters are enough (`skipped_of_wellFormed`, by induction on the grammar).
    3. So a well-formed value of any depth is passed over (`skipValue_wellFormed`).
-/

namespace LoudHeaders

namespace Json

/-! ## Numbers -/

/-- A run of decimal digits, which is not empty. -/
structure Digits (s : Text) : Prop where
  ne_nil : s ≠ []
  all : s.all Char.isDigit = true

theorem Digits.isDigit {s : Text} (h : Digits s) : ∀ c ∈ s, c.isDigit = true :=
  List.all_eq_true.mp h.all

/-- What stands in front of the point. A zero stands alone. -/
inductive Whole : Text → Prop
  | zero : Whole ['0']
  | digits {c : Char} {rest : Text} (hzero : c ≠ '0') (h : Digits (c :: rest)) :
      Whole (c :: rest)

inductive Fraction : Text → Prop
  | none : Fraction []
  | digits {digits : Text} (h : Digits digits) : Fraction ('.' :: digits)

inductive Exponent : Text → Prop
  | none : Exponent []
  | digits {mark : Char} {sign digits : Text} (hmark : mark ∈ ['e', 'E'])
      (hsign : sign ∈ [[], ['+'], ['-']]) (h : Digits digits) :
      Exponent (mark :: (sign ++ digits))

/-- A number as JSON writes it. -/
inductive Number : Text → Prop
  | parts {sign whole fraction exponent : Text} (hsign : sign ∈ [[], ['-']])
      (hwhole : Whole whole) (hfraction : Fraction fraction) (hexponent : Exponent exponent) :
      Number (sign ++ (whole ++ (fraction ++ exponent)))

/-- No digit stands in front. -/
def NoDigit (s : Text) : Prop := ∀ c ∈ s.head?, c.isDigit = false

/-- What may stand behind a number. -/
def Delimited (s : Text) : Prop :=
  ∀ c ∈ s.head?, c.isDigit = false ∧ c ≠ '.' ∧ c ∉ ['e', 'E']

variable {rest : Text}

theorem leadingDigits_eq_nil (h : NoDigit rest) : leadingDigits rest = [] := by
  cases rest with
  | nil => rfl
  | cons c rest => exact List.takeWhile_cons_of_neg (by simp [h c rfl])

theorem afterDigits_append {digits : Text} (h : ∀ c ∈ digits, c.isDigit = true)
    (hrest : NoDigit rest) : afterDigits (digits ++ rest) = rest := by
  rw [afterDigits, List.dropWhile_append_of_pos h]
  cases rest with
  | nil => rfl
  | cons c rest => exact List.dropWhile_cons_of_neg (by simp [hrest c rfl])

theorem scanWhole_append {whole : Text} (h : Whole whole) (hrest : NoDigit rest)
    (atEnd : Reason) : ∃ found, scanWhole atEnd (whole ++ rest) = .ok (found, rest) := by
  cases h with
  | zero => exact ⟨['0'], by simp [scanWhole, leadingDigits_eq_nil hrest]⟩
  | @digits c more hzero h =>
    have hc : c.isDigit = true := h.isDigit c List.mem_cons_self
    have hmore : ∀ d ∈ more, d.isDigit = true := fun d hd => h.isDigit d (List.mem_cons_of_mem _ hd)
    refine ⟨c :: leadingDigits (more ++ rest), ?_⟩
    rw [List.cons_append, scanWhole.eq_3 _ _ _ hzero, if_pos hc, afterDigits_append hmore hrest]

theorem scanFraction_append {fraction : Text} (h : Fraction fraction) (hrest : NoDigit rest)
    (hpoint : ∀ c ∈ rest.head?, c ≠ '.') (atEnd : Reason) :
    ∃ found, scanFraction atEnd (fraction ++ rest) = .ok (found, rest) := by
  cases h with
  | none =>
    refine ⟨Option.none, ?_⟩
    cases rest with
    | nil => rfl
    | cons c rest => simp [scanFraction, hpoint c rfl]
  | @digits digits h =>
    obtain ⟨d, more, rfl⟩ := List.exists_cons_of_ne_nil h.ne_nil
    have hd : d.isDigit = true := h.isDigit d List.mem_cons_self
    refine ⟨some (leadingDigits (d :: more ++ rest)), ?_⟩
    have hafter := afterDigits_append h.isDigit hrest
    rw [List.cons_append] at hafter
    simp [scanFraction, hd, hafter]

theorem scanSign_append {sign digits : Text} (hsign : sign ∈ [[], ['+'], ['-']])
    (h : Digits digits) (rest : Text) :
    ∃ negative, scanSign (sign ++ (digits ++ rest)) = (negative, digits ++ rest) := by
  obtain ⟨d, more, rfl⟩ := List.exists_cons_of_ne_nil h.ne_nil
  have hd : d.isDigit = true := h.isDigit d List.mem_cons_self
  have hplus : d ≠ '+' := by rintro rfl; cases hd
  have hminus : d ≠ '-' := by rintro rfl; cases hd
  simp only [List.mem_cons, List.not_mem_nil, or_false] at hsign
  rcases hsign with rfl | rfl | rfl
  · exact ⟨false, by simp [scanSign, hplus, hminus]⟩
  · exact ⟨false, rfl⟩
  · exact ⟨true, rfl⟩

theorem scanExponent_append {exponent : Text} (h : Exponent exponent) (hrest : Delimited rest)
    (atEnd : Reason) : ∃ found, scanExponent atEnd (exponent ++ rest) = .ok (found, rest) := by
  cases h with
  | none =>
    refine ⟨Option.none, ?_⟩
    cases rest with
    | nil => rfl
    | cons c rest =>
      have hc := (hrest c rfl).2.2
      simp only [List.mem_cons, List.not_mem_nil, or_false, not_or] at hc
      simp [scanExponent, hc]
  | @digits mark sign digits hmark hsign h =>
    obtain ⟨negative, hscan⟩ := scanSign_append hsign h rest
    have hafter := afterDigits_append h.isDigit fun c hc => (hrest c hc).1
    obtain ⟨d, more, rfl⟩ := List.exists_cons_of_ne_nil h.ne_nil
    have hd : d.isDigit = true := h.isDigit d List.mem_cons_self
    have hmark' : (mark = 'e' || mark = 'E') = true := by simpa using hmark
    refine ⟨some (negative, leadingDigits (d :: more ++ rest)), ?_⟩
    rw [List.cons_append] at hscan hafter
    rw [List.cons_append, List.append_assoc, scanExponent, if_pos hmark', List.cons_append, hscan]
    simp only [hd, if_true, hafter]

theorem noDigit_exponent {exponent : Text} (h : Exponent exponent) (hrest : Delimited rest) :
    NoDigit (exponent ++ rest) ∧ ∀ c ∈ (exponent ++ rest).head?, c ≠ '.' := by
  cases h with
  | none => exact ⟨fun c hc => (hrest c hc).1, fun c hc => (hrest c hc).2.1⟩
  | @digits mark sign digits hmark _ _ =>
    have hall : ∀ c ∈ ['e', 'E'], c.isDigit = false ∧ c ≠ '.' :=
      List.all_iff_forall_prop.mp (by decide)
    refine ⟨?_, ?_⟩
    · rintro _ ⟨⟩
      exact (hall _ hmark).1
    · rintro _ ⟨⟩
      exact (hall _ hmark).2

theorem noDigit_fraction {fraction : Text} (h : Fraction fraction) (hrest : NoDigit rest) :
    NoDigit (fraction ++ rest) := by
  cases h with
  | none => exact hrest
  | digits h =>
    rintro _ ⟨⟩
    rfl

/-- The first character of the digits in front of the point. -/
theorem Whole.head {whole : Text} (h : Whole whole) :
    ∃ c more, whole = c :: more ∧ c.isDigit = true := by
  cases h with
  | zero => exact ⟨'0', [], rfl, rfl⟩
  | @digits c more _ h => exact ⟨c, more, rfl, h.isDigit c List.mem_cons_self⟩

theorem Number.head {s : Text} (h : Number s) :
    ∃ c more, s = c :: more ∧ (c = '-' ∨ c.isDigit = true) := by
  obtain ⟨hsign, hwhole, _, _⟩ := h
  simp only [List.mem_cons, List.not_mem_nil, or_false] at hsign
  rcases hsign with rfl | rfl
  · obtain ⟨c, more, rfl, hc⟩ := hwhole.head
    exact ⟨c, _, rfl, .inr hc⟩
  · exact ⟨'-', _, rfl, .inl rfl⟩

/-- The characters that start or end something else than a number. -/
def others : Text :=
  [' ', '\t', '\n', '\r', ']', '\x7d', '"', '[', '\x7b', 'n', 't', 'f']

theorem notMem_others {c : Char} (h : c = '-' ∨ c.isDigit = true) : c ∉ others := by
  have hall : ∀ d ∈ others, d ≠ '-' ∧ d.isDigit = false :=
    List.all_iff_forall_prop.mp (by decide)
  intro hc
  obtain ⟨hminus, hdigit⟩ := hall c hc
  rcases h with h | h
  · exact hminus h
  · rw [hdigit] at h
    cases h

theorem isSpace_of_notMem_others {c : Char} (h : c ∉ others) : isSpace c = false := by
  simp only [others, List.mem_cons, not_or] at h
  simp [isSpace, h]

/-- **A number is scanned to its end.** -/
theorem scanNumeral_number {s : Text} (h : Number s) (hrest : Delimited rest) (atEnd : Reason) :
    ∃ found, scanNumeral atEnd (s ++ rest) = .ok (found, rest) := by
  obtain @⟨sign, whole, fraction, exponent, hsign, hwhole, hfraction, hexponent⟩ := h
  obtain ⟨hexp, hpoint⟩ := noDigit_exponent hexponent hrest
  have hfrac := noDigit_fraction hfraction hexp
  obtain ⟨w, hw⟩ := scanWhole_append hwhole hfrac atEnd
  obtain ⟨f, hf⟩ := scanFraction_append hfraction hexp hpoint atEnd
  obtain ⟨e, he⟩ := scanExponent_append hexponent hrest atEnd
  obtain ⟨c, more, rfl, hc⟩ := hwhole.head
  have hminus : (c == '-') = false := beq_false_of_ne (by rintro rfl; cases hc)
  rw [List.cons_append] at hw
  simp only [List.mem_cons, List.not_mem_nil, or_false] at hsign
  rcases hsign with rfl | rfl
  · refine ⟨⟨false, w, f, e⟩, ?_⟩
    simp [scanNumeral, hminus, hw, hf, he, bind, Except.bind, pure, Except.pure]
  · refine ⟨⟨true, w, f, e⟩, ?_⟩
    simp [scanNumeral, hw, hf, he, bind, Except.bind, pure, Except.pure]

/-! ## The grammar -/

/-- The character that opens a bracket. -/
def Bracket.opening : Bracket → Char
  | .list => '['
  | .map => '\x7b'

/-- The parts of the grammar: a value, a value with space around it, and, inside a bracket,
one member or several. -/
inductive Part where
  | value
  | padded
  | member (b : Bracket)
  | members (b : Bracket)

def literals : List Text := ["null".toList, "true".toList, "false".toList]

/-- The texts that follow the grammar. -/
inductive WellFormed : Part → Text → Prop
  | literal {s : Text} (h : s ∈ literals) : WellFormed .value s
  | number {s : Text} (h : Number s) : WellFormed .value s
  | text {body : Text} (h : Quoted body) : WellFormed .value ('"' :: (body ++ ['"']))
  | empty (b : Bracket) {gap : Text} (h : Blank gap) :
      WellFormed .value (b.opening :: (gap ++ [b.closing]))
  | bracket {b : Bracket} {s : Text} (h : WellFormed (.members b) s) :
      WellFormed .value (b.opening :: (s ++ [b.closing]))
  | padded {before s after : Text} (hbefore : Blank before) (h : WellFormed .value s)
      (hafter : Blank after) : WellFormed .padded (before ++ (s ++ after))
  | element {s : Text} (h : WellFormed .padded s) : WellFormed (.member .list) s
  | entry {before key after s : Text} (hbefore : Blank before) (hkey : Quoted key)
      (hafter : Blank after) (h : WellFormed .padded s) :
      WellFormed (.member .map) (before ++ '"' :: (key ++ '"' :: (after ++ ':' :: s)))
  | last {b : Bracket} {s : Text} (h : WellFormed (.member b) s) : WellFormed (.members b) s
  | more {b : Bracket} {s rest : Text} (h : WellFormed (.member b) s)
      (hrest : WellFormed (.members b) rest) : WellFormed (.members b) (s ++ ',' :: rest)

theorem opening_facts (b : Bracket) :
    isSpace b.opening = false ∧ ∀ b' : Bracket, b.opening ≠ b'.closing := by
  cases b
  · exact ⟨rfl, by rintro (_ | _) <;> decide⟩
  · exact ⟨rfl, by rintro (_ | _) <;> decide⟩

/-- A value starts with a character that is no space and closes no bracket. -/
theorem WellFormed.value_head {s : Text} (h : WellFormed .value s) :
    ∃ c more, s = c :: more ∧ isSpace c = false ∧ ∀ b : Bracket, c ≠ b.closing := by
  cases h with
  | literal h =>
    simp only [literals, List.mem_cons, List.not_mem_nil, or_false] at h
    rcases h with rfl | rfl | rfl
    all_goals exact ⟨_, _, rfl, rfl, by rintro (_ | _) <;> decide⟩
  | number h =>
    obtain ⟨c, more, rfl, hc⟩ := h.head
    have hothers := notMem_others hc
    have hclosing : ∀ b : Bracket, b.closing ∈ others := by rintro (_ | _) <;> decide
    refine ⟨c, more, rfl, isSpace_of_notMem_others hothers, ?_⟩
    rintro b rfl
    exact hothers (hclosing b)
  | text h => exact ⟨'"', _, rfl, rfl, by rintro (_ | _) <;> decide⟩
  | empty b h => exact ⟨b.opening, _, rfl, opening_facts b⟩
  | @bracket b _ h => exact ⟨b.opening, _, rfl, opening_facts b⟩

/-- Behind space, the text starts with a character that closes no bracket. -/
def Opens (s : Text) : Prop :=
  ∃ gap c more, s = gap ++ c :: more ∧ Blank gap ∧ isSpace c = false ∧
    ∀ b : Bracket, c ≠ b.closing

theorem WellFormed.opens_value {s : Text} (h : WellFormed .value s) : Opens s := by
  obtain ⟨c, more, rfl, hc⟩ := h.value_head
  exact ⟨[], c, more, rfl, blank_nil, hc⟩

/-- Whatever stands where a member is expected does not close the bracket. -/
theorem WellFormed.opens {part : Part} {s : Text} (h : WellFormed part s) : Opens s := by
  induction h with
  | literal h => exact (WellFormed.literal h).opens_value
  | number h => exact (WellFormed.number h).opens_value
  | text h => exact (WellFormed.text h).opens_value
  | empty b h => exact (WellFormed.empty b h).opens_value
  | bracket h => exact (WellFormed.bracket h).opens_value
  | @padded before _ after hbefore _ _ ih =>
    obtain ⟨gap, c, more, rfl, hgap, hc⟩ := ih
    exact ⟨before ++ gap, c, more ++ after, by simp, blank_append hbefore hgap, hc⟩
  | element _ ih => exact ih
  | entry hbefore _ _ _ _ =>
    exact ⟨_, '"', _, rfl, hbefore, rfl, by rintro (_ | _) <;> decide⟩
  | last _ ih => exact ih
  | @more _ _ rest _ _ ih _ =>
    obtain ⟨gap, c, more, rfl, hgap, hc⟩ := ih
    exact ⟨gap, c, more ++ ',' :: rest, by simp, hgap, hc⟩

/-! ## Passing over -/

theorem skipMoves_mono {m n : Nat} {stage : Stage} {stack : List Bracket} {s out : Text}
    (h : skipMoves n stage stack s = .ok out) (hle : n ≤ m) :
    skipMoves m stage stack s = .ok out := by
  induction n generalizing m stage stack s with
  | zero => cases h
  | succ n ih =>
    obtain ⟨m, rfl⟩ : ∃ k, m = k + 1 := ⟨m - 1, by omega⟩
    simp only [skipMoves] at h ⊢
    split at h
    · cases h
    · exact h
    · next stage stack rest hstep => exact ih h (by omega)

/-- One move, and the others behind it. -/
theorem skipMoves_step {m n : Nat} {stage stage' : Stage} {stack stack' : List Bracket}
    {s rest out : Text} (hstep : skipStep stage stack s = .ok (.more stage' stack' rest))
    (h : skipMoves n stage' stack' rest = .ok out) (hlt : n < m) :
    skipMoves m stage stack s = .ok out := by
  obtain ⟨m, rfl⟩ : ∃ k, m = k + 1 := ⟨m - 1, by omega⟩
  simp only [skipMoves, hstep]
  exact skipMoves_mono h (by omega)

/-- Texts that the first move does not tell apart. -/
theorem skipMoves_congr {n : Nat} {stage : Stage} {stack : List Bracket} {s t out : Text}
    (hstep : skipStep stage stack s = skipStep stage stack t)
    (h : skipMoves n stage stack t = .ok out) : skipMoves n stage stack s = .ok out := by
  cases n with
  | zero => cases h
  | succ n => simpa only [skipMoves, hstep] using h

/-- What it is for a part to be passed over, from the stage where it is expected. -/
def Skipped : Part → Text → Prop
  | .value, s => ∀ {n : Nat} {stack : List Bracket} {rest out : Text}, Delimited rest →
      skipMoves n .after stack rest = .ok out →
        skipMoves (2 * s.length + n) .value stack (s ++ rest) = .ok out
  | .padded, s => ∀ {n : Nat} {b : Bracket} {below : List Bracket} {rest out : Text},
      Delimited rest → skipMoves n .after (b :: below) rest = .ok out →
        skipMoves (2 * s.length + n) .value (b :: below) (s ++ rest) = .ok out
  | .member b, s => ∀ {n : Nat} {below : List Bracket} {rest out : Text},
      Delimited rest → skipMoves n .after (b :: below) rest = .ok out →
        skipMoves (2 * s.length + n) b.memberStage (b :: below) (s ++ rest) = .ok out
  | .members b, s => ∀ {n : Nat} {below : List Bracket} {rest out : Text},
      skipMoves n .after below rest = .ok out →
        skipMoves (2 * s.length + 1 + n) b.memberStage (b :: below) (s ++ b.closing :: rest) =
          .ok out

theorem delimited_closing (b : Bracket) (rest : Text) : Delimited (b.closing :: rest) := by
  rintro _ ⟨⟩
  cases b <;> decide

theorem delimited_comma (rest : Text) : Delimited (',' :: rest) := by
  rintro _ ⟨⟩
  decide

theorem delimited_append {gap rest : Text} (h : Blank gap) (hrest : Delimited rest) :
    Delimited (gap ++ rest) := by
  cases gap with
  | nil => exact hrest
  | cons c gap =>
    have hall : ∀ c ∈ [' ', '\t', '\n', '\r'], c.isDigit = false ∧ c ≠ '.' ∧ c ∉ ['e', 'E'] :=
      List.all_iff_forall_prop.mp (by decide)
    rintro _ ⟨⟩
    exact hall c (h c List.mem_cons_self)

/-- Space in front of a member makes no difference. -/
theorem skipStep_gap (b : Bracket) (stack : List Bracket) {gap : Text} (h : Blank gap)
    (s : Text) : skipStep b.memberStage stack (gap ++ s) = skipStep b.memberStage stack s := by
  cases b with
  | list => simp only [Bracket.memberStage, skipStep, skipSpace_append h]
  | map => simp only [Bracket.memberStage, skipStep, skipSpace_append h]

theorem skipStep_after_gap (b : Bracket) (below : List Bracket) {gap : Text} (h : Blank gap)
    (s : Text) : skipStep .after (b :: below) (gap ++ s) = skipStep .after (b :: below) s := by
  simp only [skipStep, skipSpace_append h]

theorem skipStep_opening (b : Bracket) (stack : List Bracket) (s : Text) :
    skipStep .value stack (b.opening :: s) = .ok (.more .opened (b :: stack) s) := by
  cases b <;> rfl

/-- A bracket that is closed at once. -/
theorem skipStep_empty (b : Bracket) (stack : List Bracket) {gap : Text} (h : Blank gap)
    (rest : Text) :
    skipStep .opened (b :: stack) (gap ++ b.closing :: rest) = .ok (.more .after stack rest) := by
  simp only [skipStep, skipSpace_append h]
  cases b <;> rfl

/-- A bracket that is not closed at once. -/
theorem skipStep_opened {b : Bracket} (stack : List Bracket) {gap : Text} (h : Blank gap)
    {c : Char} (hc : isSpace c = false) (hopen : c ≠ b.closing) (rest : Text) :
    skipStep .opened (b :: stack) (gap ++ c :: rest) =
      .ok (.more b.memberStage (b :: stack) (c :: rest)) := by
  simp only [skipStep, skipSpace_append h, skipSpace_cons hc, skipOpenedStep, if_neg hopen]

theorem skipStep_closing (b : Bracket) (below : List Bracket) (rest : Text) :
    skipStep .after (b :: below) (b.closing :: rest) = .ok (.more .after below rest) := by
  cases b <;> rfl

theorem skipStep_comma (b : Bracket) (below : List Bracket) (rest : Text) :
    skipStep .after (b :: below) (',' :: rest) =
      .ok (.more b.memberStage (b :: below) rest) := by
  cases b <;> rfl

theorem skipStep_key (stack : List Bracket) {before key after : Text} (hbefore : Blank before)
    (hkey : Quoted key) (hafter : Blank after) (rest : Text) :
    skipStep .key stack (before ++ '"' :: (key ++ '"' :: (after ++ ':' :: rest))) =
      .ok (.more .value stack rest) := by
  have hcolon : skipSpace (after ++ ':' :: rest) = ':' :: rest := by
    rw [skipSpace_append hafter, skipSpace_cons rfl]
  simp only [skipStep, skipSpace_append hbefore, skipSpace_cons (c := '"') rfl]
  rw [skipKeyStep, if_pos rfl, skipText_quoted hkey]
  simp only [bind, Except.bind, hcolon]
  rfl

/-- A value that is passed over in one move. -/
theorem skipped_scalar {s : Text} (hs : s ≠ [])
    (h : ∀ stack rest, Delimited rest →
      skipStep .value stack (s ++ rest) = .ok (.more .after stack rest)) : Skipped .value s := by
  intro n stack rest out hrest hout
  have := List.length_pos_iff.mpr hs
  exact skipMoves_step (h stack rest hrest) hout (by omega)

theorem skipped_literal {s : Text} (h : s ∈ literals) : Skipped .value s := by
  simp only [literals, List.mem_cons, List.not_mem_nil, or_false] at h
  rcases h with rfl | rfl | rfl
  all_goals exact skipped_scalar (by decide) fun _ _ _ => rfl

theorem skipped_number {s : Text} (h : Number s) : Skipped .value s := by
  obtain ⟨c, more, rfl, hc⟩ := h.head
  refine skipped_scalar (List.cons_ne_nil _ _) fun stack rest hrest => ?_
  obtain ⟨found, hscan⟩ := scanNumeral_number h hrest .invalidNumber
  have hothers := notMem_others hc
  have hstart : (c = '-' || c.isDigit) = true := by simpa using hc
  rw [List.cons_append] at hscan ⊢
  rw [skipStep, skipSpace_cons (isSpace_of_notMem_others hothers)]
  simp only [others, List.mem_cons, List.not_mem_nil, or_false, not_or] at hothers
  simp only [skipValueStep, hothers, if_false, hstart, if_true, hscan]
  rfl

theorem skipped_text {body : Text} (h : Quoted body) :
    Skipped .value ('"' :: (body ++ ['"'])) := by
  refine skipped_scalar (List.cons_ne_nil _ _) fun stack rest _ => ?_
  have htext : skipText 0 (body ++ ['"'] ++ rest) = .ok rest := by
    rw [List.append_assoc]
    exact skipText_quoted h rest
  show (skipText 0 (body ++ ['"'] ++ rest)).map _ = _
  rw [htext]
  rfl

theorem skipped_empty (b : Bracket) {gap : Text} (h : Blank gap) :
    Skipped .value (b.opening :: (gap ++ [b.closing])) := by
  intro n stack rest out _ hout
  have hinside := skipMoves_step (skipStep_empty b stack h rest) hout (Nat.lt_succ_self n)
  have hmoves : n.succ < 2 * (b.opening :: (gap ++ [b.closing])).length + n := by
    simp only [List.length_cons, List.length_append, List.length_nil]
    omega
  refine skipMoves_step (skipStep_opening b stack _) ?_ hmoves
  rwa [List.append_eq, List.append_assoc]

theorem skipped_bracket {b : Bracket} {s : Text} (hopens : Opens s)
    (h : Skipped (.members b) s) : Skipped .value (b.opening :: (s ++ [b.closing])) := by
  intro n stack rest out _ hout
  obtain ⟨gap, c, more, rfl, hgap, hc, hclosing⟩ := hopens
  have hmembers := h hout
  rw [List.append_assoc] at hmembers
  -- the move into the bracket takes the space with it
  have hbare := skipMoves_congr (skipStep_gap b (b :: stack) hgap _).symm hmembers
  have hinside := skipMoves_step
    (skipStep_opened stack hgap hc (hclosing b) (more ++ b.closing :: rest)) hbare
    (Nat.lt_succ_self _)
  have hmoves : (2 * (gap ++ c :: more).length + 1 + n).succ <
      2 * (b.opening :: (gap ++ c :: more ++ [b.closing])).length + n := by
    simp only [List.length_cons, List.length_append, List.length_nil]
    omega
  refine skipMoves_step (skipStep_opening b stack _) ?_ hmoves
  rwa [List.append_eq, List.append_assoc, List.append_assoc]

theorem skipped_padded {before s after : Text} (hbefore : Blank before)
    (h : Skipped .value s) (hafter : Blank after) :
    Skipped .padded (before ++ (s ++ after)) := by
  intro n b below rest out hrest hout
  have hvalue := h (delimited_append hafter hrest)
    (skipMoves_congr (skipStep_after_gap b below hafter rest) hout)
  have hmoves : 2 * s.length + n ≤ 2 * (before ++ (s ++ after)).length + n := by
    simp only [List.length_append]
    omega
  rw [List.append_assoc, List.append_assoc]
  exact skipMoves_mono (skipMoves_congr (skipStep_gap .list _ hbefore _) hvalue) hmoves

theorem skipped_entry {before key after s : Text} (hbefore : Blank before) (hkey : Quoted key)
    (hafter : Blank after) (h : Skipped .padded s) :
    Skipped (.member .map) (before ++ '"' :: (key ++ '"' :: (after ++ ':' :: s))) := by
  intro n below rest out hrest hout
  have hstep := skipStep_key (.map :: below) hbefore hkey hafter (s ++ rest)
  have hmoves : 2 * s.length + n <
      2 * (before ++ '"' :: (key ++ '"' :: (after ++ ':' :: s))).length + n := by
    simp only [List.length_append, List.length_cons]
    omega
  simpa only [Bracket.memberStage, List.append_assoc, List.cons_append] using
    skipMoves_step hstep (h hrest hout) hmoves

theorem skipped_last {b : Bracket} {s : Text} (h : Skipped (.member b) s) :
    Skipped (.members b) s := by
  intro n below rest out hout
  have hclosing := skipMoves_step (skipStep_closing b below rest) hout (Nat.lt_succ_self n)
  rw [Nat.add_assoc, Nat.add_comm 1 n]
  exact h (delimited_closing b rest) hclosing

theorem skipped_more {b : Bracket} {s more : Text} (h : Skipped (.member b) s)
    (hmore : Skipped (.members b) more) : Skipped (.members b) (s ++ ',' :: more) := by
  intro n below rest out hout
  have hcomma := skipMoves_step (skipStep_comma b below _) (hmore hout) (Nat.lt_succ_self _)
  have hmoves : 2 * s.length + (2 * more.length + 1 + n).succ ≤
      2 * (s ++ ',' :: more).length + 1 + n := by
    simp only [List.length_append, List.length_cons]
    omega
  rw [List.append_assoc]
  exact skipMoves_mono (h (delimited_comma _) hcomma) hmoves

/-- **Every part of a well-formed value is passed over.** -/
theorem skipped_of_wellFormed {part : Part} {s : Text} (h : WellFormed part s) :
    Skipped part s := by
  induction h with
  | literal h => exact skipped_literal h
  | number h => exact skipped_number h
  | text h => exact skipped_text h
  | empty b h => exact skipped_empty b h
  | bracket h ih => exact skipped_bracket h.opens ih
  | padded hbefore _ hafter ih => exact skipped_padded hbefore ih hafter
  | element _ ih => exact ih
  | entry hbefore hkey hafter _ ih => exact skipped_entry hbefore hkey hafter ih
  | last _ ih => exact skipped_last ih
  | more _ _ ih ihrest => exact skipped_more ih ihrest

/-- **A well-formed value is passed over.** -/
theorem skipValue_wellFormed {before s rest : Text} {moves : Nat} (hbefore : Blank before)
    (h : WellFormed .value s) (hrest : Delimited rest) (hmoves : 2 * s.length < moves) :
    skipValue moves (before ++ (s ++ rest)) = .ok rest := by
  have hvalue : skipMoves (2 * s.length + 1) .value [] (s ++ rest) = .ok rest :=
    skipped_of_wellFormed h hrest rfl
  exact skipMoves_mono (skipMoves_congr (skipStep_gap .list _ hbefore _) hvalue) hmoves

end Json

end LoudHeaders
