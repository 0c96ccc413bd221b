import Mathlib.Data.List.Forall2
import Mathlib.Data.Prod.Lex
import LoudHeaders.Proofs.BuildInputs
import LoudHeaders.Proofs.Text.Numeral

/-
  Versions as they are written.

  A version is written as up to three numbers with points between them. Its text may go on
  behind the last digit, as in `1.12.0.git` or `1.10.2-rc1`, and has blanks around it.

    1. `map_part?_written`: the parts such a text is read in are the numbers, and further
       ones only behind the third.
    2. `parse?_written`: so the version is read back, numbers that are left out as zero.
    3. `atLeast_iff`: versions are compared as triples, in lexicographic order.
    4. `accepts_written`: a build tool that prints such a text is accepted exactly if the
       triple is at least (1, 11, 0), and is refused with the trimmed text otherwise.
-/

namespace LoudHeaders

namespace Version

open BuildInputs (versionCall verifyVersion)
open Text (Numeral isBlank joinWith trim wordBound)

/-- The version with some numbers, the most significant first. Those that are left out
count as zero. -/
def ofNumbers : List Nat → Version
  | a :: b :: c :: _ => ⟨a, b, c⟩
  | [a, b] => ⟨a, b, 0⟩
  | [a] => ⟨a, 0, 0⟩
  | [] => ⟨0, 0, 0⟩

/-- Numerals that write some numbers, and what follows the last of them: no digit, and no
point unless there are three numbers. -/
structure Written (numbers : List Nat) (numerals : List Text) (tail : Text) : Prop where
  numerals : List.Forall₂ Numeral numbers numerals
  fits : ∀ n ∈ numbers, n < wordBound
  stops : ∀ c ∈ tail.head?, c.isDigit = false
  whole : numbers.length < 3 → '.' ∉ tail

/-- The triple of a version, ordered lexicographically. -/
def triple (v : Version) : Nat ×ₗ Nat ×ₗ Nat := toLex (v.major, toLex (v.minor, v.patch))

variable {numbers : List Nat} {numerals : List Text} {tail before after : Text}

/-! ## The parts of a written version -/

theorem part?_numeral {n : Nat} {digits rest : Text} (h : Numeral n digits) (hn : n < wordBound)
    (hrest : ∀ c ∈ rest.head?, c.isDigit = false) : part? (digits ++ rest) = some n := by
  rw [part?, Text.takeWhile_numeral_append h hrest, Text.word?_of_numeral h hn]

theorem not_point_of_numeral {n : Nat} {digits : Text} (h : Numeral n digits) :
    ∀ c ∈ digits, (c == '.') = false := by
  intro c hc
  rw [beq_eq_false_iff_ne]
  rintro rfl
  exact absurd (h.isDigit _ hc) (by decide)

/-- The numbers are read part by part. The last numeral shares its part with the front of
what follows it. -/
theorem map_part?_numerals (h : List.Forall₂ Numeral numbers numerals) (hne : numbers ≠ [])
    (hfits : ∀ n ∈ numbers, n < wordBound) (hstops : ∀ c ∈ tail.head?, c.isDigit = false) :
    (Text.pieces (· == '.') (joinWith ['.'] numerals ++ tail)).map part? =
      numbers.map some ++ (Text.pieces (· == '.') tail).tail.map part? := by
  induction h with
  | nil => exact absurd rfl hne
  | @cons n digits others more hn hothers ih =>
    have hfit : n < wordBound := hfits n List.mem_cons_self
    have hpoint := not_point_of_numeral hn
    cases hothers with
    | nil =>
      obtain ⟨first, rest, htail⟩ := List.exists_cons_of_ne_nil (Text.pieces_ne_nil (· == '.') tail)
      have hfirst : ∀ c ∈ first.head?, c.isDigit = false := fun c hc =>
        hstops c (Text.mem_head?_of_pieces htail hc)
      have hpieces : Text.pieces (· == '.') (digits ++ tail) = (digits ++ first) :: rest :=
        Text.pieces_append_of_none hpoint htail
      rw [joinWith, hpieces, htail, List.map_cons, part?_numeral hn hfit hfirst]
      rfl
    | cons hm hrest =>
      have hmore := ih (by simp) fun k hk => hfits k (List.mem_cons_of_mem n hk)
      have hpart : part? digits = some n := by
        rw [← List.append_nil digits]
        exact part?_numeral hn hfit (by simp)
      rw [Text.joinWith_cons_cons, List.append_assoc, List.append_assoc, List.singleton_append,
        Text.pieces_append_sep (by simp), Text.pieces_of_none hpoint, List.map_append, hmore,
        List.map_singleton, hpart]
      rfl

/-- Fewer than three numbers are all that is read. -/
theorem map_part?_written (h : Written numbers numerals tail) (hne : numbers ≠ []) :
    ∃ more, (Text.pieces (· == '.') (joinWith ['.'] numerals ++ tail)).map part? =
      numbers.map some ++ more ∧ (numbers.length < 3 → more = []) := by
  refine ⟨_, map_part?_numerals h.numerals hne h.fits h.stops, ?_⟩
  intro hlength
  have hnone : ∀ c ∈ tail, (c == '.') = false := by
    intro c hc
    rw [beq_eq_false_iff_ne]
    rintro rfl
    exact h.whole hlength hc
  rw [Text.pieces_of_none hnone]
  rfl

/-! ## Blanks around a written version -/

theorem Written.of_prefix (h : Written numbers numerals tail) {shorter : Text}
    (hshorter : shorter <+: tail) : Written numbers numerals shorter := by
  obtain ⟨cut, rfl⟩ := hshorter
  refine ⟨h.numerals, h.fits, ?_, ?_⟩
  · intro c hc
    exact h.stops c (List.mem_head?_append_of_mem_head? hc)
  · intro hlength hpoint
    exact h.whole hlength (List.mem_append_left cut hpoint)

theorem isDigit_or_point_of_mem {c : Char} (h : List.Forall₂ Numeral numbers numerals)
    (hc : c ∈ joinWith ['.'] numerals) : c.isDigit = true ∨ c = '.' := by
  induction h with
  | nil => cases hc
  | cons hn hothers ih =>
    cases hothers with
    | nil => exact .inl (hn.isDigit c hc)
    | cons hm hrest =>
      rw [Text.joinWith_cons_cons, List.append_assoc, List.mem_append, List.singleton_append,
        List.mem_cons] at hc
      rcases hc with hdigit | hpoint | hmore
      · exact .inl (hn.isDigit c hdigit)
      · exact .inr hpoint
      · exact ih hmore

theorem joinWith_ne_nil (h : List.Forall₂ Numeral numbers numerals) (hne : numbers ≠ []) :
    joinWith ['.'] numerals ≠ [] := by
  cases h with
  | nil => exact absurd rfl hne
  | cons hn hothers =>
    cases hothers with
    | nil => exact hn.ne_nil
    | cons hm hrest => simp [Text.joinWith_cons_cons]

theorem isBlank_eq_false_of_isDigit {c : Char} (h : c.isDigit = true) : isBlank c = false := by
  simp only [Char.isDigit, Bool.and_eq_true, decide_eq_true_eq] at h
  obtain ⟨hlow, hhigh⟩ := h
  have hlow : 48 ≤ c.toNat := UInt32.le_iff_toNat_le.mp hlow
  have hhigh : c.toNat ≤ 57 := UInt32.le_iff_toNat_le.mp hhigh
  simp only [isBlank, Bool.or_eq_false_iff, Bool.and_eq_false_iff, decide_eq_false_iff_not,
    beq_eq_false_iff_ne]
  omega

/-- Trimming takes the blanks in front away, and behind the last digit nothing but the end
of what follows it. -/
theorem trim_written (h : List.Forall₂ Numeral numbers numerals) (hne : numbers ≠ [])
    (hbefore : ∀ c ∈ before, isBlank c = true) (hafter : ∀ c ∈ after, isBlank c = true) :
    trim (before ++ (joinWith ['.'] numerals ++ tail) ++ after) =
      joinWith ['.'] numerals ++ Text.trimEnd tail := by
  have hsolid : ∀ c ∈ joinWith ['.'] numerals, isBlank c = false := by
    intro c hc
    rcases isDigit_or_point_of_mem h hc with hdigit | rfl
    · exact isBlank_eq_false_of_isDigit hdigit
    · decide
  rw [List.append_assoc, List.append_assoc,
    Text.trim_append hbefore (joinWith_ne_nil h hne) hsolid, Text.trimEnd_append_blanks hafter]

/-! ## Reading -/

/-- A written version is read back. -/
theorem parse?_written (h : Written numbers numerals tail) (hne : numbers ≠ [])
    (hbefore : ∀ c ∈ before, isBlank c = true) (hafter : ∀ c ∈ after, isBlank c = true) :
    parse? (before ++ (joinWith ['.'] numerals ++ tail) ++ after) = some (ofNumbers numbers) := by
  have hwritten : Written numbers numerals (Text.trimEnd tail) :=
    h.of_prefix (Text.trimEnd_prefix tail)
  obtain ⟨more, hparts, hmore⟩ := map_part?_written hwritten hne
  simp only [parse?, trim_written h.numerals hne hbefore hafter, hparts]
  match numbers, hne with
  | [a], _ =>
    rw [hmore (by simp)]
    rfl
  | [a, b], _ =>
    rw [hmore (by simp)]
    rfl
  | a :: b :: c :: _, _ => rfl

/-- Versions compare as their triples. -/
theorem atLeast_iff {v least : Version} : v.atLeast least = true ↔ least.triple ≤ v.triple := by
  simp only [atLeast, triple, Prod.Lex.toLex_le_toLex, Bool.or_eq_true, Bool.and_eq_true,
    decide_eq_true_eq, beq_iff_eq]

/-- A build tool is judged by the version it writes, whatever is around it. -/
theorem accepts_trim_written (h : Written numbers numerals tail) (hne : numbers ≠ [])
    (hbefore : ∀ c ∈ before, isBlank c = true) (hafter : ∀ c ∈ after, isBlank c = true) :
    BuildInputs.accepts (trim (before ++ (joinWith ['.'] numerals ++ tail) ++ after)) = true ↔
      triple ⟨1, 11, 0⟩ ≤ (ofNumbers numbers).triple := by
  have hread : parse? ([] ++ (joinWith ['.'] numerals ++ Text.trimEnd tail) ++ []) =
      some (ofNumbers numbers) :=
    parse?_written (h.of_prefix (Text.trimEnd_prefix tail)) hne (by simp) (by simp)
  rw [List.nil_append, List.append_nil] at hread
  rw [trim_written h.numerals hne hbefore hafter, BuildInputs.accepts, hread]
  exact atLeast_iff

/-- **A version is read as it is written, and decides whether the build tool will do.** Its
numbers may have zeros in front; behind the last digit anything may follow but a digit and,
where numbers are left out, a point; and there may be blanks around all of it. The build
tool that prints it is accepted exactly if the triple is at least (1, 11, 0). Otherwise the
error has the text without the blanks around it. -/
theorem accepts_written (h : Written numbers numerals tail) (hne : numbers ≠ [])
    (hbefore : ∀ c ∈ before, isBlank c = true) (hafter : ∀ c ∈ after, isBlank c = true) :
    let text := before ++ (joinWith ['.'] numerals ++ tail) ++ after
    parse? text = some (ofNumbers numbers) ∧
    ∀ (run : Runner) (binary : Text),
      run (versionCall binary).argv (versionCall binary).cwd = .ok text →
      ((verifyVersion run binary).run.value = .ok () ↔
        triple ⟨1, 11, 0⟩ ≤ (ofNumbers numbers).triple) ∧
      (¬triple ⟨1, 11, 0⟩ ≤ (ofNumbers numbers).triple →
        (verifyVersion run binary).run.value =
          .error (.error (.toolVersion binary (trim text) "1.11.0".toList))) := by
  intro text
  refine ⟨parse?_written h hne hbefore hafter, ?_⟩
  intro run binary hrun
  have haccepts : BuildInputs.accepts (trim text) = true ↔
      triple ⟨1, 11, 0⟩ ≤ (ofNumbers numbers).triple := accepts_trim_written h hne hbefore hafter
  have hrefused (hold : ¬triple ⟨1, 11, 0⟩ ≤ (ofNumbers numbers).triple) :
      (verifyVersion run binary).run.value =
        .error (.error (.toolVersion binary (trim text) "1.11.0".toList)) := by
    rw [← haccepts, Bool.not_eq_true] at hold
    exact (BuildInputs.verifyVersion_refused (.inr ⟨text, hrun, hold, rfl⟩)).value_eq
  refine ⟨⟨?_, ?_⟩, hrefused⟩
  · intro hvalue
    by_contra hold
    rw [hrefused hold] at hvalue
    cases hvalue
  · intro hrecent
    exact (BuildInputs.verifyVersion_ends hrun (haccepts.mpr hrecent)).value_eq

/-- The answer of a tool of version 1.10.9: a space of its own kind in front, a zero before
the first number, a digit of another script behind the last, and another point. -/
def oldAnswer : Text := "\u3000".toList ++ ("01.10.9".toList ++ "٣.git 2".toList) ++ ['\r', '\n']

theorem written_oldAnswer :
    Written [1, 10, 9] ["01".toList, "10".toList, "9".toList] "٣.git 2".toList where
  numerals := .cons ⟨1, by decide⟩ (.cons ⟨0, by decide⟩ (.cons ⟨0, by decide⟩ .nil))
  fits := by decide
  stops := by
    intro c hc
    obtain rfl := Option.some.inj hc
    decide
  whole := by decide

theorem accepts_written_oldAnswer :
    parse? oldAnswer = some ⟨1, 10, 9⟩ ∧
    (verifyVersion (fun _ _ => .ok oldAnswer) ['n']).run.value =
      .error (.error (.toolVersion ['n'] "01.10.9٣.git 2".toList "1.11.0".toList)) := by
  have hold : ¬triple ⟨1, 11, 0⟩ ≤ triple ⟨1, 10, 9⟩ := by
    rw [← atLeast_iff]
    decide
  have hbefore : ∀ c ∈ ['\u3000'], isBlank c = true := List.forall_mem_singleton.mpr (by decide)
  have hafter : ∀ c ∈ ['\r', '\n'], isBlank c = true :=
    List.forall_mem_cons.mpr ⟨by decide, List.forall_mem_singleton.mpr (by decide)⟩
  obtain ⟨hread, hverify⟩ := accepts_written written_oldAnswer (by decide) hbefore hafter
  have htrim : trim oldAnswer = "01.10.9٣.git 2".toList := by decide
  refine ⟨hread, ?_⟩
  rw [← htrim]
  exact (hverify _ ['n'] rfl).2 hold

end Version

end LoudHeaders
