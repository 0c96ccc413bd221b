import LoudHeaders.Arguments.Parser
import LoudHeaders.Proofs.Text.Numeral
import LoudHeaders.Proofs.Text.Pieces

/-
  Command lines written and read.

  A command line gives values to options, each in one of several ways (`Gives`), and has
  positional arguments anywhere between them (`Written`). Reading keeps what it took up
  last pending, so what has been read is said of a state once that is settled (`Reads`).
  One option or one positional argument more is one more value or one more positional
  argument (`reads_option`, `reads_positional`), and so a whole command line is read as
  what it gives (`reads_written`).
-/

namespace LoudHeaders

namespace Arguments

/-! ## Values -/

/-- A text that writes a value. -/
inductive Spells : Text → Value → Prop
  | number {n : Nat} {digits : Text} (h : Text.Numeral n digits) (hn : n < Text.wordBound) :
      Spells digits (.number n)
  | positive {n : Nat} {digits : Text} (h : Text.Numeral n digits) (hn : n < Text.wordBound) :
      Spells ('+' :: digits) (.number n)
  | path {p : Text} (hp : p ≠ []) : Spells p (.path p)
  | text : Spells "text".toList (.format .text)
  | json : Spells "json".toList (.format .json)

/-- The kind a value is of; a flag is of none. -/
def Value.kind? : Value → Option ValueKind
  | .number _ => some .number
  | .path _ => some .path
  | .format _ => some .format
  | .flag => none

theorem Spells.check {raw : Text} {v : Value} (h : Spells raw v) :
    ∃ kind, v.kind? = some kind ∧ kind.check raw = .ok v := by
  cases h with
  | number h hn =>
    refine ⟨.number, rfl, ?_⟩
    simp only [ValueKind.check, (Text.count?_of_numeral h hn).1]
  | positive h hn =>
    refine ⟨.number, rfl, ?_⟩
    simp only [ValueKind.check, (Text.count?_of_numeral h hn).2]
  | path hp => exact ⟨.path, rfl, if_neg (by simpa using hp)⟩
  | text => exact ⟨.format, rfl, rfl⟩
  | json => exact ⟨.format, rfl, rfl⟩

/-! ## Command lines -/

/-- Arguments that give an option a value. A text that starts with a hyphen is no argument
of its own. -/
inductive Gives (o : OptionName) : List Text → Value → Prop
  | flag : Gives o ['-' :: '-' :: o.long] .flag
  | joined {raw : Text} {v : Value} (h : Spells raw v) :
      Gives o ['-' :: '-' :: (o.long ++ '=' :: raw)] v
  | apart {raw : Text} {v : Value} (h : Spells raw v) (hraw : raw.head? ≠ some '-') :
      Gives o ['-' :: '-' :: o.long, raw] v
  | letter {c : Char} {raw : Text} {v : Value} (hc : o.short? = some c) (h : Spells raw v)
      (hraw : raw.head? ≠ some '-') : Gives o [['-', c], raw] v

/-- Arguments that give values to options, in this order, and have these positional
arguments between them. -/
inductive Written : List (OptionName × Value) → List Text → List Text → Prop
  | nil : Written [] [] []
  | option {o : OptionName} {v : Value} {front : List Text} {vs : List (OptionName × Value)}
      {ps rest : List Text} (h : Gives o front v) (hrest : Written vs ps rest) :
      Written ((o, v) :: vs) ps (front ++ rest)
  | positional {p : Text} {vs : List (OptionName × Value)} {ps rest : List Text}
      (hp : p.head? ≠ some '-') (hrest : Written vs ps rest) :
      Written vs (p :: ps) (p :: rest)

/-- The value an option has in a record, if it has one. -/
def valueOf (a : DepsArguments) : OptionName → Option Value
  | .ninjaBinary => a.ninjaBinary.map .path
  | .numFiles => some (.number a.numFiles)
  | .numCommits => a.numCommits.map .number
  | .repo => a.repo.map .path
  | .compileCommands => a.compileCommands.map .path
  | .jobs => a.jobs.map .number
  | .format => some (.format a.format)
  | .noProgress => if a.noProgress then some .flag else none
  | .maxCommits => none
  | .help => none

/-- The value an option has when it is not given. -/
def defaultOf : OptionName → Option Value
  | .numFiles => some (.number 10)
  | .format => some (.format .text)
  | _ => none

theorem kind?_of_valueOf {a : DepsArguments} {o : OptionName} {v : Value}
    (h : valueOf a o = some v) : o.kind? = v.kind? ∧ o ∈ CommandName.gatherDeps.options := by
  cases o
  case maxCommits | help => cases h
  case noProgress =>
    rw [valueOf] at h
    split at h
    · obtain rfl := Option.some.inj h
      exact ⟨rfl, by decide⟩
    · cases h
  case numFiles | format =>
    obtain rfl := Option.some.inj h
    exact ⟨rfl, by decide⟩
  case ninjaBinary | numCommits | repo | compileCommands | jobs =>
    obtain ⟨_, _, rfl⟩ := Option.map_eq_some_iff.mp h
    exact ⟨rfl, by decide⟩

/-! ## Values in a state -/

namespace State

variable {s : State} {o : OptionName} {v : Value}

theorem get?_eq_none_iff : s.get? o = none ↔ o ∉ s.values.map Prod.fst := by
  rw [get?, Option.map_eq_none_iff, List.find?_eq_none, List.mem_map, not_exists]
  refine forall_congr' fun entry => ?_
  rw [not_and, beq_iff_eq]

/-- Where every option has one value at most, that is the value found. -/
theorem get?_of_mem (hnodup : (s.values.map Prod.fst).Nodup) (h : (o, v) ∈ s.values) :
    s.get? o = some v := by
  rw [get?, Option.map_eq_some_iff]
  refine ⟨(o, v), ?_, rfl⟩
  obtain ⟨before, after, hs⟩ := List.append_of_mem h
  rw [hs, List.map_append, List.map_cons, List.nodup_append] at hnodup
  have hbefore : before.find? (fun entry => entry.1 == o) = none := by
    rw [List.find?_eq_none]
    intro entry hentry
    simpa using hnodup.2.2 entry.1 (List.mem_map_of_mem hentry) o List.mem_cons_self
  rw [hs, List.find?_append, hbefore]
  simp

/-- A value that is taken up last is found if there was none. -/
theorem get?_concat (hnew : s.get? o = none) (p : OptionName) :
    get? { s with values := s.values ++ [(o, v)] } p = if p = o then some v else s.get? p := by
  rw [get?, List.find?_append]
  by_cases hp : p = o
  · subst hp
    rw [get?, Option.map_eq_none_iff] at hnew
    simp [hnew]
  · have hother : ¬o = p := fun h => hp h.symm
    rw [if_neg hp, get?]
    cases s.values.find? fun entry => entry.1 == p with
    | none => simp [hother]
    | some entry => rfl

theorem give_eq {raw : Text} (hnew : o ∉ s.values.map Prod.fst) (h : Spells raw v)
    (hkind : o.kind? = v.kind?) :
    s.give o raw = .ok { s with values := s.values ++ [(o, v)] } := by
  obtain ⟨kind, hv, hcheck⟩ := h.check
  have hnone : ¬(s.get? o).isSome = true := by simp [get?_eq_none_iff.mpr hnew]
  rw [give, if_neg hnone, hkind, hv]
  show (kind.check raw).map _ = _
  rw [hcheck]
  rfl

theorem give_flag (hnew : o ∉ s.values.map Prod.fst) (hkind : o.kind? = none) (raw : Text) :
    s.give o raw = .ok { s with values := s.values ++ [(o, .flag)] } := by
  have hnone : ¬(s.get? o).isSome = true := by simp [get?_eq_none_iff.mpr hnew]
  rw [give, if_neg hnone, hkind]

/-! ## One argument more -/

/-- These values and positional arguments have been read, once what is pending is
settled. -/
structure Reads (s : State) (vs : List (OptionName × Value)) (ps : List Text) : Prop where
  settle : s.settle = .ok ⟨vs, ps, none, false⟩
  trailing : s.trailing = false

theorem reads_settled (vs : List (OptionName × Value)) (ps : List Text) :
    Reads ⟨vs, ps, none, false⟩ vs ps := ⟨rfl, rfl⟩

variable {vs : List (OptionName × Value)} {ps : List Text}

theorem step_long (c : CommandName) (h : s.trailing = false) {body : Text} (hbody : body ≠ []) :
    s.step c ('-' :: '-' :: body) = s.longOption c body := by
  obtain ⟨d, rest, rfl⟩ := List.exists_cons_of_ne_nil hbody
  simp [step, h]

theorem step_letter (c : CommandName) (h : s.trailing = false) {letter : Char}
    (hletter : letter ≠ '-') : s.step c ['-', letter] = s.shortOption c letter [] := by
  simp [step, h, hletter]

theorem step_plain (c : CommandName) (h : s.trailing = false) {raw : Text}
    (hraw : raw.head? ≠ some '-') : s.step c raw = s.plain c raw := by
  cases raw with
  | nil => simp [step, h]
  | cons d rest =>
    have hd : d ≠ '-' := fun hd => hraw (congrArg some hd)
    simp [step, h, hd]

theorem recognised_flag (h : Reads s vs ps) (hkind : o.kind? = none) (hhelp : o ≠ .help)
    (hnew : o ∉ vs.map Prod.fst) :
    s.recognised o none = .ok ⟨vs ++ [(o, .flag)], ps, none, false⟩ := by
  simp only [recognised, hkind, h.settle]
  exact (if_neg hhelp).trans (give_flag hnew hkind [])

theorem recognised_joined {raw : Text} (h : Reads s vs ps) (hnew : o ∉ vs.map Prod.fst)
    (hspells : Spells raw v) (hkind : o.kind? = v.kind?) :
    s.recognised o (some raw) = .ok ⟨vs ++ [(o, v)], ps, none, false⟩ := by
  obtain ⟨kind, hv, _⟩ := hspells.check
  simp only [recognised, hkind.trans hv, h.settle]
  exact give_eq hnew hspells hkind

/-- An option without a value is pending, -/
theorem recognised_apart {kind : ValueKind} (h : Reads s vs ps) (hkind : o.kind? = some kind) :
    s.recognised o none = .ok ⟨vs, ps, some (.option o none), false⟩ := by
  simp only [recognised, hkind, h.settle]
  rfl

/-- until the next argument is taken for its value. -/
theorem reads_waiting (c : CommandName) {raw : Text} (ps : List Text) (hnew : o ∉ vs.map Prod.fst)
    (hspells : Spells raw v) (hkind : o.kind? = v.kind?) (hraw : raw.head? ≠ some '-') :
    ∃ s', [raw].foldlM (step c) ⟨vs, ps, some (.option o none), false⟩ = .ok s' ∧
      Reads s' (vs ++ [(o, v)]) ps := by
  refine ⟨⟨vs, ps, some (.option o (some raw)), false⟩, ?_, give_eq hnew hspells hkind, rfl⟩
  rw [List.foldlM_cons, step_plain c rfl hraw]
  rfl

theorem long_ne_nil (o : OptionName) : o.long ≠ [] := by
  cases o <;> decide

theorem equals_notMem_long (o : OptionName) : '=' ∉ o.long := by
  cases o <;> decide

theorem long?_long : ∀ o ∈ CommandName.gatherDeps.options,
    CommandName.gatherDeps.long? o.long = some o := by
  decide

theorem short?_of_short? {letter : Char} (h : o.short? = some letter) :
    letter ≠ '-' ∧ CommandName.gatherDeps.short? letter = some o := by
  cases o <;> cases h <;> exact ⟨by decide, rfl⟩

/-- An option by its long name alone. -/
theorem step_name (h : s.trailing = false) (ho : o ∈ CommandName.gatherDeps.options) :
    s.step .gatherDeps ('-' :: '-' :: o.long) = s.recognised o none := by
  have hcut : Text.cut '=' o.long = none := Text.cut_eq_none_iff.mpr (equals_notMem_long o)
  rw [step_long _ h (long_ne_nil o), longOption, hcut]
  simp only [Option.map_none, Option.getD_none, long?_long o ho]

/-- **One option more is one value more.** -/
theorem reads_option {front : List Text} (h : Reads s vs ps) (hgives : Gives o front v)
    (ho : o ∈ CommandName.gatherDeps.options) (hkind : o.kind? = v.kind?) (hhelp : o ≠ .help)
    (hnew : o ∉ vs.map Prod.fst) :
    ∃ s', front.foldlM (step .gatherDeps) s = .ok s' ∧ Reads s' (vs ++ [(o, v)]) ps := by
  cases hgives with
  | flag =>
    refine ⟨_, ?_, reads_settled _ _⟩
    rw [List.foldlM_cons, step_name h.trailing ho, recognised_flag h hkind hhelp hnew]
    rfl
  | @joined raw _ hspells =>
    refine ⟨_, ?_, reads_settled _ _⟩
    have hlong : s.longOption .gatherDeps (o.long ++ '=' :: raw) = s.recognised o (some raw) := by
      rw [longOption, Text.cut_append (equals_notMem_long o)]
      simp only [Option.map_some, Option.getD_some, long?_long o ho]
    rw [List.foldlM_cons, step_long _ h.trailing (by simp), hlong,
      recognised_joined h hnew hspells hkind]
    rfl
  | apart hspells hraw =>
    obtain ⟨kind, hv, _⟩ := hspells.check
    obtain ⟨s', hrun, hreads⟩ := reads_waiting .gatherDeps ps hnew hspells hkind hraw
    refine ⟨s', ?_, hreads⟩
    rw [List.foldlM_cons, step_name h.trailing ho, recognised_apart h (hkind.trans hv)]
    exact hrun
  | letter hc hspells hraw =>
    obtain ⟨kind, hv, _⟩ := hspells.check
    obtain ⟨s', hrun, hreads⟩ := reads_waiting .gatherDeps ps hnew hspells hkind hraw
    obtain ⟨hhyphen, hshort⟩ := short?_of_short? hc
    refine ⟨s', ?_, hreads⟩
    rw [List.foldlM_cons, step_letter _ h.trailing hhyphen, shortOption]
    simp only [hshort, hkind.trans hv, attachedToLetter]
    rw [recognised_apart h (hkind.trans hv)]
    exact hrun

/-- **One positional argument more.** The first one is not empty. -/
theorem reads_positional {p : Text} (h : Reads s vs ps) (hp : p.head? ≠ some '-')
    (hfirst : ps = [] → p ≠ []) :
    ∃ s', s.step .gatherDeps p = .ok s' ∧ Reads s' vs (ps ++ [p]) := by
  have hplain : s.plain .gatherDeps p = s.positional .gatherDeps p := by
    unfold plain
    split
    · rename_i hpending
      have hsettle := h.settle
      simp only [settle, hpending] at hsettle
      cases hsettle
    · rfl
  have hempty : (ps.isEmpty && p.isEmpty) = false := by
    rw [Bool.and_eq_false_iff]
    by_cases hps : ps = []
    · exact .inr (by simpa using hfirst hps)
    · exact .inl (by simpa using hps)
  refine ⟨⟨vs, ps, some (.positional p), false⟩, ?_, ?_, rfl⟩
  · rw [step_plain _ h.trailing hp, hplain, positional, if_neg (by simp [CommandName.takesMore]),
      h.settle]
    rfl
  · show (if (ps.isEmpty && p.isEmpty) = true then _ else _) = _
    rw [hempty]
    rfl

/-- **A command line is read as what it gives.** -/
theorem reads_written {a : DepsArguments} {given : List (OptionName × Value)}
    {places arguments : List Text} (hwritten : Written given places arguments) (h : Reads s vs ps)
    (honce : ((vs ++ given).map Prod.fst).Nodup)
    (hgiven : ∀ o v, (o, v) ∈ given → valueOf a o = some v)
    (hfirst : (ps ++ places).head? ≠ some []) :
    ∃ s', arguments.foldlM (step .gatherDeps) s = .ok s' ∧
      Reads s' (vs ++ given) (ps ++ places) := by
  -- each part of the line moves what it gives from what is to come to what has been read
  induction hwritten generalizing s vs ps with
  | nil => exact ⟨s, rfl, by simpa using h⟩
  | @option o v front given places rest hgives hrest ih =>
    have hvalue := hgiven o v List.mem_cons_self
    have hnew : o ∉ vs.map Prod.fst := fun ho => by
      rw [List.map_append, List.nodup_append] at honce
      exact honce.2.2 o ho o List.mem_cons_self rfl
    have hhelp : o ≠ .help := fun ho => by simp [ho, valueOf] at hvalue
    obtain ⟨hkind, ho⟩ := kind?_of_valueOf hvalue
    obtain ⟨mid, hmid, hreads⟩ := reads_option h hgives ho hkind hhelp hnew
    have hsplit : vs ++ (o, v) :: given = (vs ++ [(o, v)]) ++ given := by simp
    rw [hsplit] at honce ⊢
    obtain ⟨s', hrun, hs'⟩ :=
      ih hreads honce (fun o v hv => hgiven o v (List.mem_cons_of_mem _ hv)) hfirst
    refine ⟨s', ?_, hs'⟩
    rw [List.foldlM_append, hmid]
    exact hrun
  | @positional p given places rest hp hrest ih =>
    have hempty : ps = [] → p ≠ [] := by
      rintro rfl rfl
      exact hfirst rfl
    obtain ⟨mid, hmid, hreads⟩ := reads_positional h hp hempty
    have hsplit : ps ++ p :: places = (ps ++ [p]) ++ places := by simp
    rw [hsplit] at hfirst ⊢
    obtain ⟨s', hrun, hs'⟩ := ih hreads honce hgiven hfirst
    refine ⟨s', ?_, hs'⟩
    rw [List.foldlM_cons, hmid]
    exact hrun

end State

end Arguments

end LoudHeaders
