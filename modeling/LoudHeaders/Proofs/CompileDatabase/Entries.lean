import LoudHeaders.CompileDatabase.Reader
import LoudHeaders.Proofs.Json.Value

/-
  Compile databases as texts, and what they say.

  A database is written as a list of maps (`Renders`). The members of a map stand in any
  order: fields with a text, fields with something else, and members of other names with
  any well-formed value (`Member`). What the members of one map amount to is said of the
  members alone. They describe a command if each field is given once, with its text
  (`Describes`); taken up one after the other they complete it, and nothing else does
  (`Entry.complete?_empty_iff`).
-/

namespace LoudHeaders

namespace CompileDatabase

open Json

/-! ## Databases as texts -/

/-- A member of an entry: a field with a text, a field with something else, or a member of
another name. -/
inductive Member where
  | given (field : Field) (value : Text)
  | wrong (field : Field)
  | other

/-- A key and a value, with space around every token. -/
inductive Paired (key value : Text) : Text → Prop
  | mk {before between behind after : Text} (hbefore : Blank before) (hbetween : Blank between)
      (hbehind : Blank behind) (hafter : Blank after) :
      Paired key value
        (before ++ '"' :: (key ++ '"' :: (between ++ ':' :: (behind ++ (value ++ after)))))

theorem Paired.length_lt {key value s : Text} (h : Paired key value s) :
    value.length < s.length := by
  obtain ⟨_, _, _, _⟩ := h
  simp only [List.length_append, List.length_cons]
  omega

/-- A text that writes a member. -/
inductive Member.Renders : Member → Text → Prop
  | given {field : Field} {value key body s : Text} (hkey : Spelled field.key key)
      (hbody : Spelled value body) (h : Paired key ('"' :: (body ++ ['"'])) s) :
      Renders (.given field value) s
  | wrong {field : Field} {key value s : Text} (hkey : Spelled field.key key)
      (hvalue : WellFormed .value value) (hquote : value.head? ≠ some '"')
      (h : Paired key value s) : Renders (.wrong field) s
  | other {name key value s : Text} (hname : ∀ field : Field, field.key ≠ name)
      (hkey : Spelled name key) (hvalue : WellFormed .value value) (h : Paired key value s) :
      Renders .other s

section Rendering

variable {α : Type}

/-- Texts for several items, separated by commas. -/
inductive Separated (R : α → Text → Prop) : List α → Text → Prop
  | one {a : α} {s : Text} (h : R a s) : Separated R [a] s
  | more {a : α} {items : List α} {s rest : Text} (h : R a s) (hrest : Separated R items rest) :
      Separated R (a :: items) (s ++ ',' :: rest)

/-- A bracket around the texts of its members, if there are any, and space around the
bracket. -/
inductive Enclosed (b : Bracket) (R : α → Text → Prop) : List α → Text → Prop
  | empty {before gap after : Text} (hbefore : Blank before) (hgap : Blank gap)
      (hafter : Blank after) :
      Enclosed b R [] (before ++ b.opening :: (gap ++ b.closing :: after))
  | members {items : List α} {before s after : Text} (hbefore : Blank before)
      (h : Separated R items s) (hafter : Blank after) :
      Enclosed b R items (before ++ b.opening :: (s ++ b.closing :: after))

/-- What is said of the start of one item is said of the start of several. -/
theorem Separated.start {R : α → Text → Prop} {c : Char}
    (hR : ∀ {a s}, R a s → ∀ rest, ∃ more, skipSpace (s ++ rest) = c :: more) {items : List α}
    {s : Text} (h : Separated R items s) (rest : Text) :
    ∃ more, skipSpace (s ++ rest) = c :: more := by
  cases h with
  | one h => exact hR h rest
  | more h hrest =>
    rw [List.append_assoc]
    exact hR h _

/-- What stands between the brackets, and what stands behind them. -/
theorem Enclosed.inside {b : Bracket} {R : α → Text → Prop} {items : List α} {s : Text}
    (h : Enclosed b R items s) (rest : Text) :
    ∃ inner after, skipSpace (s ++ rest) = b.opening :: (inner ++ b.closing :: (after ++ rest)) ∧
      Blank after ∧ inner.length < s.length ∧
        (items = [] ∧ Blank inner ∨ Separated R items inner) := by
  cases h with
  | @empty before gap after hbefore hgap hafter =>
    refine ⟨gap, after, ?_, hafter, ?_, .inl ⟨rfl, hgap⟩⟩
    · simp only [List.append_assoc, List.cons_append]
      rw [skipSpace_append hbefore, skipSpace_cons (opening_facts b).1]
    · simp only [List.length_append, List.length_cons]
      omega
  | @members _ before inner after hbefore h hafter =>
    refine ⟨inner, after, ?_, hafter, ?_, .inr h⟩
    · simp only [List.append_assoc, List.cons_append]
      rw [skipSpace_append hbefore, skipSpace_cons (opening_facts b).1]
    · simp only [List.length_append, List.length_cons]
      omega

theorem Enclosed.start {b : Bracket} {R : α → Text → Prop} {items : List α} {s : Text}
    (h : Enclosed b R items s) (rest : Text) :
    ∃ more, skipSpace (s ++ rest) = b.opening :: more := by
  obtain ⟨inner, after, hs, -⟩ := h.inside rest
  exact ⟨_, hs⟩

end Rendering

/-- A text that writes a database: a list of maps with these members. -/
def Renders : List (List Member) → Text → Prop :=
  Enclosed .list (Enclosed .map Member.Renders)

/-! ## Entries -/

/-- What a member gives a field: a text, or something else. -/
def Member.content? (field : Field) : Member → Option (Option Text)
  | .given f value => if f = field then some (some value) else none
  | .wrong f => if f = field then some none else none
  | .other => none

/-- All that is given for a field. -/
def contents (field : Field) (members : List Member) : List (Option Text) :=
  members.filterMap (Member.content? field)

/-- The text of a command for a field. -/
def Field.of (c : CompileCommand) : Field → Text
  | .file => c.file
  | .directory => c.directory
  | .command => c.command

/-- The members describe a command: each field is given once, with its text. -/
def Describes (members : List Member) (c : CompileCommand) : Prop :=
  ∀ field, contents field members = [some (field.of c)]

/-- Some field is missing, or given something else than a text, or given twice. -/
def Spoiled (members : List Member) : Prop :=
  ∃ field, contents field members = [] ∨ none ∈ contents field members ∨
    2 ≤ (contents field members).length

namespace Entry

/-- The entry with one member more. -/
def take? (e : Entry) : Member → Option Entry
  | .given field value => if (e.get? field).isSome then none else some (e.set value field)
  | .wrong _ => none
  | .other => some e

/-- The command of an entry with these members more. -/
def complete? (e : Entry) : List Member → Option CompileCommand
  | [] => e.finish.toOption
  | m :: members => (e.take? m).bind fun e => e.complete? members

theorem get?_set (e : Entry) (value : Text) (field other : Field) :
    (e.set value field).get? other = if field = other then some value else e.get? other := by
  cases field <;> cases other <;> rfl

theorem finish_eq_iff {e : Entry} {c : CompileCommand} :
    e.finish.toOption = some c ↔ ∀ field : Field, e.get? field = some (field.of c) := by
  obtain ⟨file, directory, command⟩ := e
  constructor
  · intro h field
    match file, directory, command, h with
    | some _, some _, some _, h =>
      obtain rfl := Option.some.inj h
      cases field <;> rfl
  · intro h
    obtain rfl : file = some c.file := h .file
    obtain rfl : directory = some c.directory := h .directory
    obtain rfl : command = some c.command := h .command
    rfl

/-- The entry is completed to a command exactly if each field has its text in the end: one
that was set before is not given, and another one is given once. -/
theorem complete?_eq_some_iff {e : Entry} {members : List Member} {c : CompileCommand} :
    e.complete? members = some c ↔
      ∀ field : Field,
        (e.get? field).toList.map some ++ contents field members = [some (field.of c)] := by
  induction members generalizing e with
  | nil =>
    rw [complete?, finish_eq_iff]
    refine forall_congr' fun field => ?_
    cases e.get? field <;> simp [contents]
  | cons m members ih =>
    rw [complete?]
    cases m with
    | other => exact ih
    | wrong f =>
      refine iff_of_false (by simp [take?]) fun h => ?_
      have hf := h f
      cases hget : e.get? f <;> simp [contents, Member.content?, hget] at hf
    | given f value =>
      rw [take?]
      cases hget : e.get? f with
      | some old =>
        refine iff_of_false (by simp) fun h => ?_
        have hf := h f
        simp [contents, Member.content?, hget] at hf
      | none =>
        rw [if_neg (by simp), Option.bind_some, ih]
        refine forall_congr' fun field => ?_
        rw [get?_set]
        by_cases hf : f = field
        · subst hf
          simp [contents, Member.content?, hget]
        · simp [contents, Member.content?, hf]

theorem complete?_empty_iff {members : List Member} {c : CompileCommand} :
    complete? .empty members = some c ↔ Describes members c := by
  rw [complete?_eq_some_iff]
  refine forall_congr' fun field => ?_
  cases field <;> exact Iff.rfl

theorem complete?_of_spoiled {members : List Member} (h : Spoiled members) :
    complete? .empty members = none := by
  rw [Option.eq_none_iff_forall_ne_some]
  intro c hc
  obtain ⟨field, h⟩ := h
  rw [complete?_empty_iff.mp hc field] at h
  simp at h

end Entry

end CompileDatabase

end LoudHeaders
