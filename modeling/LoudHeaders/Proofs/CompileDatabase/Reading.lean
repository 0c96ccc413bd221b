import Mathlib.Data.List.Forall2
import LoudHeaders.Gather
import LoudHeaders.Proofs.CompileDatabase.Entries
import LoudHeaders.Proofs.Session

/-
  Reading a compile database.

  A reader leaves the space behind what it has read, and every reader passes over the
  space it starts at. So where a reader stops is said up to space (`Finds`).
    1. One member is read as it is taken up, whatever space and escapes it is written with
       (`readMember_renders`).
    2. By induction on the members an entry is read as what they complete, and by induction
       on the entries the database is read in order (`readSome_separated`,
       `readSomeEntries_separated`). The bound that the readers share is always ahead of
       what is left to read.

  So exactly the commands that are described are read, and an entry that is spoiled
  anywhere leaves no command at all (`load_renders`).
-/

namespace LoudHeaders

namespace CompileDatabase

open Json
open Session (Ends)

/-! ## Readers -/

section Finding

variable {α β : Type}

/-- A reader finds this and stops in front of `rest`, up to space; or it finds a fault. -/
def Finds (x : Except Fault (α × Text)) (found : Option α) (rest : Text) : Prop :=
  match found with
  | some a => ∃ left, x = .ok (a, left) ∧ skipSpace left = skipSpace rest
  | none => ∃ fault, x = .error fault

/-- A reader that goes on where another one stops. -/
theorem Finds.bind {x : Except Fault (α × Text)} {f : α × Text → Except Fault (β × Text)}
    {found : Option α} {g : α → Option β} {mid rest : Text} (hx : Finds x found mid)
    (hf : ∀ a left, skipSpace left = skipSpace mid → Finds (f (a, left)) (g a) rest) :
    Finds (x >>= f) (found.bind g) rest := by
  cases found with
  | none =>
    obtain ⟨fault, rfl⟩ := hx
    exact ⟨fault, rfl⟩
  | some a =>
    obtain ⟨left, rfl, hleft⟩ := hx
    exact hf a left hleft

/-- Space makes no difference where a reader stops. -/
theorem Finds.congr {x : Except Fault (α × Text)} {found : Option α} {mid rest : Text}
    (hx : Finds x found mid) (h : skipSpace mid = skipSpace rest) : Finds x found rest := by
  cases found with
  | none => exact hx
  | some a =>
    obtain ⟨left, hleft, hmid⟩ := hx
    exact ⟨left, hleft, hmid.trans h⟩

end Finding

/-- A member starts with a quote. -/
theorem Member.Renders.start {m : Member} {s : Text} (h : m.Renders s) (rest : Text) :
    ∃ more, skipSpace (s ++ rest) = '"' :: more := by
  obtain ⟨key, value, hpaired⟩ : ∃ key value, Paired key value s := by
    cases h with
    | given _ _ h => exact ⟨_, _, h⟩
    | wrong _ _ _ h => exact ⟨_, _, h⟩
    | other _ _ _ h => exact ⟨_, _, h⟩
  obtain ⟨hbefore, _, _, _⟩ := hpaired
  rw [List.append_assoc, skipSpace_append hbefore]
  exact ⟨_, skipSpace_cons rfl _⟩

/-- A key is read, and the value stands behind it. -/
theorem readKey_paired {name key value s : Text} (hkey : Spelled name key)
    (h : Paired key value s) (rest : Text) :
    ∃ between behind after, Blank between ∧ Blank behind ∧ Blank after ∧
      readKey (skipSpace (s ++ rest)) =
        .ok (name, between ++ ':' :: (behind ++ (value ++ (after ++ rest)))) := by
  obtain @⟨before, between, behind, after, hbefore, hbetween, hbehind, hafter⟩ := h
  refine ⟨between, behind, after, hbetween, hbehind, hafter, ?_⟩
  simp only [List.append_assoc, List.cons_append]
  rw [skipSpace_append hbefore, skipSpace_cons rfl]
  exact readText_spelled hkey _

theorem readColon_eq {gap : Text} (h : Blank gap) (rest : Text) :
    readColon (gap ++ ':' :: rest) = .ok rest := by
  have hcolon : skipSpace (gap ++ ':' :: rest) = ':' :: rest := by
    rw [skipSpace_append h, skipSpace_cons rfl]
  rw [readColon, hcolon]
  rfl

theorem ofKey?_key (field : Field) : Field.ofKey? field.key = some field := by
  cases field <;> rfl

theorem ofKey?_eq_none {name : Text} (h : ∀ field : Field, field.key ≠ name) :
    Field.ofKey? name = none := by
  rw [Field.ofKey?, List.find?_eq_none]
  intro field _
  simpa using h field

theorem readWanted_text {value body gap : Text} (hgap : Blank gap) (hbody : Spelled value body)
    (wanted rest : Text) :
    readWanted wanted (gap ++ ('"' :: (body ++ ['"']) ++ rest)) = .ok (value, rest) := by
  have hquote :
      skipSpace (gap ++ ('"' :: (body ++ ['"']) ++ rest)) = '"' :: (body ++ '"' :: rest) := by
    rw [skipSpace_append hgap, List.cons_append, List.append_assoc]
    exact skipSpace_cons rfl _
  rw [readWanted, hquote]
  exact readText_spelled hbody rest

theorem readWanted_wrong {value gap : Text} (hgap : Blank gap) (hvalue : WellFormed .value value)
    (hquote : value.head? ≠ some '"') (wanted rest : Text) :
    ∃ fault, readWanted wanted (gap ++ (value ++ rest)) = .error fault := by
  obtain ⟨c, more, rfl, hspace, -⟩ := hvalue.value_head
  have hc : c ≠ '"' := fun h => hquote (congrArg some h)
  have hstart : skipSpace (gap ++ (c :: more ++ rest)) = c :: (more ++ rest) := by
    rw [skipSpace_append hgap]
    exact skipSpace_cons hspace _
  refine ⟨mismatch wanted (c :: (more ++ rest)), ?_⟩
  rw [readWanted, hstart]
  simp [hc]

theorem readMember_field (bound : Nat) (e : Entry) (field : Field) {gap : Text} (h : Blank gap)
    (s : Text) :
    readMember bound e field.key (gap ++ ':' :: s) =
      if (e.get? field).isSome then .error (duplicateFault field (gap ++ ':' :: s))
      else (readWanted field.wanted s).map fun found => (e.set found.1 field, found.2) := by
  rw [readMember, ofKey?_key]
  simp only [readColon_eq h]
  rfl

theorem readMember_other (bound : Nat) (e : Entry) {name gap : Text}
    (hname : ∀ field : Field, field.key ≠ name) (h : Blank gap) (s : Text) :
    readMember bound e name (gap ++ ':' :: s) = (skipValue bound s).map fun rest => (e, rest) := by
  rw [readMember, ofKey?_eq_none hname]
  simp only [readColon_eq h]
  rfl

/-- **A member is taken up.** -/
theorem readMember_renders {m : Member} {s rest : Text} (h : m.Renders s) {bound : Nat}
    (hbound : 2 * s.length < bound) (hrest : Delimited rest) (e : Entry) :
    Finds (readKey (skipSpace (s ++ rest)) >>= fun found => readMember bound e found.1 found.2)
      (e.take? m) rest := by
  cases h with
  | @given field value key body _ hkey hbody h =>
    obtain ⟨between, behind, after, hbetween, hbehind, hafter, hread⟩ := readKey_paired hkey h rest
    rw [hread]
    show Finds (readMember bound e field.key _) _ rest
    rw [readMember_field _ _ _ hbetween, readWanted_text hbehind hbody, Entry.take?]
    split
    · exact ⟨_, rfl⟩
    · exact ⟨after ++ rest, rfl, skipSpace_append hafter rest⟩
  | @wrong field key value _ hkey hvalue hquote h =>
    obtain ⟨between, behind, after, hbetween, hbehind, hafter, hread⟩ := readKey_paired hkey h rest
    obtain ⟨fault, hfault⟩ := readWanted_wrong hbehind hvalue hquote field.wanted (after ++ rest)
    rw [hread]
    show Finds (readMember bound e field.key _) _ rest
    rw [readMember_field _ _ _ hbetween, hfault, Entry.take?]
    split
    · exact ⟨_, rfl⟩
    · exact ⟨fault, rfl⟩
  | @other name key value _ hname hkey hvalue h =>
    obtain ⟨between, behind, after, hbetween, hbehind, hafter, hread⟩ := readKey_paired hkey h rest
    have hmoves : 2 * value.length < bound := by
      have := h.length_lt
      omega
    rw [hread]
    show Finds (readMember bound e name _) _ rest
    rw [readMember_other _ _ hname hbetween,
      skipValue_wellFormed hbehind hvalue (delimited_append hafter hrest) hmoves]
    exact ⟨after ++ rest, rfl, skipSpace_append hafter rest⟩

/-! ### One entry -/

/-- The members of an entry from the first or the next one on. -/
def readSome (bound : Nat) (e : Entry) (s : Text) : Except Fault (CompileCommand × Text) := do
  let (e, rest) ← readKey (skipSpace s) >>= fun found => readMember bound e found.1 found.2
  readMembers bound e rest

theorem readMap_eq {s more : Text} (h : skipSpace s = '"' :: more) (bound : Nat) :
    readMap bound s = readSome bound .empty s := by
  rw [readMap, readSome, h]
  simp only [bind_assoc]
  rfl

theorem readMembers_comma {e : Entry} {s rest more : Text} (hs : skipSpace s = ',' :: rest)
    (h : skipSpace rest = '"' :: more) (bound : Nat) :
    readMembers (bound + 1) e s = readSome bound e rest := by
  rw [readMembers, hs, readSome]
  simp only [readNextKey, h, bind_assoc]
  rfl

theorem readMembers_closing {s rest : Text} (h : skipSpace s = '\x7d' :: rest) (bound : Nat)
    (e : Entry) : Finds (readMembers (bound + 1) e s) (e.complete? []) rest := by
  rw [readMembers, h]
  simp only [if_true, Entry.complete?]
  cases e.finish with
  | error reason => exact ⟨_, rfl⟩
  | ok c => exact ⟨rest, rfl, rfl⟩

/-- **The members of an entry complete it.** -/
theorem readSome_separated {members : List Member} {s : Text}
    (h : Separated Member.Renders members s) {bound : Nat} (hbound : 2 * s.length < bound)
    (e : Entry) (rest : Text) :
    Finds (readSome bound e (s ++ '\x7d' :: rest)) (e.complete? members) rest := by
  induction h generalizing bound e with
  | one h =>
    obtain ⟨bound, rfl⟩ : ∃ k, bound = k + 1 := ⟨bound - 1, by omega⟩
    refine Finds.bind (readMember_renders h hbound (delimited_closing .map rest) e)
      fun e left hleft => ?_
    rw [skipSpace_cons rfl] at hleft
    exact readMembers_closing hleft bound e
  | @more _ _ s more h hrest ih =>
    -- the comma takes one from the bound, and a character from the text
    obtain ⟨bound, rfl⟩ : ∃ k, bound = k + 1 := ⟨bound - 1, by omega⟩
    simp only [List.length_append, List.length_cons] at hbound
    rw [List.append_assoc]
    refine Finds.bind (readMember_renders h (by omega) (delimited_comma _) e)
      fun e left hleft => ?_
    obtain ⟨start, hstart⟩ := hrest.start (fun h => h.start) ('\x7d' :: rest)
    rw [skipSpace_cons rfl] at hleft
    show Finds (readMembers (bound + 1) e left) _ rest
    rw [readMembers_comma hleft hstart]
    exact ih (by omega) e

theorem readMap_closing {s rest : Text} (h : skipSpace s = '\x7d' :: rest) (bound : Nat) :
    Finds (readMap (bound + 1) s) (Entry.complete? .empty []) rest := by
  rw [readMap, h]
  exact readMembers_closing (skipSpace_cons rfl rest) bound .empty

theorem readEntry_map {s rest : Text} (h : skipSpace s = '\x7b' :: rest) (bound : Nat) :
    readEntry bound s = readMap bound rest := by
  rw [readEntry, h]
  simp only [if_true]

/-- **An entry is read.** -/
theorem readEntry_enclosed {members : List Member} {s : Text}
    (h : Enclosed .map Member.Renders members s) {bound : Nat} (hbound : 2 * s.length < bound)
    (rest : Text) :
    Finds (readEntry bound (s ++ rest)) (Entry.complete? .empty members) rest := by
  obtain ⟨inner, after, hs, hafter, hlength, hinner⟩ := h.inside rest
  rw [readEntry_map hs]
  refine Finds.congr ?_ (skipSpace_append hafter rest)
  rcases hinner with ⟨rfl, hgap⟩ | hmembers
  · obtain ⟨bound, rfl⟩ : ∃ k, bound = k + 1 := ⟨bound - 1, by omega⟩
    refine readMap_closing ?_ bound
    rw [skipSpace_append hgap]
    exact skipSpace_cons rfl _
  · obtain ⟨more, hmore⟩ := hmembers.start (fun h => h.start)
      (Bracket.map.closing :: (after ++ rest))
    rw [readMap_eq hmore]
    exact readSome_separated hmembers (by omega) .empty (after ++ rest)

/-! ### All entries -/

/-- The entries from the first or the next one on. -/
def readSomeEntries (bound : Nat) (s : Text) : Except Fault (List CompileCommand × Text) := do
  let (entry, rest) ← readEntry bound s
  let (more, rest) ← readMore bound rest
  return (entry :: more, rest)

theorem readEntry_skipSpace (bound : Nat) (s : Text) :
    readEntry bound (skipSpace s) = readEntry bound s := by
  rw [readEntry, readEntry, skipSpace_skipSpace]

theorem readEntries_eq {s more : Text} (h : skipSpace s = '\x7b' :: more) (bound : Nat) :
    readEntries bound s = readSomeEntries bound s := by
  rw [readEntries, readSomeEntries, ← readEntry_skipSpace, h]
  rfl

theorem readMore_comma {s rest more : Text} (hs : skipSpace s = ',' :: rest)
    (h : skipSpace rest = '\x7b' :: more) (bound : Nat) :
    readMore (bound + 1) s = readSomeEntries bound rest := by
  rw [readMore, hs, readSomeEntries, ← readEntry_skipSpace]
  simp only [h]
  rfl

theorem readMore_closing {s rest : Text} (h : skipSpace s = ']' :: rest) (bound : Nat) :
    Finds (readMore (bound + 1) s) (some []) rest := by
  rw [readMore, h]
  exact ⟨rest, rfl, rfl⟩

/-- **The entries are read in order, or not at all.** -/
theorem readSomeEntries_separated {objects : List (List Member)} {s : Text}
    (h : Separated (Enclosed .map Member.Renders) objects s) {bound : Nat}
    (hbound : 2 * s.length < bound) (rest : Text) :
    Finds (readSomeEntries bound (s ++ ']' :: rest)) (objects.mapM (Entry.complete? .empty))
      rest := by
  induction h generalizing bound with
  | @one members s h =>
    obtain ⟨bound, rfl⟩ : ∃ k, bound = k + 1 := ⟨bound - 1, by omega⟩
    rw [List.mapM_cons]
    refine Finds.bind (readEntry_enclosed h hbound (']' :: rest)) fun c left hleft => ?_
    rw [skipSpace_cons rfl] at hleft
    exact Finds.bind (readMore_closing hleft bound) fun more left hleft => ⟨left, rfl, hleft⟩
  | @more members objects s more h hrest ih =>
    obtain ⟨bound, rfl⟩ : ∃ k, bound = k + 1 := ⟨bound - 1, by omega⟩
    simp only [List.length_append, List.length_cons] at hbound
    rw [List.append_assoc, List.mapM_cons]
    refine Finds.bind (readEntry_enclosed h (by omega) _) fun c left hleft => ?_
    rw [List.cons_append, skipSpace_cons rfl] at hleft
    obtain ⟨start, hstart⟩ := hrest.start (fun h => h.start) (']' :: rest)
    have hmore :
        Finds (readMore (bound + 1) left) (objects.mapM (Entry.complete? .empty)) rest := by
      rw [readMore_comma hleft hstart]
      exact ih (by omega)
    exact Finds.bind hmore fun more left hleft => ⟨left, rfl, hleft⟩

theorem readEntries_closing {s rest : Text} (h : skipSpace s = ']' :: rest) (bound : Nat) :
    Finds (readEntries bound s) (some []) rest := by
  rw [readEntries, h]
  exact ⟨rest, rfl, rfl⟩

theorem readDatabase_list {s inside rest : Text} {found : Option (List CompileCommand)}
    {bound : Nat} (hs : skipSpace s = '[' :: inside)
    (h : Finds (readEntries bound inside) found rest) (hrest : Blank rest) :
    (readDatabase bound s).toOption = found := by
  have hend : skipSpace rest = [] := by simpa [skipSpace] using skipSpace_append hrest []
  rw [readDatabase, hs]
  cases found with
  | none =>
    obtain ⟨fault, hfault⟩ := h
    simp only [hfault]
    rfl
  | some commands =>
    obtain ⟨left, hok, hleft⟩ := h
    rw [hend] at hleft
    simp only [hok, bind, Except.bind, hleft]
    rfl

/-- **A database is read in order, or not at all.** -/
theorem parse_renders {objects : List (List Member)} {s : Text} (h : Renders objects s) :
    (parse s).toOption = objects.mapM (Entry.complete? .empty) := by
  obtain ⟨inner, after, hs, hafter, hlength, hinner⟩ := h.inside []
  rw [List.append_nil, List.append_nil] at hs
  have hentries : Finds (readEntries (movesFor s.length) (inner ++ ']' :: after))
      (objects.mapM (Entry.complete? .empty)) after := by
    rcases hinner with ⟨rfl, hgap⟩ | hobjects
    · refine readEntries_closing ?_ _
      rw [skipSpace_append hgap]
      exact skipSpace_cons rfl _
    · obtain ⟨more, hmore⟩ := hobjects.start (fun h => h.start) (']' :: after)
      rw [readEntries_eq hmore]
      refine readSomeEntries_separated hobjects ?_ after
      rw [movesFor]
      omega
  rw [← readDatabase_list hs hentries hafter, parse]
  cases readDatabase (movesFor s.length) s <;> rfl

theorem mapM_complete?_eq_some_iff {objects : List (List Member)}
    {commands : List CompileCommand} :
    objects.mapM (Entry.complete? .empty) = some commands ↔
      List.Forall₂ Describes objects commands := by
  induction objects generalizing commands with
  | nil =>
    rw [List.mapM_nil, List.forall₂_nil_left_iff]
    exact ⟨fun h => (Option.some.inj h).symm, fun h => h ▸ rfl⟩
  | cons members objects ih =>
    simp only [List.mapM_cons, Option.bind_eq_bind, Option.bind_eq_some_iff,
      Entry.complete?_empty_iff, ih, List.forall₂_cons_left_iff]
    constructor
    · rintro ⟨c, hc, more, hmore, h⟩
      exact ⟨c, more, hc, hmore, (Option.some.inj h).symm⟩
    · rintro ⟨c, more, hc, hmore, rfl⟩
      exact ⟨c, hc, more, hmore, rfl⟩

theorem mapM_complete?_of_spoiled {objects : List (List Member)} {members : List Member}
    (hmem : members ∈ objects) (h : Spoiled members) :
    objects.mapM (Entry.complete? .empty) = none := by
  induction objects with
  | nil => cases hmem
  | cons first objects ih =>
    rw [List.mapM_cons]
    rcases List.mem_cons.mp hmem with rfl | hmem
    · rw [Entry.complete?_of_spoiled h]
      rfl
    · rw [ih hmem]
      cases Entry.complete? .empty first <;> rfl

/-- A file that can be read gives what its text is read as. -/
theorem value_load {world : World} {path s : Text} (hread : world.readText path = .ok s) :
    (Gather.load world path).run.value =
      (parse s).mapError fun cause => .error (.databaseParse path cause) := by
  rw [Gather.load, Session.value_bind, (Ends.ofExcept (Error.databaseRead path) hread).value_eq]
  cases hresult : parse s with
  | error cause => exact (Ends.ofExcept_error (Error.databaseParse path) hresult).value_eq
  | ok found => exact (Ends.ofExcept (Error.databaseParse path) hresult).value_eq

/-- **A database gives the commands its entries describe, in order, and none at all if an
entry is spoiled.** -/
theorem load_renders {world : World} {path s : Text} {objects : List (List Member)}
    (hread : world.readText path = .ok s) (h : Renders objects s) :
    (∀ commands, (Gather.load world path).run.value = .ok commands ↔
        List.Forall₂ Describes objects commands) ∧
      ((∃ members ∈ objects, Spoiled members) →
        ∃ cause, (Gather.load world path).run.value =
          .error (.error (.databaseParse path cause))) := by
  have hparse := parse_renders h
  rw [value_load hread]
  refine ⟨fun commands => ?_, fun ⟨members, hmem, hspoiled⟩ => ?_⟩
  · rw [← mapM_complete?_eq_some_iff, ← hparse]
    cases parse s with
    | error cause => exact iff_of_false nofun nofun
    | ok found =>
      exact ⟨fun h => congrArg some (Except.ok.inj h), fun h => congrArg _ (Option.some.inj h)⟩
  · rw [mapM_complete?_of_spoiled hmem hspoiled] at hparse
    cases hresult : parse s with
    | error cause => exact ⟨cause, rfl⟩
    | ok found =>
      rw [hresult] at hparse
      cases hparse

/-- A key and a value without space. -/
theorem paired_tight (key value : Text) :
    Paired key value ([] ++ '"' :: (key ++ '"' :: ([] ++ ':' :: ([] ++ (value ++ []))))) :=
  .mk blank_nil blank_nil blank_nil blank_nil

theorem padded_tight {value : Text} (h : WellFormed .value value) :
    WellFormed .padded ([] ++ (value ++ [])) := .padded blank_nil h blank_nil

/-- An entry with a member of another name, and its fields in another order. -/
def sample : List Member :=
  [.other, .given .command "c\n".toList, .given .file ['😀'], .given .directory []]

/-- It is written with a nested value, with escapes and with space. -/
def sampleText : Text :=
  '\x7b' :: ("\"x\":[1e3,\x7b\"k\":null\x7d]".toList ++ ',' :: ("\"command\":\"c\\n\"".toList ++
    ',' :: ("\"f\\u0069le\" :\n\"\\uD83d\\uDE00\"".toList ++ ',' :: "\"directory\":\"\"".toList)) ++
    ['\x7d'])

theorem sampleText_renders : Enclosed .map Member.Renders sample sampleText := by
  have hplain {s : Text} (h : (s.all fun c => Ordinary c) = true) : Spelled s s :=
    spelled_ordinary (List.all_iff_forall_prop.mp h)
  have hnested : WellFormed .value "[1e3,\x7b\"k\":null\x7d]".toList := by
    have hnumber : Number "1e3".toList :=
      @Number.parts [] ['1'] [] ['e', '3'] (by decide) (.digits (by decide) ⟨by decide, rfl⟩)
        .none (@Exponent.digits 'e' [] ['3'] (by decide) (by decide) ⟨by decide, rfl⟩)
    have hentry : WellFormed (.member .map) "\"k\":null".toList :=
      .entry blank_nil (quoted_of_spelled (hplain (s := ['k']) rfl)) blank_nil
        (padded_tight (.literal (s := "null".toList) (by decide)))
    exact .bracket (b := .list) (.more (.element (padded_tight (.number hnumber)))
      (.last (.element (padded_tight (.bracket (.last hentry))))))
  have hother : Member.Renders .other "\"x\":[1e3,\x7b\"k\":null\x7d]".toList :=
    .other (by rintro (_ | _ | _) <;> decide) (hplain rfl) hnested
      (paired_tight ['x'] "[1e3,\x7b\"k\":null\x7d]".toList)
  have hcommand : Member.Renders (.given .command "c\n".toList) "\"command\":\"c\\n\"".toList :=
    .given (hplain rfl) (.cons (.plain (by decide)) (.cons (.short (by decide)) .nil))
      (paired_tight "command".toList "\"c\\n\"".toList)
  have hfile : Member.Renders (.given .file ['😀'])
      "\"f\\u0069le\" :\n\"\\uD83d\\uDE00\"".toList := by
    have hi : CodeUnit 'i'.toNat "0069".toList :=
      @CodeUnit.digits 0 0 6 9 '0' '0' '6' '9' (by decide) (by decide) (by decide) (by decide)
    have hlead : CodeUnit 0xD83D "D83d".toList :=
      @CodeUnit.digits 13 8 3 13 'D' '8' '3' 'd' (by decide) (by decide) (by decide) (by decide)
    have htrail : CodeUnit 0xDE00 "DE00".toList :=
      @CodeUnit.digits 13 14 0 0 'D' 'E' '0' '0' (by decide) (by decide) (by decide) (by decide)
    have hkey : Spelled Field.file.key "f\\u0069le".toList :=
      .cons (.plain (by decide)) (.cons (.unit hi) (hplain (s := ['l', 'e']) rfl))
    have hbody : Spelled ['😀'] "\\uD83d\\uDE00".toList :=
      .cons (.pair (c := '😀') (by decide) hlead htrail) .nil
    exact .given hkey hbody
      (@Paired.mk _ _ [] [' '] ['\n'] [] blank_nil (by decide) (by decide) blank_nil)
  have hdirectory : Member.Renders (.given .directory []) "\"directory\":\"\"".toList :=
    .given (hplain rfl) .nil (paired_tight "directory".toList "\"\"".toList)
  have hmembers : Separated Member.Renders sample _ :=
    .more hother (.more hcommand (.more hfile (.one hdirectory)))
  exact @Enclosed.members _ .map _ _ [] _ [] blank_nil hmembers blank_nil

/-- A database with this entry reads as one command; with an entry behind it that has no
members, it is not read at all. -/
theorem load_renders_sample :
    let world (s : Text) : World := ⟨fun _ => .ok s, fun _ => .error [], fun _ _ => .ok []⟩
    let spoilt : Text := '[' :: (sampleText ++ ", \x7b\x7d]".toList)
    Renders [sample] ('[' :: (sampleText ++ [']'])) ∧ Renders [sample, []] spoilt ∧
      (Gather.load (world ('[' :: (sampleText ++ [']']))) []).run.value =
        .ok [⟨['😀'], [], "c\n".toList⟩] ∧
      ∃ cause, (Gather.load (world spoilt) []).run.value =
        .error (.error (.databaseParse [] cause)) := by
  intro world spoilt
  have hone : Renders [sample] ('[' :: (sampleText ++ [']'])) :=
    @Enclosed.members _ .list _ _ [] _ [] blank_nil (.one sampleText_renders) blank_nil
  have hempty : Enclosed .map Member.Renders [] " \x7b\x7d".toList :=
    @Enclosed.empty _ .map _ [' '] [] [] (by decide) blank_nil blank_nil
  have htwo : Renders [sample, []] spoilt :=
    @Enclosed.members _ .list _ _ [] _ [] blank_nil
      (.more sampleText_renders (.one hempty)) blank_nil
  have hdescribes : List.Forall₂ Describes [sample] [⟨['😀'], [], "c\n".toList⟩] :=
    .cons (by rintro (_ | _ | _) <;> rfl) .nil
  have hspoiled : Spoiled [] := ⟨.file, .inl rfl⟩
  exact ⟨hone, htwo, ((@load_renders (world _) _ _ _ rfl hone).1 _).mpr hdescribes,
    (load_renders rfl htwo).2 ⟨[], by simp, hspoiled⟩⟩

end CompileDatabase

end LoudHeaders
