import LoudHeaders.Proofs.Date
import LoudHeaders.Proofs.Git.Gathering

/-
  How a run that gathers changes ends, and what it says last.

  The last line of a run that succeeds names the date of the last commit it looked at
  (`getLast?_log`). The run asks only whether there is a date, and writes it if there is
  one; but far more times have a date than have one that can be written. So there are
  three ways to end, success, an error and a date in the way (`gatherChanges_ends`), and
  the third is met by every history whose last date has a year outside 0 to 9999.
-/

namespace LoudHeaders

namespace Git

section Run

variable {verbosity : Verbosity} {find : Finder} {directory : Text} {bound : Option Nat}
  {workingTree : Text} {part : List Commit} {last : Commit}

/-- What the closing line says of a time: its date, or that there is none. -/
def History.dateWords : Date.Spelling → Option Text
  | .written date => some date
  | .unknown => some "an unknown date".toList
  | .unwritable => none

theorem History.log_close {t : Tally} {date : Text}
    (h : dateWords (Date.spell last.time) = some date) :
    (close verbosity t last).run.log = [closingLine t date] := by
  unfold close
  cases hspell : Date.spell last.time with
  | written d =>
    rw [hspell] at h
    obtain rfl := Option.some.inj h
    rfl
  | unknown =>
    rw [hspell] at h
    obtain rfl := Option.some.inj h
    rfl
  | unwritable =>
    rw [hspell] at h
    cases h

theorem not_stumbles_of_dateWords (hlast : part.getLast? = some last) {date : Text}
    (h : History.dateWords (Date.spell last.time) = some date) : ¬Stumbles verbosity part := by
  rw [stumbles_iff hlast]
  rintro ⟨_, hspell⟩
  rw [hspell] at h
  cases h

/-- What a run logs ends with what it logs about the end of its walk. -/
theorem log_gatherChanges {o : Repository.Opened} {t : Tally} {reachedRoot : Bool}
    (hopen : (find directory).bind Repository.opened = .ok o)
    (hwalk : (History.walk o.workingTree bound ⟨.empty, 0⟩ o.lineage).run.value =
      .ok (t, reachedRoot, last))
    (hclose : (History.close verbosity t last).run.value = .ok ()) :
    ∃ front, (gatherChanges verbosity find directory bound).run.log =
      front ++ (History.close verbosity t last).run.log := by
  have hopened := (Session.Ends.ofExcept (Error.repository directory) hopen).value_eq
  have hopening : (History.logLine (History.openingLine o.branch bound)).run.value = .ok () := rfl
  rw [gatherChanges, Session.log_bind hopened, History.statistics, Session.log_bind hopening,
    Session.log_bind hwalk, Session.log_bind hclose, Session.log_pure, List.append_nil,
    ← List.append_assoc, ← List.append_assoc]
  exact ⟨_, rfl⟩

/-- A run whose last date has words succeeds, and its last line has them. -/
theorem getLast?_log (h : Covers find directory bound workingTree part)
    (hlast : part.getLast? = some last) {date : Text}
    (hdate : History.dateWords (Date.spell last.time) = some date) :
    ∃ found, (gatherChanges verbosity find directory bound).run.value = .ok found ∧
      (gatherChanges verbosity find directory bound).run.log.getLast? =
        some (History.closingLine ⟨found.counts, found.walked⟩ date) := by
  have hstumbles : ¬Stumbles verbosity part := not_stumbles_of_dateWords hlast hdate
  refine ⟨_, (value_of_covers h).1 hstumbles, ?_⟩
  obtain ⟨o, last', hopen, hlast', hwalk⟩ := h.arrives
  obtain rfl := Option.some.inj (hlast.symm.trans hlast')
  have hclose (t : Tally) : (History.close verbosity t last).run.value = .ok () := by
    rw [History.value_close]
    exact if_neg (mt (stumbles_iff hlast).mpr hstumbles)
  obtain ⟨front, hlog⟩ := log_gatherChanges hopen hwalk (hclose _)
  -- what the line counts is what the statistics say
  have hwalked := History.walked_along workingTree ⟨.empty, 0⟩ part
  rw [Nat.zero_add] at hwalked
  rw [hlog, History.log_close hdate, List.getLast?_concat, Statistics.along, ← hwalked]

end Run

/-- A commit without parents and files, from a given time. -/
def commitAt (time : Int) : Commit := { Commit.plain 'a' [] (some []) with time }

/-- Finds a repository whose only commit is from a given time. -/
def singleCommit (time : Int) : Finder := fun _ => .ok (.detached ['/'] ⟨[commitAt time], []⟩)

theorem covers_singleCommit (time : Int) (bound : Option Nat) :
    Covers (singleCommit time) ['/'] bound ['/'] [commitAt time] := by
  have hline : Store.Line ⟨[commitAt time], []⟩ 0 [commitAt time] := .one rfl
  have hroot : Store.EndsAtRoot [commitAt time] := by
    intro c hc
    obtain rfl := Option.some.inj hc
    rfl
  have hcut : Store.cut bound [commitAt time] = [commitAt time] := by
    cases bound <;> simp [Store.cut]
  have hwithin := Store.within_cut hline hroot bound
  rw [hcut] at hwithin
  exact ⟨_, 0, rfl, ⟨rfl, _, _, rfl, rfl⟩, hwithin, fun x hx => absurd hx List.not_mem_nil⟩

/-- **A run succeeds, ends with an error, or is ended by a date that it cannot write.**
It is ended by a date exactly if its closing line is shown and the last commit it looked
at has a date with a year outside 0 to 9999. Where the last commit has no date at all,
the run succeeds and its closing line says so. -/
theorem gatherChanges_ends (verbosity : Verbosity) (find : Finder) (directory : Text)
    (bound : Option Nat) :
    ((∃ found, (gatherChanges verbosity find directory bound).run.value = .ok found) ∨
      (∃ e, (gatherChanges verbosity find directory bound).run.value = .error (.error e)) ∨
      (gatherChanges verbosity find directory bound).run.value = .error .unwritableDate) ∧
    ((gatherChanges verbosity find directory bound).run.value = .error .unwritableDate ↔
      verbosity.shows .info = true ∧ ∃ workingTree part last,
        Covers find directory bound workingTree part ∧ part.getLast? = some last ∧
        Date.range.1 ≤ last.time ∧ last.time ≤ Date.range.2 ∧
        (last.time < Date.writable.1 ∨ Date.writable.2 < last.time)) ∧
    ∀ workingTree part last, Covers find directory bound workingTree part →
      part.getLast? = some last → (last.time < Date.range.1 ∨ Date.range.2 < last.time) →
      ∃ found, (gatherChanges verbosity find directory bound).run.value = .ok found ∧
        (gatherChanges verbosity find directory bound).run.log.getLast? =
          some (History.closingLine ⟨found.counts, found.walked⟩ "an unknown date".toList) := by
  refine ⟨?_, ?_, ?_⟩
  · rcases gatherChanges_cases verbosity find directory bound with
      ⟨_, _, _, _, hvalue⟩ | ⟨_, _, _, _, hvalue⟩ | herror
    · exact .inl ⟨_, hvalue⟩
    · exact .inr (.inr hvalue)
    · exact .inr (.inl herror)
  · rw [gatherChanges_eq_unwritable_iff]
    constructor
    · rintro ⟨workingTree, part, hcovers, hshows, last, hlast, hspell⟩
      exact ⟨hshows, workingTree, part, last, hcovers, hlast,
        Date.spell_eq_unwritable_iff.mp hspell⟩
    · rintro ⟨hshows, workingTree, part, last, hcovers, hlast, htime⟩
      exact ⟨workingTree, part, hcovers, hshows, last, hlast,
        Date.spell_eq_unwritable_iff.mpr htime⟩
  · intro workingTree part last hcovers hlast htime
    apply getLast?_log hcovers hlast
    rw [Date.spell_eq_unknown_iff.mpr htime]
    rfl

/-- The last second that a time can say has no date, and stops no run. -/
theorem gatherChanges_ends_lastSecond :
    ∃ found, (gatherChanges (.upTo .info) (singleCommit 9223372036854775807) ['/'] none).run.value =
        .ok found ∧
      (gatherChanges (.upTo .info) (singleCommit 9223372036854775807) ['/'] none).run.log.getLast? =
        some (History.closingLine ⟨found.counts, found.walked⟩ "an unknown date".toList) := by
  apply (gatherChanges_ends _ _ _ _).2.2 _ _ _ (covers_singleCommit _ none) rfl
  decide

/-- The first second of the year 10000 stops a run that compares nothing. -/
theorem stopped_by_year_10000 :
    (gatherChanges (.upTo .info) (singleCommit 253402300800) ['/'] (some 0)).run.value =
      .error .unwritableDate := by
  rw [gatherChanges_eq_unwritable_iff]
  refine ⟨_, _, covers_singleCommit _ _, rfl, _, rfl, ?_⟩
  rw [Date.spell_eq_unwritable_iff]
  decide

end Git

end LoudHeaders
