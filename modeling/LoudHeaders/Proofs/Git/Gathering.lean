import LoudHeaders.Proofs.Git.Walk

/-
  What a run that gathers changes comes to.

  The run opens a repository, walks its history and logs a line about the end of the
  walk. `Covers` says what part of which history it looks at. It succeeds with the
  statistics of that part (`gatherChanges_eq_ok_iff`), unless the date at the end of the
  walk is in the way (`gatherChanges_eq_unwritable_iff`). Without such a part it
  ends with an error (`value_of_not_covers`).
-/

namespace LoudHeaders

namespace Git

open Store (steps)

namespace Repository

/-- The repository has a working tree, and its HEAD resolves to the commit with a
number, which is there. -/
structure StandsAt (r : Repository) (workingTree : Text) (n : Nat) : Prop where
  workingTree : r.workingTree = some workingTree
  head : ∃ head c, r.readHead = .ok head ∧ r.objects.commit? head.id = some (n, c)

theorem find?_of_commit? {o : Objects} {id : Text} {n : Nat} {c : Commit}
    (h : o.commit? id = some (n, c)) : o.store.find? n = some c := by
  simp only [Objects.commit?, Option.bind_eq_bind, Option.pure_def, Option.bind_eq_some_iff,
    Option.some.injEq, Prod.mk.injEq] at h
  obtain ⟨m, _, d, hfound, rfl, rfl⟩ := h
  exact hfound

/-- A repository can be opened exactly if it stands at a commit, whose lineage is then
at hand. -/
theorem opened_eq_ok_iff {r : Repository} {o : Opened} :
    r.opened = .ok o ↔ ∃ head n c, r.workingTree = some o.workingTree ∧ r.readHead = .ok head ∧
      r.objects.commit? head.id = some (n, c) ∧ o.branch = head.branch ∧
      o.lineage = r.objects.store.lineage n c := by
  unfold opened
  split
  · rename_i hnone
    simp [hnone]
  · rename_i workingTree hsome
    split
    · rename_i reason hhead
      simp [hhead]
    · rename_i head hhead
      split
      · rename_i hcommit
        simp [hhead, hcommit]
      · rename_i n c hcommit
        obtain ⟨tree, branch, lineage⟩ := o
        constructor
        · rintro h
          cases h
          exact ⟨head, n, c, hsome, hhead, hcommit, rfl, rfl⟩
        · rintro ⟨head', n', c', htree, hhead', hcommit', rfl, rfl⟩
          obtain rfl := Except.ok.inj (hhead.symm.trans hhead')
          obtain ⟨rfl, rfl⟩ := Prod.mk.inj (Option.some.inj (hcommit.symm.trans hcommit'))
          obtain rfl := Option.some.inj (hsome.symm.trans htree)
          rfl

theorem StandsAt.opened {r : Repository} {workingTree : Text} {n : Nat}
    (h : r.StandsAt workingTree n) :
    ∃ branch c, r.objects.store.find? n = some c ∧
      r.opened = .ok ⟨workingTree, branch, r.objects.store.lineage n c⟩ := by
  obtain ⟨head, c, hhead, hcommit⟩ := h.head
  exact ⟨head.branch, c, find?_of_commit? hcommit,
    opened_eq_ok_iff.mpr ⟨head, n, c, h.workingTree, hhead, hcommit, rfl, rfl⟩⟩

end Repository

/-- What a run looks at: the line within the bound, from where the repository of the
directory stands, with the trees that are needed. -/
def Covers (find : Finder) (directory : Text) (bound : Option Nat) (workingTree : Text)
    (part : List Commit) : Prop :=
  ∃ r n, find directory = .ok r ∧ r.StandsAt workingTree n ∧
    r.objects.store.Within n bound part ∧ Readable part

/-- The date at the end of some commits is to be shown and cannot be written. -/
def Stumbles (verbosity : Verbosity) (part : List Commit) : Prop :=
  verbosity.shows .info = true ∧ ∃ c ∈ part.getLast?, Date.spell c.time = .unwritable

/-- The statistics of some commits. -/
def Statistics.along (workingTree : Text) (bound : Option Nat) (part : List Commit) :
    Statistics where
  counts := (History.along workingTree ⟨.empty, 0⟩ part).counts
  walked := steps part
  reachedRoot := bound != some (steps part)

section Run

variable {verbosity : Verbosity} {find : Finder} {directory : Text} {bound : Option Nat}

theorem value_of_not_opened {reason : Text}
    (h : (find directory).bind Repository.opened = .error reason) :
    (gatherChanges verbosity find directory bound).run.value =
      .error (.error (.repository directory reason)) := by
  apply Session.value_bind_of_error
  rw [h]
  rfl

theorem value_of_opened {o : Repository.Opened}
    (h : (find directory).bind Repository.opened = .ok o) :
    (gatherChanges verbosity find directory bound).run.value =
      (History.walk o.workingTree bound ⟨.empty, 0⟩ o.lineage).run.value.bind
        (History.ending verbosity) := by
  have hopened := (Session.Ends.ofExcept (Error.repository directory) h).value_eq
  rw [gatherChanges, Session.value_bind_of_ok hopened, History.value_statistics]

theorem stumbles_iff {part : List Commit} {last : Commit} (hlast : part.getLast? = some last) :
    Stumbles verbosity part ↔
      verbosity.shows .info = true ∧ Date.spell last.time = .unwritable := by
  rw [Stumbles, hlast]
  simp only [Option.mem_def, Option.some.injEq, exists_eq_left']

theorem not_stumbles {part : List Commit} (h : ∀ c ∈ part, Date.spell c.time ≠ .unwritable) :
    ¬Stumbles verbosity part := by
  rintro ⟨_, last, hlast, hspell⟩
  exact h last (List.mem_of_getLast? hlast) hspell

/-- The repository of what a run looks at opens, and the walk in it arrives at the end
of the part. -/
theorem Covers.arrives {workingTree : Text} {part : List Commit}
    (h : Covers find directory bound workingTree part) :
    ∃ o last, (find directory).bind Repository.opened = .ok o ∧ part.getLast? = some last ∧
      (History.walk o.workingTree bound ⟨.empty, 0⟩ o.lineage).run.value =
        .ok (History.along workingTree ⟨.empty, 0⟩ part, bound != some (steps part), last) := by
  obtain ⟨r, n, hfind, hstands, hwithin, hreadable⟩ := h
  obtain ⟨branch, c, hfound, hopened⟩ := hstands.opened
  obtain ⟨last, hlast⟩ := Option.ne_none_iff_exists'.mp
    (mt List.getLast?_eq_none_iff.mp hwithin.line.ne_nil)
  refine ⟨⟨workingTree, branch, r.objects.store.lineage n c⟩, last, ?_, hlast, ?_⟩
  · rw [hfind]
    exact hopened
  · exact (History.value_walk_eq_ok_iff hfound).mpr
      ⟨part, last, hwithin, hreadable, hlast, rfl⟩

/-- What a run makes of the part that it looks at. -/
theorem value_of_covers {workingTree : Text} {part : List Commit}
    (h : Covers find directory bound workingTree part) :
    (¬Stumbles verbosity part → (gatherChanges verbosity find directory bound).run.value =
      .ok (.along workingTree bound part)) ∧
    (Stumbles verbosity part → (gatherChanges verbosity find directory bound).run.value =
      .error .unwritableDate) := by
  obtain ⟨o, last, hopen, hlast, hwalk⟩ := h.arrives
  rw [value_of_opened hopen, hwalk, stumbles_iff hlast]
  show (¬_ → History.ending verbosity _ = _) ∧ (_ → History.ending verbosity _ = _)
  refine ⟨fun hdate => ?_, fun hstumbles => if_pos hstumbles⟩
  rw [History.ending, if_neg hdate, History.walked_along, Nat.zero_add]
  rfl

/-- Without a part that it can look at, a run ends with an error. -/
theorem value_of_not_covers (h : ∀ workingTree part, ¬Covers find directory bound workingTree part) :
    ∃ e, (gatherChanges verbosity find directory bound).run.value = .error (.error e) := by
  cases hopen : (find directory).bind Repository.opened with
  | error reason => exact ⟨_, value_of_not_opened hopen⟩
  | ok o =>
    cases hfind : find directory with
    | error reason =>
      rw [hfind] at hopen
      cases hopen
    | ok r =>
      rw [value_of_opened hopen]
      rw [hfind] at hopen
      obtain ⟨head, n, c, htree, hhead, hcommit, _, hlineage⟩ :=
        Repository.opened_eq_ok_iff.mp hopen
      cases hwalk : (History.walk o.workingTree bound ⟨.empty, 0⟩ o.lineage).run.value with
      | error f =>
        obtain ⟨id, rfl⟩ := History.value_walk_eq_error hwalk
        exact ⟨.history (.missing id), rfl⟩
      | ok result =>
        -- a walk that succeeds has a part to look at
        rw [hlineage, History.value_walk_eq_ok_iff (Repository.find?_of_commit? hcommit)] at hwalk
        obtain ⟨part, last, hwithin, hreadable, _⟩ := hwalk
        exact absurd ⟨r, n, hfind, ⟨htree, head, c, hhead, hcommit⟩, hwithin, hreadable⟩
          (h o.workingTree part)

/-- A run has one of three endings. -/
theorem gatherChanges_cases (verbosity : Verbosity) (find : Finder) (directory : Text)
    (bound : Option Nat) :
    (∃ workingTree part, Covers find directory bound workingTree part ∧
      ¬Stumbles verbosity part ∧ (gatherChanges verbosity find directory bound).run.value =
        .ok (.along workingTree bound part)) ∨
    (∃ workingTree part, Covers find directory bound workingTree part ∧
      Stumbles verbosity part ∧ (gatherChanges verbosity find directory bound).run.value =
        .error .unwritableDate) ∨
    ∃ e, (gatherChanges verbosity find directory bound).run.value = .error (.error e) := by
  by_cases hcovers : ∃ workingTree part, Covers find directory bound workingTree part
  · obtain ⟨workingTree, part, hpart⟩ := hcovers
    by_cases hstumbles : Stumbles verbosity part
    · exact .inr (.inl ⟨workingTree, part, hpart, hstumbles, (value_of_covers hpart).2 hstumbles⟩)
    · exact .inl ⟨workingTree, part, hpart, hstumbles, (value_of_covers hpart).1 hstumbles⟩
  · exact .inr (.inr (value_of_not_covers fun workingTree part hpart =>
      hcovers ⟨workingTree, part, hpart⟩))

/-- **A run succeeds exactly with the statistics of a part that it can look at.** The
date at the end of the part must not be in the way. -/
theorem gatherChanges_eq_ok_iff {found : Statistics} :
    (gatherChanges verbosity find directory bound).run.value = .ok found ↔
      ∃ workingTree part, Covers find directory bound workingTree part ∧
        ¬Stumbles verbosity part ∧ found = .along workingTree bound part := by
  constructor
  · intro h
    rcases gatherChanges_cases verbosity find directory bound with
      ⟨workingTree, part, hpart, hdate, hvalue⟩ | ⟨_, _, _, _, hvalue⟩ | ⟨e, hvalue⟩
    · exact ⟨workingTree, part, hpart, hdate, Except.ok.inj (h.symm.trans hvalue)⟩
    · cases h.symm.trans hvalue
    · cases h.symm.trans hvalue
  · rintro ⟨workingTree, part, hpart, hdate, rfl⟩
    exact (value_of_covers hpart).1 hdate

/-- A run is ended by a date exactly if it can look at a part whose last date is to be
shown and cannot be written. -/
theorem gatherChanges_eq_unwritable_iff :
    (gatherChanges verbosity find directory bound).run.value = .error .unwritableDate ↔
      ∃ workingTree part, Covers find directory bound workingTree part ∧
        Stumbles verbosity part := by
  constructor
  · intro h
    rcases gatherChanges_cases verbosity find directory bound with
      ⟨_, _, _, _, hvalue⟩ | ⟨workingTree, part, hpart, hstumbles, _⟩ | ⟨e, hvalue⟩
    · cases h.symm.trans hvalue
    · exact ⟨workingTree, part, hpart, hstumbles⟩
    · cases h.symm.trans hvalue
  · rintro ⟨workingTree, part, hpart, hstumbles⟩
    exact (value_of_covers hpart).2 hstumbles

/-- However it ends, a run calls no program. -/
theorem quiet_gatherChanges (verbosity : Verbosity) (find : Finder) (directory : Text)
    (bound : Option Nat) : Session.Quiet (gatherChanges verbosity find directory bound) := by
  refine (Session.Quiet.ofExcept _ _).bind fun o => ?_
  refine (History.quiet_logLine _).bind fun _ => ?_
  refine (History.quiet_walk _ _ _ _).bind fun result => ?_
  exact (History.quiet_close _ _ _).bind fun _ => Session.Quiet.pure _

end Run

/-! ## Repositories to look at -/

/-- A commit whose id repeats a digit, from the first second of 1970. -/
def Commit.plain (digit : Char) (parents : List Nat) (tree : Option Tree) : Commit :=
  ⟨List.replicate idLength digit, parents, tree, [], 0⟩

/-- A repository without branches and tags: its HEAD holds the id of the last of its
commits. -/
def Repository.detached (workingTree : Text) (store : Store) : Repository where
  workingTree := some workingTree
  file := fun name =>
    if name = ReferenceName.head then .content (store.idOf (store.commits.length - 1))
    else .absent
  packed := fun _ => .ok none
  objects := ⟨store, []⟩

end Git

end LoudHeaders
