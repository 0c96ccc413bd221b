import LoudHeaders.Proofs.Git.Gathering

/-
  Which runs fail, and whose fault it is.

  A directory can be unusable: it belongs to no repository, or to one without a working
  tree, or HEAD says nothing, or what it says leads to no commit that is there
  (`Unusable`). Then the error is about the directory. From the commit of HEAD on, an
  object can be missing that one of the comparisons within the bound needs: a parent, or
  the tree of one of the two commits that are compared (`Store.Lacks`). Then the error is
  about the history.

    1. `exists_arrives_iff`: a walk arrives exactly where nothing is lacking, by induction
       on the number of the commit, one comparison at a time.
    2. `gatherChanges_fails_cases`: the two conditions leave a run three ways to end.
    3. `fails_exactly_where`: so either error is met exactly under its condition, and a run
       that meets neither succeeds, whatever is lost behind the end of its walk.
-/

namespace LoudHeaders

namespace Git

open Store (Within)

namespace Store

/-- Following first parents for `i` steps from the commit with number `n` leads to a
commit that is there, whose number is `k`. -/
inductive Leads (s : Store) : Nat → Nat → Nat → Commit → Prop where
  | here {n : Nat} {c : Commit} (found : s.find? n = some c) : Leads s n 0 n c
  | back {n p i k : Nat} {c d : Commit} {others : List Nat} (found : s.find? n = some c)
    (parents : c.parents = p :: others) (lt : p < n) (older : Leads s p i k d) :
    Leads s n (i + 1) k d

/-- A commit has a first parent but cannot be compared with it: the parent is missing, or
the tree of one of the two is. -/
def Incomparable (s : Store) (k : Nat) (c : Commit) : Prop :=
  ∃ p others, c.parents = p :: others ∧
    ((p < k → s.find? p = none) ∨ c.tree = none ∨
      ∃ parent, s.find? p = some parent ∧ parent.tree = none)

/-- Fewer steps from a commit than the bound allows lead to one that cannot be compared
with its first parent. -/
def Lacks (s : Store) (n : Nat) (bound : Option Nat) : Prop :=
  ∃ i k c, s.Leads n i k c ∧ (∀ m ∈ bound, i < m) ∧ s.Incomparable k c

variable {s : Store} {n p : Nat} {c parent : Commit} {others : List Nat} {bound : Option Nat}

/-! ## One commit -/

theorem not_lacks_zero : ¬s.Lacks n (some 0) := by
  rintro ⟨i, _, _, _, hi, _⟩
  exact Nat.not_lt_zero i (hi 0 rfl)

/-- The comparison of a commit with a parent that is there needs the two trees. -/
theorem incomparable_iff (hparents : c.parents = p :: others) (hlt : p < n)
    (hfound : s.find? p = some parent) :
    s.Incomparable n c ↔ ¬Comparison.Readable ⟨c, parent⟩ := by
  have hreadable : ¬Comparison.Readable ⟨c, parent⟩ ↔ parent.tree = none ∨ c.tree = none := by
    rw [Comparison.Readable, Classical.not_and_iff_not_or_not, Option.not_isSome_iff_eq_none,
      Option.not_isSome_iff_eq_none]
  rw [hreadable]
  constructor
  · rintro ⟨q, others', hcons, hmissing⟩
    obtain ⟨rfl, rfl⟩ := List.cons.inj (hparents.symm.trans hcons)
    rcases hmissing with hmissing | htree | ⟨d, hd, htree⟩
    · rw [hmissing hlt] at hfound
      cases hfound
    · exact .inr htree
    · obtain rfl := Option.some.inj (hfound.symm.trans hd)
      exact .inl htree
  · rintro (htree | htree)
    · exact ⟨p, others, hparents, .inr (.inr ⟨parent, hfound, htree⟩)⟩
    · exact ⟨p, others, hparents, .inr (.inl htree)⟩

/-- What is lacking from a commit on is lacking at the commit itself or from its first
parent on, with one step less. -/
theorem lacks_iff (h : s.find? n = some c) (hbound : bound ≠ some 0) :
    s.Lacks n bound ↔
      s.Incomparable n c ∨
      ∃ p others, c.parents = p :: others ∧ p < n ∧ s.Lacks p (bound.map (· - 1)) := by
  have hless (i : Nat) : (∀ m ∈ bound.map (· - 1), i < m) ↔ ∀ m ∈ bound, i + 1 < m := by
    cases bound with
    | none => simp
    | some m =>
      simp only [Option.map_some, Option.mem_def, Option.some.injEq, forall_eq']
      omega
  constructor
  · rintro ⟨i, k, d, hleads, hi, hincomparable⟩
    cases hleads with
    | here found =>
      obtain rfl := Option.some.inj (h.symm.trans found)
      exact .inl hincomparable
    | back found parents lt older =>
      obtain rfl := Option.some.inj (h.symm.trans found)
      exact .inr ⟨_, _, parents, lt, _, k, d, older, (hless _).mpr hi, hincomparable⟩
  · rintro (hincomparable | ⟨p, others, parents, lt, i, k, d, older, hi, hincomparable⟩)
    · refine ⟨0, n, c, .here h, ?_, hincomparable⟩
      intro m hm
      apply Nat.pos_of_ne_zero
      rintro rfl
      exact hbound hm
    · exact ⟨i + 1, k, d, .back h parents lt older, (hless i).mp hi, hincomparable⟩

end Store

namespace History

variable {workingTree : Text} {s : Store} {n : Nat} {c : Commit} {bound : Option Nat} {t : Tally}

/-- A walk arrives exactly where nothing that it needs is lacking. -/
theorem exists_arrives_iff (h : s.find? n = some c) :
    (∃ result, Arrives workingTree s n bound t result) ↔ ¬s.Lacks n bound := by
  -- on the number of the commit, as first parents have smaller ones
  induction n using Nat.strongRecOn generalizing c bound t with
  | ind n ih =>
    by_cases hbound : bound = some 0
    · subst hbound
      exact iff_of_true ⟨_, (arrives_zero_iff h).mpr rfl⟩ Store.not_lacks_zero
    rw [Store.lacks_iff h hbound]
    cases hparents : c.parents with
    | nil =>
      apply iff_of_true ⟨_, (arrives_root_iff h hbound hparents).mpr rfl⟩
      rintro (⟨p, others, hcons, _⟩ | ⟨p, others, hcons, _⟩)
      · rw [hparents] at hcons
        cases hcons
      · cases hcons
    | cons p others =>
      by_cases hmissing : p < n → s.find? p = none
      · apply iff_of_false
        · rintro ⟨result, harrives⟩
          exact not_arrives h hbound hparents hmissing harrives
        · exact not_not_intro (.inl ⟨p, others, hparents, .inl hmissing⟩)
      obtain ⟨hlt, hthere⟩ := Classical.not_imp.mp hmissing
      obtain ⟨parent, hfound⟩ := Option.ne_none_iff_exists'.mp hthere
      have holder : (∃ q others', p :: others = q :: others' ∧ q < n ∧
          s.Lacks q (bound.map (· - 1))) ↔ s.Lacks p (bound.map (· - 1)) := by
        constructor
        · rintro ⟨q, others', hcons, _, hlacks⟩
          obtain ⟨rfl, rfl⟩ := List.cons.inj hcons
          exact hlacks
        · intro hlacks
          exact ⟨p, others, rfl, hlt, hlacks⟩
      rw [holder, not_or, Store.incomparable_iff hparents hlt hfound, Classical.not_not,
        ← ih p hlt hfound (t := Tally.add workingTree t (Comparison.diff ⟨c, parent⟩))]
      simp only [arrives_child_iff h hbound hparents hlt hfound, exists_and_left]

end History

/-- Where nothing is lacking from a commit on, its line is there within the bound, with the
trees that are needed. -/
theorem exists_within_of_not_lacks {s : Store} {n : Nat} {c : Commit} {bound : Option Nat}
    (hfound : s.find? n = some c) (h : ¬s.Lacks n bound) :
    ∃ part, s.Within n bound part ∧ Readable part := by
  have harrives : ∃ result, History.Arrives [] s n bound ⟨.empty, 0⟩ result :=
    (History.exists_arrives_iff hfound).mpr h
  obtain ⟨result, part, last, hwithin, hreadable, _⟩ := harrives
  exact ⟨part, hwithin, hreadable⟩

/-! ## Directories that cannot be used -/

/-- There is no repository to walk in a directory. -/
inductive Unusable (find : Finder) (directory : Text) : Prop where
  /-- No repository is found for the directory. -/
  | absent {reason : Text} (found : find directory = .error reason)
  /-- The repository has no working tree. -/
  | bare {r : Repository} (found : find directory = .ok r) (tree : r.workingTree = none)
  /-- HEAD does not resolve. -/
  | unresolved {r : Repository} {reason : Text} (found : find directory = .ok r)
    (head : r.readHead = .error reason)
  /-- What HEAD names leads to no commit that is there. -/
  | dangling {r : Repository} {head : Head} (found : find directory = .ok r)
    (read : r.readHead = .ok head) (commit : r.objects.commit? head.id = none)

/-- The dates of all commits of the repository of a directory can be written. -/
def Dated (find : Finder) (directory : Text) : Prop :=
  ∀ r, find directory = .ok r → ∀ c ∈ r.objects.store.commits, Date.spell c.time ≠ .unwritable

/-- The repository of a directory can be walked, but an object that one of the comparisons
within the bound needs is missing. -/
def Lacking (find : Finder) (directory : Text) (bound : Option Nat) : Prop :=
  ∃ r workingTree n, find directory = .ok r ∧ r.StandsAt workingTree n ∧
    r.objects.store.Lacks n bound

section Run

variable {verbosity : Verbosity} {find : Finder} {directory : Text} {bound : Option Nat}
  {r : Repository} {workingTree : Text} {n : Nat}

/-- A directory is unusable, or its repository stands at a commit. -/
theorem unusable_or_standsAt (find : Finder) (directory : Text) :
    Unusable find directory ∨
      ∃ r workingTree n, find directory = .ok r ∧ r.StandsAt workingTree n := by
  cases hfind : find directory with
  | error reason => exact .inl (.absent hfind)
  | ok r =>
    cases htree : r.workingTree with
    | none => exact .inl (.bare hfind htree)
    | some workingTree =>
      cases hhead : r.readHead with
      | error reason => exact .inl (.unresolved hfind hhead)
      | ok head =>
        cases hcommit : r.objects.commit? head.id with
        | none => exact .inl (.dangling hfind hhead hcommit)
        | some found =>
          exact .inr ⟨r, workingTree, found.1, rfl, htree, head, found.2, hhead, hcommit⟩

theorem not_unusable (hfind : find directory = .ok r) (hstands : r.StandsAt workingTree n) :
    ¬Unusable find directory := by
  obtain ⟨htree, head, c, hhead, hcommit⟩ := hstands
  intro h
  cases h with
  | absent found => cases hfind.symm.trans found
  | bare found tree =>
    obtain rfl := Except.ok.inj (hfind.symm.trans found)
    cases htree.symm.trans tree
  | unresolved found read =>
    obtain rfl := Except.ok.inj (hfind.symm.trans found)
    cases hhead.symm.trans read
  | dangling found read commit =>
    obtain rfl := Except.ok.inj (hfind.symm.trans found)
    obtain rfl := Except.ok.inj (hhead.symm.trans read)
    cases hcommit.symm.trans commit

theorem value_of_unusable (h : Unusable find directory) :
    ∃ reason, (gatherChanges verbosity find directory bound).run.value =
      .error (.error (.repository directory reason)) := by
  cases hopen : (find directory).bind Repository.opened with
  | error reason => exact ⟨reason, value_of_not_opened hopen⟩
  | ok o =>
    -- a repository that opens stands at a commit
    cases hfind : find directory with
    | error reason =>
      rw [hfind] at hopen
      cases hopen
    | ok r =>
      rw [hfind] at hopen
      obtain ⟨head, n, c, htree, hhead, hcommit, _⟩ := Repository.opened_eq_ok_iff.mp hopen
      exact absurd h (not_unusable hfind ⟨htree, head, c, hhead, hcommit⟩)

/-- The end of a run in a repository that stands at a commit is that of its walk. -/
theorem value_of_standsAt (verbosity : Verbosity) (bound : Option Nat)
    (hfind : find directory = .ok r) (hstands : r.StandsAt workingTree n) :
    ∃ c, r.objects.store.find? n = some c ∧
      (gatherChanges verbosity find directory bound).run.value =
        (History.walk workingTree bound ⟨.empty, 0⟩ (r.objects.store.lineage n c)).run.value.bind
          (History.ending verbosity) := by
  obtain ⟨branch, c, hfound, hopened⟩ := hstands.opened
  have hopen : (find directory).bind Repository.opened =
      .ok ⟨workingTree, branch, r.objects.store.lineage n c⟩ := by
    rw [hfind]
    exact hopened
  exact ⟨c, hfound, value_of_opened hopen⟩

theorem value_of_lacks (hfind : find directory = .ok r) (hstands : r.StandsAt workingTree n)
    (h : r.objects.store.Lacks n bound) :
    ∃ cause, (gatherChanges verbosity find directory bound).run.value =
      .error (.error (.history cause)) := by
  obtain ⟨c, hfound, hvalue⟩ := value_of_standsAt verbosity bound hfind hstands
  rw [hvalue]
  cases hwalk : (History.walk workingTree bound ⟨.empty, 0⟩
      (r.objects.store.lineage n c)).run.value with
  | error f =>
    obtain ⟨id, rfl⟩ := History.value_walk_eq_error hwalk
    exact ⟨.missing id, rfl⟩
  | ok result =>
    have harrives := (History.value_walk_eq_ok_iff hfound).mp hwalk
    exact absurd h ((History.exists_arrives_iff hfound).mp ⟨result, harrives⟩)

/-- Where nothing is lacking, there is a part of the history to look at. -/
theorem covers_of_not_lacks (hfind : find directory = .ok r)
    (hstands : r.StandsAt workingTree n) (h : ¬r.objects.store.Lacks n bound) :
    ∃ part, Covers find directory bound workingTree part := by
  obtain ⟨_, c, hfound, _⟩ := hstands.opened
  obtain ⟨part, hwithin, hreadable⟩ := exists_within_of_not_lacks hfound h
  exact ⟨part, r, n, hfind, hstands, hwithin, hreadable⟩

/-- No date is in the way where those of all commits can be written. -/
theorem not_stumbles_of_covers {part : List Commit}
    (hdates : Dated find directory)
    (h : Covers find directory bound workingTree part) : ¬Stumbles verbosity part := by
  obtain ⟨r, n, hfind, _, hwithin, _⟩ := h
  apply not_stumbles
  intro c hc
  exact hdates r hfind c (hwithin.line.subset_commits hc)

/-- A run has one of three endings, and each has its own condition. -/
theorem gatherChanges_fails_cases (verbosity : Verbosity) (bound : Option Nat)
    (hdates : Dated find directory) :
    (Unusable find directory ∧
      ∃ reason, (gatherChanges verbosity find directory bound).run.value =
        .error (.error (.repository directory reason))) ∨
    (¬Unusable find directory ∧ Lacking find directory bound ∧
      ∃ cause, (gatherChanges verbosity find directory bound).run.value =
        .error (.error (.history cause))) ∨
    (¬Unusable find directory ∧ ¬Lacking find directory bound ∧
      ∃ found, (gatherChanges verbosity find directory bound).run.value = .ok found) := by
  rcases unusable_or_standsAt find directory with hunusable | ⟨r, workingTree, n, hfind, hstands⟩
  · exact .inl ⟨hunusable, value_of_unusable hunusable⟩
  have husable := not_unusable hfind hstands
  by_cases hlacking : Lacking find directory bound
  · obtain ⟨r', workingTree', n', hfind', hstands', hlacks⟩ := hlacking
    exact .inr (.inl ⟨husable, ⟨r', workingTree', n', hfind', hstands', hlacks⟩,
      value_of_lacks hfind' hstands' hlacks⟩)
  · have hcomplete : ¬r.objects.store.Lacks n bound := fun h =>
      hlacking ⟨r, workingTree, n, hfind, hstands, h⟩
    obtain ⟨part, hcovers⟩ := covers_of_not_lacks hfind hstands hcomplete
    have hdate : ¬Stumbles verbosity part := not_stumbles_of_covers hdates hcovers
    exact .inr (.inr ⟨husable, hlacking, _, (value_of_covers hcovers).1 hdate⟩)

/-- An error about a directory is about the one that was given, and says that it is
unusable. -/
theorem value_eq_repository_iff {named : Text}
    (hdates : Dated find directory) :
    (∃ reason, (gatherChanges verbosity find directory bound).run.value =
      .error (.error (.repository named reason))) ↔
      named = directory ∧ Unusable find directory := by
  constructor
  · rintro ⟨reason, h⟩
    rcases gatherChanges_fails_cases verbosity bound hdates with
      ⟨hunusable, reason', hvalue⟩ | ⟨_, _, cause, hvalue⟩ | ⟨_, _, found, hvalue⟩
    · cases h.symm.trans hvalue
      exact ⟨rfl, hunusable⟩
    · cases h.symm.trans hvalue
    · cases h.symm.trans hvalue
  · rintro ⟨rfl, hunusable⟩
    exact value_of_unusable hunusable

theorem value_eq_history_iff (hdates : Dated find directory) :
    (∃ cause, (gatherChanges verbosity find directory bound).run.value =
      .error (.error (.history cause))) ↔
      ¬Unusable find directory ∧ Lacking find directory bound := by
  constructor
  · rintro ⟨cause, h⟩
    rcases gatherChanges_fails_cases verbosity bound hdates with
      ⟨_, reason, hvalue⟩ | ⟨husable, hlacking, _⟩ | ⟨_, _, found, hvalue⟩
    · cases h.symm.trans hvalue
    · exact ⟨husable, hlacking⟩
    · cases h.symm.trans hvalue
  · rintro ⟨_, r, workingTree, n, hfind, hstands, hlacks⟩
    exact value_of_lacks hfind hstands hlacks

theorem value_eq_ok_iff (hdates : Dated find directory) :
    (∃ found, (gatherChanges verbosity find directory bound).run.value = .ok found) ↔
      ¬Unusable find directory ∧ ¬Lacking find directory bound := by
  rcases gatherChanges_fails_cases verbosity bound hdates with
    ⟨hunusable, reason, hvalue⟩ | ⟨_, hlacking, cause, hvalue⟩ | ⟨husable, hcomplete, hvalue⟩
  · apply iff_of_false
    · rintro ⟨found, h⟩
      cases h.symm.trans hvalue
    · exact fun h => h.1 hunusable
  · apply iff_of_false
    · rintro ⟨found, h⟩
      cases h.symm.trans hvalue
    · exact fun h => h.2 hlacking
  · exact iff_of_true hvalue ⟨husable, hcomplete⟩

end Run

/-- **A run fails because its directory is unusable, or because an object is missing that
its comparisons need, and for no other reason.** The error about a directory names the one
that was given. A run that makes no comparison lacks nothing, and one that has what is
within its bound succeeds, whatever is lost behind it. -/
theorem fails_exactly_where {verbosity : Verbosity} {find : Finder} {directory : Text}
    {bound : Option Nat}
    (hdates : Dated find directory) :
    (∀ named, (∃ reason, (gatherChanges verbosity find directory bound).run.value =
        .error (.error (.repository named reason))) ↔
      named = directory ∧ Unusable find directory) ∧
    ((∃ cause, (gatherChanges verbosity find directory bound).run.value =
        .error (.error (.history cause))) ↔
      ¬Unusable find directory ∧ Lacking find directory bound) ∧
    ((∃ found, (gatherChanges verbosity find directory bound).run.value = .ok found) ↔
      ¬Unusable find directory ∧ ¬Lacking find directory bound) ∧
    (bound = some 0 → ∀ cause, (gatherChanges verbosity find directory bound).run.value ≠
      .error (.error (.history cause))) ∧
    ∀ r workingTree n part, find directory = .ok r → r.StandsAt workingTree n →
      r.objects.store.Within n bound part → Readable part →
      ∃ found, (gatherChanges verbosity find directory bound).run.value = .ok found := by
  have hhistory : (∃ cause, (gatherChanges verbosity find directory bound).run.value =
      .error (.error (.history cause))) ↔
      ¬Unusable find directory ∧ Lacking find directory bound := value_eq_history_iff hdates
  refine ⟨fun named => value_eq_repository_iff hdates, hhistory, value_eq_ok_iff hdates, ?_, ?_⟩
  · rintro rfl cause hvalue
    obtain ⟨_, r, workingTree, n, _, _, hlacks⟩ := hhistory.mp ⟨cause, hvalue⟩
    exact Store.not_lacks_zero hlacks
  · intro r workingTree n part hfind hstands hwithin hreadable
    have hcovers : Covers find directory bound workingTree part :=
      ⟨r, n, hfind, hstands, hwithin, hreadable⟩
    exact ⟨_, (value_of_covers hcovers).1 (not_stumbles_of_covers hdates hcovers)⟩

/-! ## A history whose root is lost -/

namespace Frayed

def older : Commit := .plain 'b' [0] (some [])

def tip : Commit := .plain 'c' [1] (some [(['f'], .file [] false)])

def repository : Repository := .detached ['/'] ⟨[.plain 'a' [] none, older, tip], [0]⟩

/-- Finds the repository at the root and nothing below it. -/
def find : Finder := fun path => if path = ['/'] then .ok repository else .error []

theorem standsAt : repository.StandsAt ['/'] 2 := ⟨rfl, _, tip, rfl, rfl⟩

theorem dated (directory : Text) : Dated find directory := by
  intro r hr
  unfold find at hr
  split at hr
  · obtain rfl := Except.ok.inj hr
    decide
  · cases hr

theorem lacking : Lacking find ['/'] none := by
  have hleads : repository.objects.store.Leads 2 1 1 older := .back rfl rfl (by decide) (.here rfl)
  exact ⟨repository, ['/'], 2, rfl, standsAt, 1, 1, older, hleads, by simp,
    0, [], rfl, .inl fun _ => rfl⟩

end Frayed

/-- One comparison needs nothing of the lost root, the next one does; and another directory
has no history at all. -/
theorem fails_exactly_where_frayed :
    (∃ found, (gatherChanges (.upTo .info) Frayed.find ['/'] (some 1)).run.value = .ok found) ∧
    (∃ cause, (gatherChanges (.upTo .info) Frayed.find ['/'] none).run.value =
      .error (.error (.history cause))) ∧
    ∃ reason, (gatherChanges (.upTo .info) Frayed.find ['x'] none).run.value =
      .error (.error (.repository ['x'] reason)) := by
  refine ⟨?_, ?_, ?_⟩
  · have hwithin : Frayed.repository.objects.store.Within 2 (some 1)
        [Frayed.tip, Frayed.older] := ⟨.more rfl rfl (by decide) (.one rfl), .inl rfl⟩
    obtain ⟨_, _, _, _, hcovered⟩ := fails_exactly_where (Frayed.dated _)
    exact hcovered _ _ _ _ rfl Frayed.standsAt hwithin (by decide)
  · have husable : ¬Unusable Frayed.find ['/'] := not_unusable rfl Frayed.standsAt
    exact (fails_exactly_where (Frayed.dated _)).2.1.mpr ⟨husable, Frayed.lacking⟩
  · exact ((fails_exactly_where (Frayed.dated _)).1 _).mpr ⟨rfl, .absent rfl⟩

end Git

end LoudHeaders
