import LoudHeaders.Git.History
import LoudHeaders.Proofs.Git.Line
import LoudHeaders.Proofs.Session

/-
  What a walk along the history comes to.

  A walk compares each commit with its first parent and takes the difference up. Given
  the line within its bound, its result is a closed form: the differences of the
  comparisons, taken up in order from what was there (`along`), the commit the
  line ends with, and whether the walk met it as the root, which is so exactly if the
  bound allows one more step (`value_walk_eq_ok_iff`). A walk that does not get there
  misses an object (`value_walk_eq_error`). In no case is a program called
  (`quiet_walk`). All three are inductions along the lineage, one commit at a time.
-/

namespace LoudHeaders

namespace Git

open Session (Quiet)
open Store (EndsAtRoot Within steps)

/-- The tree of a commit; one that is missing has no entries. -/
def Commit.entries (c : Commit) : Tree := c.tree.getD []

/-- A commit and its first parent, to be compared. -/
structure Comparison where
  commit : Commit
  parent : Commit

namespace Comparison

/-- What a path holds before the commit. -/
def before (x : Comparison) (p : Text) : Option Entry := x.parent.entries.get? p

/-- What a path holds with the commit. -/
def after (x : Comparison) (p : Text) : Option Entry := x.commit.entries.get? p

/-- The paths in which the two differ. -/
def diff (x : Comparison) : List Text := Tree.diff x.parent.entries x.commit.entries

/-- Both trees are there. -/
def Readable (x : Comparison) : Prop := x.parent.tree.isSome = true ∧ x.commit.tree.isSome = true

instance (x : Comparison) : Decidable x.Readable :=
  inferInstanceAs (Decidable (x.parent.tree.isSome = true ∧ x.commit.tree.isSome = true))

end Comparison

/-- The comparisons of commits with the next. -/
def comparisons : List Commit → List Comparison
  | c :: d :: rest => ⟨c, d⟩ :: comparisons (d :: rest)
  | _ => []

/-- All trees that the comparisons need are there. -/
def Readable (part : List Commit) : Prop := ∀ x ∈ comparisons part, x.Readable

instance (part : List Commit) : Decidable (Readable part) :=
  inferInstanceAs (Decidable (∀ x ∈ comparisons part, x.Readable))

theorem length_comparisons (part : List Commit) : (comparisons part).length = steps part := by
  unfold steps
  induction part with
  | nil => rfl
  | cons c rest ih =>
    cases rest with
    | nil => rfl
    | cons d more =>
      rw [comparisons, List.length_cons, ih]
      rfl

theorem mem_of_mem_comparisons {part : List Commit} {x : Comparison} (h : x ∈ comparisons part) :
    x.parent ∈ part ∧ x.commit ∈ part := by
  induction part with
  | nil => cases h
  | cons c rest ih =>
    cases rest with
    | nil => cases h
    | cons d more =>
      rcases List.mem_cons.mp h with rfl | h
      · exact ⟨List.mem_cons_of_mem _ List.mem_cons_self, List.mem_cons_self⟩
      · obtain ⟨hparent, hcommit⟩ := ih h
        exact ⟨List.mem_cons_of_mem _ hparent, List.mem_cons_of_mem _ hcommit⟩

theorem readable_of_trees {part : List Commit} (h : ∀ c ∈ part, c.tree.isSome = true) :
    Readable part := fun _ hx =>
  ⟨h _ (mem_of_mem_comparisons hx).1, h _ (mem_of_mem_comparisons hx).2⟩

namespace History

variable {workingTree : Text} {bound : Option Nat} {t : Tally} {c : Commit}

/-- What is counted along some commits, on top of what was counted before. -/
def along (workingTree : Text) (t : Tally) (part : List Commit) : Tally :=
  (comparisons part).foldl (fun t x => Tally.add workingTree t x.diff) t

theorem walked_along (workingTree : Text) (t : Tally) (part : List Commit) :
    (along workingTree t part).walked = t.walked + steps part := by
  rw [← length_comparisons, along]
  induction comparisons part generalizing t with
  | nil => rfl
  | cons x rest ih =>
    have hadd : (Tally.add workingTree t x.diff).walked = t.walked + 1 := rfl
    rw [List.foldl_cons, ih, hadd, List.length_cons]
    omega

/-! ## One commit -/

theorem value_touched {x : Comparison} (h : x.Readable) :
    (touched x.parent x.commit).run.value = .ok x.diff := by
  obtain ⟨old, hold⟩ := Option.isSome_iff_exists.mp h.1
  obtain ⟨new, hnew⟩ := Option.isSome_iff_exists.mp h.2
  have hparent : (treeOf x.parent).run.value = .ok old := by rw [treeOf, hold]; rfl
  have hcommit : (treeOf x.commit).run.value = .ok new := by rw [treeOf, hnew]; rfl
  rw [touched, Session.value_bind_of_ok hparent, Session.value_bind_of_ok hcommit,
    Comparison.diff, Commit.entries, Commit.entries, hold, hnew]
  rfl

/-- A comparison that lacks a tree says whose it is. -/
theorem value_touched_of_missing {x : Comparison} (h : ¬x.Readable) :
    ∃ id, (touched x.parent x.commit).run.value = .error (.error (.history (.missing id))) := by
  cases hold : x.parent.tree with
  | none =>
    have hparent : (treeOf x.parent).run.value =
        .error (.error (.history (.missing x.parent.id))) := by
      rw [treeOf, hold]
      rfl
    exact ⟨x.parent.id, Session.value_bind_of_error hparent⟩
  | some old =>
    have hparent : (treeOf x.parent).run.value = .ok old := by rw [treeOf, hold]; rfl
    have hnew : x.commit.tree = none := by
      rw [← Option.not_isSome_iff_eq_none]
      exact fun hnew => h ⟨by rw [hold]; rfl, hnew⟩
    have hcommit : (treeOf x.commit).run.value =
        .error (.error (.history (.missing x.commit.id))) := by
      rw [treeOf, hnew]
      rfl
    refine ⟨x.commit.id, ?_⟩
    rw [touched, Session.value_bind_of_ok hparent]
    exact Session.value_bind_of_error hcommit

theorem exhausted_iff : exhausted bound = true ↔ bound = some 0 := beq_iff_eq

theorem value_walk_zero (l : Lineage) :
    (walk workingTree (some 0) t l).run.value = .ok (t, false, l.head) := by
  cases l <;> rfl

theorem value_walk_root (h : bound ≠ some 0) :
    (walk workingTree bound t (.root c)).run.value = .ok (t, true, c) := by
  rw [walk, if_neg (mt exhausted_iff.mp h)]
  rfl

theorem value_walk_broken (h : bound ≠ some 0) (missing : Text) :
    (walk workingTree bound t (.broken c missing)).run.value =
      .error (.error (.history (.missing missing))) := by
  rw [walk, if_neg (mt exhausted_iff.mp h)]
  rfl

/-- A step of the walk: the paths that a commit touches are taken up, and the rest of
the bound is left for its parent. -/
theorem value_walk_child (h : bound ≠ some 0) (older : Lineage) :
    (walk workingTree bound t (.child c older)).run.value =
      (touched older.head c).run.value.bind fun paths =>
        (walk workingTree (bound.map (· - 1)) (Tally.add workingTree t paths) older).run.value := by
  have hlog : (logLine (processingLine c)).run.value = .ok () := rfl
  have hlines (paths : List Text) :
      (paths.forM fun p => logLine (touchedLine p)).run.value = .ok () :=
    (Session.Ends.forM_log paths .history .debug fun p => (touchedLine p).message).value_eq
  rw [walk, if_neg (mt exhausted_iff.mp h), Session.value_bind_of_ok hlog, Session.value_bind]
  congr 1
  funext paths
  rw [Session.value_bind_of_ok (hlines paths)]
  rfl

/-! ## The whole walk -/

variable {s : Store} {n : Nat} {result : Tally × Bool × Commit}

/-- A result is that of the line within a bound, if the trees it needs are there: the
tally along the line, whether one more step was allowed at its end, and its last
commit. -/
def Arrives (workingTree : Text) (s : Store) (n : Nat) (bound : Option Nat) (t : Tally)
    (result : Tally × Bool × Commit) : Prop :=
  ∃ part last, s.Within n bound part ∧ Readable part ∧ part.getLast? = some last ∧
    result = (along workingTree t part, bound != some (steps part), last)

theorem arrives_zero_iff (h : s.find? n = some c) :
    Arrives workingTree s n (some 0) t result ↔ result = (t, false, c) := by
  constructor
  · rintro ⟨part, last, hwithin, _, hlast, rfl⟩
    obtain rfl := (Store.within_zero_iff h).mp hwithin
    obtain rfl := Option.some.inj hlast
    rfl
  · rintro rfl
    exact ⟨[c], c, (Store.within_zero_iff h).mpr rfl, fun x hx => absurd hx List.not_mem_nil,
      rfl, rfl⟩

theorem arrives_root_iff (h : s.find? n = some c) (hbound : bound ≠ some 0)
    (hparents : c.parents = []) :
    Arrives workingTree s n bound t result ↔ result = (t, true, c) := by
  have hroot : (bound != some (steps [c])) = true := bne_iff_ne.mpr hbound
  constructor
  · rintro ⟨part, last, hwithin, _, hlast, rfl⟩
    rcases (Store.within_iff h hbound).mp hwithin with ⟨_, rfl⟩ | ⟨p, others, rest, hcons, _⟩
    · obtain rfl := Option.some.inj hlast
      rw [hroot]
      rfl
    · rw [hparents] at hcons
      cases hcons
  · rintro rfl
    refine ⟨[c], c, (Store.within_iff h hbound).mpr (.inl ⟨hparents, rfl⟩),
      fun x hx => absurd hx List.not_mem_nil, rfl, ?_⟩
    rw [hroot]
    rfl

/-- With a first parent, the walk arrives where it arrives from there, after one
comparison and with one step less. -/
theorem arrives_child_iff (h : s.find? n = some c) (hbound : bound ≠ some 0) {p : Nat}
    {others : List Nat} {parent : Commit} (hparents : c.parents = p :: others) (hlt : p < n)
    (hfound : s.find? p = some parent) :
    Arrives workingTree s n bound t result ↔
      Comparison.Readable ⟨c, parent⟩ ∧
        Arrives workingTree s p (bound.map (· - 1))
          (Tally.add workingTree t (Comparison.diff ⟨c, parent⟩)) result := by
  -- the comparison uses up one step of the bound and is one step of the part
  have hsteps (rest : List Commit) :
      (bound != some (steps (c :: parent :: rest))) =
        (bound.map (· - 1) != some (steps (parent :: rest))) := by
    cases bound with
    | none => rfl
    | some m =>
      have hm : m ≠ 0 := fun hm => hbound (congrArg some hm)
      rw [Bool.eq_iff_iff, bne_iff_ne, bne_iff_ne]
      simp only [steps, List.length_cons, ne_eq, Option.some.injEq, Option.map_some]
      omega
  have hreadable (rest : List Commit) : Readable (c :: parent :: rest) ↔
      Comparison.Readable ⟨c, parent⟩ ∧ Readable (parent :: rest) := List.forall_mem_cons
  constructor
  · rintro ⟨part, last, hwithin, htrees, hlast, rfl⟩
    rcases (Store.within_iff h hbound).mp hwithin with
      ⟨hnil, _⟩ | ⟨q, others', rest, hcons, _, rfl, hrest⟩
    · rw [hparents] at hnil
      cases hnil
    obtain ⟨rfl, rfl⟩ := List.cons.inj (hparents.symm.trans hcons)
    obtain ⟨d, more, rfl⟩ := List.exists_cons_of_ne_nil hrest.line.ne_nil
    obtain rfl := Option.some.inj (hfound.symm.trans hrest.line.head_eq.symm)
    obtain ⟨hfirst, hothers⟩ := (hreadable more).mp htrees
    rw [List.getLast?_cons_cons] at hlast
    exact ⟨hfirst, _, _, hrest, hothers, hlast, by rw [hsteps]; rfl⟩
  · rintro ⟨hfirst, part, last, hwithin, hothers, hlast, rfl⟩
    obtain ⟨d, more, rfl⟩ := List.exists_cons_of_ne_nil hwithin.line.ne_nil
    obtain rfl := Option.some.inj (hfound.symm.trans hwithin.line.head_eq.symm)
    refine ⟨c :: parent :: more, last, ?_, (hreadable more).mpr ⟨hfirst, hothers⟩, ?_, ?_⟩
    · exact (Store.within_iff h hbound).mpr (.inr ⟨p, others, _, hparents, hlt, rfl, hwithin⟩)
    · rw [List.getLast?_cons_cons]
      exact hlast
    · rw [hsteps]
      rfl

/-- Nothing is arrived at behind a first parent that is not there. -/
theorem not_arrives (h : s.find? n = some c) (hbound : bound ≠ some 0) {p : Nat}
    {others : List Nat} (hparents : c.parents = p :: others) (hmissing : p < n → s.find? p = none) :
    ¬Arrives workingTree s n bound t result := by
  rintro ⟨part, last, hwithin, _⟩
  rcases (Store.within_iff h hbound).mp hwithin with
    ⟨hnil, _⟩ | ⟨q, others', rest, hcons, hlt, _, hrest⟩
  · rw [hparents] at hnil
    cases hnil
  · obtain ⟨rfl, rfl⟩ := List.cons.inj (hparents.symm.trans hcons)
    have hhead := hrest.line.head_eq
    rw [hmissing hlt, List.head?_eq_none_iff] at hhead
    exact hrest.line.ne_nil hhead

/-- **A walk succeeds exactly with what its bound leaves to be looked at.** -/
theorem value_walk_eq_ok_iff (h : s.find? n = some c) :
    (walk workingTree bound t (s.lineage n c)).run.value = .ok result ↔
      Arrives workingTree s n bound t result := by
  -- on the number of the commit, since first parents have smaller ones; the cases are those
  -- of the lineage
  induction n using Nat.strongRecOn generalizing c bound t with
  | ind n ih =>
    by_cases hbound : bound = some 0
    · subst hbound
      rw [value_walk_zero, Store.head_lineage, arrives_zero_iff h, Except.ok.injEq, eq_comm]
    cases hparents : c.parents with
    | nil =>
      rw [Store.lineage_root hparents, value_walk_root hbound, arrives_root_iff h hbound hparents,
        Except.ok.injEq, eq_comm]
    | cons p others =>
      by_cases hmissing : p < n → s.find? p = none
      · rw [Store.lineage_broken hparents hmissing, value_walk_broken hbound]
        exact iff_of_false (fun h => by cases h) (not_arrives h hbound hparents hmissing)
      obtain ⟨hlt, hthere⟩ := Classical.not_imp.mp hmissing
      obtain ⟨parent, hfound⟩ := Option.ne_none_iff_exists'.mp hthere
      rw [Store.lineage_child hparents hlt hfound, value_walk_child hbound, Store.head_lineage,
        arrives_child_iff h hbound hparents hlt hfound, ← ih p hlt hfound]
      by_cases hreadable : Comparison.Readable ⟨c, parent⟩
      · rw [value_touched hreadable, and_iff_right hreadable]
        rfl
      · obtain ⟨id, hid⟩ := value_touched_of_missing hreadable
        rw [hid]
        exact iff_of_false (fun h => by cases h) fun h => hreadable h.1

/-- A walk that fails lacks an object. -/
theorem value_walk_eq_error {l : Lineage} {f : Failure}
    (h : (walk workingTree bound t l).run.value = .error f) :
    ∃ id, f = .error (.history (.missing id)) := by
  induction l generalizing bound t with
  | root c =>
    by_cases hbound : bound = some 0
    · rw [hbound, value_walk_zero] at h
      cases h
    · rw [value_walk_root hbound] at h
      cases h
  | broken c missing =>
    by_cases hbound : bound = some 0
    · rw [hbound, value_walk_zero] at h
      cases h
    · rw [value_walk_broken hbound] at h
      exact ⟨missing, (Except.error.inj h).symm⟩
  | child c older ih =>
    by_cases hbound : bound = some 0
    · rw [hbound, value_walk_zero] at h
      cases h
    rw [value_walk_child hbound] at h
    by_cases hreadable : Comparison.Readable ⟨c, older.head⟩
    · rw [value_touched hreadable] at h
      exact ih h
    · obtain ⟨id, hid⟩ := value_touched_of_missing hreadable
      rw [hid] at h
      exact ⟨id, (Except.error.inj h).symm⟩

/-- What a run makes of the result of a walk. -/
def ending (verbosity : Verbosity) (result : Tally × Bool × Commit) : Except Failure Statistics :=
  if verbosity.shows .info = true ∧ Date.spell result.2.2.time = .unwritable then
    .error .unwritableDate
  else .ok { counts := result.1.counts, walked := result.1.walked, reachedRoot := result.2.1 }

theorem value_close (verbosity : Verbosity) (t : Tally) (last : Commit) :
    (close verbosity t last).run.value =
      if verbosity.shows .info = true ∧ Date.spell last.time = .unwritable then
        .error .unwritableDate
      else .ok () := by
  unfold close
  cases hspell : Date.spell last.time with
  | written date => exact (if_neg fun h => by cases h.2).symm
  | unknown => exact (if_neg fun h => by cases h.2).symm
  | unwritable =>
    by_cases hshows : verbosity.shows .info = true
    · simp [hshows]
    · simp [hshows]

theorem value_statistics (verbosity : Verbosity) (r : Repository.Opened) (bound : Option Nat) :
    (statistics verbosity r bound).run.value =
      (walk r.workingTree bound ⟨.empty, 0⟩ r.lineage).run.value.bind (ending verbosity) := by
  have hlog : (logLine (openingLine r.branch bound)).run.value = .ok () := rfl
  rw [statistics, Session.value_bind_of_ok hlog, Session.value_bind]
  congr 1
  funext result
  rw [Session.value_bind, value_close, ending]
  split <;> rfl

/-! ## No program is called -/

theorem quiet_logLine (line : LogLine) : Quiet (logLine line) := Quiet.log _ _ _

theorem quiet_treeOf (c : Commit) : Quiet (treeOf c) := by
  unfold treeOf
  cases c.tree with
  | none => exact Quiet.fail _
  | some tree => exact Quiet.pure tree

theorem quiet_touched (parent c : Commit) : Quiet (touched parent c) :=
  (quiet_treeOf parent).bind fun _ => (quiet_treeOf c).bind fun _ => Quiet.pure _

theorem quiet_walk (workingTree : Text) (bound : Option Nat) (t : Tally) (l : Lineage) :
    Quiet (walk workingTree bound t l) := by
  induction l generalizing bound t with
  | root c =>
    rw [walk]
    split
    · exact Quiet.pure _
    · exact (quiet_logLine _).bind fun _ => (quiet_logLine _).bind fun _ => Quiet.pure _
  | broken c missing =>
    rw [walk]
    split
    · exact Quiet.pure _
    · exact (quiet_logLine _).bind fun _ => Quiet.fail _
  | child c older ih =>
    have hlines (paths : List Text) : Quiet (paths.forM fun p => logLine (touchedLine p)) :=
      (Session.Ends.forM_log paths .history .debug fun p => (touchedLine p).message).calls_eq
    rw [walk]
    split
    · exact Quiet.pure _
    · refine (quiet_logLine _).bind fun _ => (quiet_touched _ _).bind fun paths => ?_
      exact (hlines paths).bind fun _ => ih _ _

theorem quiet_close (verbosity : Verbosity) (t : Tally) (last : Commit) :
    Quiet (close verbosity t last) := by
  unfold close
  split
  · exact quiet_logLine _
  · exact quiet_logLine _
  · split
    · exact Quiet.throw _
    · exact Quiet.pure _

end History

end Git

end LoudHeaders
