import LoudHeaders.Proofs.ChangeCounts
import LoudHeaders.Proofs.Git.Gathering
import LoudHeaders.Proofs.Git.Tree

/-
  What the counts of a run count.

  A comparison adds to a path what its difference names of it (`get?_add`), and a run
  adds up its comparisons (`get?_along`). So a path is counted once for each commit that
  changed its presence, kind or content, once more for each that changed its kind, and
  once for each that changed nothing but its executable bit (`counts_gathered`), and
  nothing is counted but paths of a tree below the working tree (`exists_of_get?_along`).

  The count of a path is no number of commits, then: it is at most the number of those
  that changed the path exactly if none changed its kind or only its mode. In the
  history of `Restless` two commits make a count of three.
-/

namespace LoudHeaders

namespace Git

open ChangeCounts (stored)

/-- All trees of a store are well formed. -/
def Store.WellFormed (s : Store) : Prop := ∀ c ∈ s.commits, c.entries.WellFormed

namespace Comparison

/-- The commit changed the presence, kind or content of a path. -/
def differs (x : Comparison) (p : Text) : Bool := Tree.differs (x.before p) (x.after p)

/-- The commit changed the kind of a path. -/
def changesKind (x : Comparison) (p : Text) : Bool := Tree.changesKind (x.before p) (x.after p)

/-- The commit changed the executable bit of a path and nothing else. -/
def flipsMode (x : Comparison) (p : Text) : Bool := Tree.flipsMode (x.before p) (x.after p)

/-- Both trees are well formed. -/
structure WellFormed (x : Comparison) : Prop where
  parent : x.parent.entries.WellFormed
  commit : x.commit.entries.WellFormed

theorem count_diff {x : Comparison} (h : x.WellFormed) (p : Text) :
    x.diff.count p =
      (x.differs p).toNat + (x.changesKind p).toNat + (x.flipsMode p).toNat := by
  rw [diff, Tree.count_diff h.parent.nodup h.commit.nodup, Tree.touches_eq]
  rfl

theorem isPath_of_mem_diff {x : Comparison} (h : x.WellFormed) {p : Text} (hp : p ∈ x.diff) :
    Tree.IsPath p := by
  rcases Tree.mem_paths_of_mem_diff hp with hparent | hcommit
  · exact h.parent.isPath p hparent
  · exact h.commit.isPath p hcommit

end Comparison

theorem wellFormed_of_mem_comparisons {part : List Commit}
    (h : ∀ c ∈ part, c.entries.WellFormed) {x : Comparison} (hx : x ∈ comparisons part) :
    x.WellFormed :=
  ⟨h _ (mem_of_mem_comparisons hx).1, h _ (mem_of_mem_comparisons hx).2⟩

namespace History

variable {workingTree p : Text}

/-- A comparison adds to the count of a path how often it names the path. -/
theorem get?_add {x : Comparison} (hx : x.WellFormed) (hp : Tree.IsPath p) {t : Tally} {n : Nat}
    (ht : t.counts.get? (Path.join workingTree p) = stored n) :
    (Tally.add workingTree t x.diff).counts.get? (Path.join workingTree p) =
      stored (n + x.diff.count p) := by
  -- below the working tree, paths of a tree are the same only if they are equal
  have hcount : (x.diff.map (Path.join workingTree)).countP
      (fun q => Path.same q (Path.join workingTree p)) = x.diff.count p := by
    rw [List.countP_map, List.count]
    apply List.countP_congr
    intro q hq
    rw [Function.comp_apply, Tree.same_join_iff (x.isPath_of_mem_diff hx hq) hp, beq_iff_eq]
  rw [Tally.add, ← List.foldl_map, ChangeCounts.get?_foldl_record _ _ _ _ ht, hcount]

/-- The number of times that a path is named. -/
def named (p : Text) (xs : List Comparison) : Nat :=
  xs.countP (·.differs p) + xs.countP (·.changesKind p) + xs.countP (·.flipsMode p)

theorem named_cons {x : Comparison} (hx : x.WellFormed) (p : Text) (xs : List Comparison) :
    named p (x :: xs) = x.diff.count p + named p xs := by
  have one (b : Bool) : (if b = true then 1 else 0) = b.toNat := by cases b <;> rfl
  rw [x.count_diff hx, named, named, List.countP_cons, List.countP_cons, List.countP_cons,
    one, one, one]
  omega

/-- Comparisons add to the count of a path how often they name it. -/
theorem get?_foldl_add (hp : Tree.IsPath p) (xs : List Comparison) (hxs : ∀ x ∈ xs, x.WellFormed)
    (t : Tally) (n : Nat) (ht : t.counts.get? (Path.join workingTree p) = stored n) :
    (xs.foldl (fun t x => Tally.add workingTree t x.diff) t).counts.get?
      (Path.join workingTree p) = stored (n + named p xs) := by
  induction xs generalizing t n with
  | nil => exact ht
  | cons x rest ih =>
    obtain ⟨hx, hrest⟩ := List.forall_mem_cons.mp hxs
    rw [List.foldl_cons, ih hrest _ _ (get?_add hx hp ht), named_cons hx, Nat.add_assoc]

theorem get?_along {part : List Commit} (h : ∀ c ∈ part, c.entries.WellFormed)
    (hp : Tree.IsPath p) :
    (along workingTree ⟨.empty, 0⟩ part).counts.get? (Path.join workingTree p) =
      stored (named p (comparisons part)) := by
  have hxs : ∀ x ∈ comparisons part, x.WellFormed := fun _ => wellFormed_of_mem_comparisons h
  rw [along, get?_foldl_add hp _ hxs _ 0 rfl, Nat.zero_add]

/-- The counts are those of the paths that the comparisons name, one after the other. -/
theorem counts_along (workingTree : Text) (part : List Commit) :
    (along workingTree ⟨.empty, 0⟩ part).counts =
      (((comparisons part).flatMap Comparison.diff).map (Path.join workingTree)).foldl
        ChangeCounts.record .empty := by
  have run (xs : List Comparison) (t : Tally) :
      (xs.foldl (fun t x => Tally.add workingTree t x.diff) t).counts =
        ((xs.flatMap Comparison.diff).map (Path.join workingTree)).foldl
          ChangeCounts.record t.counts := by
    induction xs generalizing t with
    | nil => rfl
    | cons x rest ih =>
      have hadd : (Tally.add workingTree t x.diff).counts =
          (x.diff.map (Path.join workingTree)).foldl ChangeCounts.record t.counts :=
        List.foldl_map.symm
      rw [List.foldl_cons, ih, List.flatMap_cons, List.map_append, List.foldl_append, hadd]
  exact run _ _

/-- What is counted is counted at a path of a tree, in the working tree. -/
theorem exists_of_get?_along {workingTree q : Text} {part : List Commit} {k : Nat}
    (h : ∀ c ∈ part, c.entries.WellFormed)
    (hq : (along workingTree ⟨.empty, 0⟩ part).counts.get? q = some k) :
    1 ≤ k ∧ ∃ p, Tree.IsPath p ∧ Path.same (Path.join workingTree p) q = true := by
  rw [counts_along] at hq
  obtain ⟨hpos, named, hnamed, hsame⟩ := ChangeCounts.exists_of_get?_foldl_record hq
  obtain ⟨p, hp, rfl⟩ := List.mem_map.mp hnamed
  obtain ⟨x, hx, hdiff⟩ := List.mem_flatMap.mp hp
  exact ⟨hpos, p, x.isPath_of_mem_diff (wellFormed_of_mem_comparisons h hx) hdiff, hsame⟩

/-- No path is counted more often than it was changed, as long as no change was one of
its kind or only of its mode. -/
theorem named_le_iff (p : Text) (xs : List Comparison) :
    named p xs ≤ xs.countP (·.differs p) ↔
      ∀ x ∈ xs, x.changesKind p = false ∧ x.flipsMode p = false := by
  have hzero : named p xs ≤ xs.countP (·.differs p) ↔
      xs.countP (·.changesKind p) = 0 ∧ xs.countP (·.flipsMode p) = 0 := by
    unfold named
    omega
  rw [hzero, List.countP_eq_zero, List.countP_eq_zero]
  simp only [Bool.not_eq_true]
  constructor
  · rintro ⟨hkind, hmode⟩ x hx
    exact ⟨hkind x hx, hmode x hx⟩
  · intro h
    exact ⟨fun x hx => (h x hx).1, fun x hx => (h x hx).2⟩

end History

/-- Statistics say what the commits of a part changed below a working tree. -/
structure Statistics.Account (found : Statistics) (workingTree : Text) (part : List Commit) :
    Prop where
  /-- All comparisons were walked. -/
  walked : found.walked = (comparisons part).length
  /-- A path counts once for each commit that changed it, once more for each that
  changed its kind, and once for each that changed its mode alone. -/
  count : ∀ p, Tree.IsPath p → found.counts.get? (Path.join workingTree p) =
    stored ((comparisons part).countP (·.differs p) + (comparisons part).countP (·.changesKind p) +
      (comparisons part).countP (·.flipsMode p))
  /-- So the commits that changed it bound its count only if there are none of the other
  two sorts. -/
  bounded_iff : ∀ p, Tree.IsPath p →
    ((found.counts.get? (Path.join workingTree p)).getD 0 ≤
        (comparisons part).countP (·.differs p) ↔
      ∀ x ∈ comparisons part, x.changesKind p = false ∧ x.flipsMode p = false)

theorem account_along {workingTree : Text} {bound : Option Nat} {part : List Commit}
    (h : ∀ c ∈ part, c.entries.WellFormed) :
    (Statistics.along workingTree bound part).Account workingTree part where
  walked := (length_comparisons part).symm
  count _ hp := History.get?_along h hp
  bounded_iff p hp := by
    rw [Statistics.along, History.get?_along h hp, ChangeCounts.getD_stored]
    exact History.named_le_iff p _

/-! ## A history in which a file becomes executable and then a link -/

namespace Restless

def original : Commit := .plain 'a' [] (some [(['a'], .file ['0'] false)])

def executable : Commit := .plain 'b' [0] (some [(['a'], .file ['0'] true)])

def link : Commit := .plain 'c' [1] (some [(['a'], .link ['0'])])

/-- The commits on the way from HEAD. -/
def line : List Commit := [link, executable, original]

def repository : Repository := .detached ['/'] ⟨line.reverse, []⟩

def find : Finder := fun _ => .ok repository

theorem standsAt : repository.StandsAt ['/'] 2 := ⟨rfl, _, link, rfl, rfl⟩

theorem isPath_a : Tree.IsPath ['a'] := by
  intro piece hpiece
  obtain rfl := List.mem_singleton.mp hpiece
  exact ⟨by decide, by decide, by decide, by decide⟩

theorem wellFormed : repository.objects.store.WellFormed := by
  have hone (e : Entry) : Tree.WellFormed [(['a'], e)] := Tree.wellFormed_nil.put isPath_a e
  intro c hc
  rcases hc with _ | ⟨_, _ | ⟨_, _ | ⟨_, hc⟩⟩⟩
  · exact hone _
  · exact hone _
  · exact hone _
  · cases hc

theorem covers (bound : Option Nat) : Covers find ['/'] bound ['/'] (Store.cut bound line) := by
  have hline : repository.objects.store.Line 2 line :=
    .more rfl rfl (by decide) (.more rfl rfl (by decide) (.one rfl))
  have hroot : Store.EndsAtRoot line := by decide
  have htrees : ∀ c ∈ line, c.tree.isSome = true := by decide
  refine ⟨repository, 2, rfl, standsAt, Store.within_cut hline hroot bound, ?_⟩
  exact readable_of_trees fun c hc => htrees c (Store.cut_subset _ _ hc)

theorem value (bound : Option Nat) :
    (gatherChanges (.upTo .info) find ['/'] bound).run.value =
      .ok (.along ['/'] bound (Store.cut bound line)) := by
  have hdates : ∀ c ∈ line, Date.spell c.time ≠ .unwritable := by decide
  exact (value_of_covers (covers bound)).1
    (not_stumbles fun c hc => hdates c (Store.cut_subset _ _ hc))

theorem count_at (bound : Option Nat) {p : Text} (hp : Tree.IsPath p) :
    (Statistics.along ['/'] bound (Store.cut bound line)).counts.get? (Path.join ['/'] p) =
      stored (History.named p (comparisons (Store.cut bound line))) := by
  apply History.get?_along _ hp
  intro c hc
  exact wellFormed c (List.mem_reverse.mpr (Store.cut_subset _ _ hc))

theorem count (bound : Option Nat) :
    (Statistics.along ['/'] bound (Store.cut bound line)).counts.get? ['/', 'a'] =
      stored (History.named ['a'] (comparisons (Store.cut bound line))) := count_at bound isPath_a

end Restless

/-- **A count adds up what commits did to a path, and is no number of commits.** A run
that succeeds has looked at some part of the history, and counts each path by what the
commits of the part did to it. -/
theorem counts_gathered {verbosity : Verbosity} {find : Finder} {directory : Text}
    {bound : Option Nat} {found : Statistics}
    (hsound : ∀ r, find directory = .ok r → r.objects.store.WellFormed)
    (h : (gatherChanges verbosity find directory bound).run.value = .ok found) :
    ∃ workingTree part, Covers find directory bound workingTree part ∧
      found.Account workingTree part := by
  obtain ⟨workingTree, part, hcovers, _, rfl⟩ := gatherChanges_eq_ok_iff.mp h
  have ⟨r, n, hfind, _, hwithin, _⟩ := hcovers
  have hpart : ∀ c ∈ part, c.entries.WellFormed := fun c hc =>
    hsound r hfind c (hwithin.line.subset_commits hc)
  exact ⟨workingTree, part, hcovers, account_along hpart⟩

theorem counts_gathered_restless :
    Restless.repository.objects.store.WellFormed ∧
    ∃ found, (gatherChanges (.upTo .info) Restless.find ['/'] none).run.value = .ok found ∧
      ∃ workingTree part, Covers Restless.find ['/'] none workingTree part ∧
        found.Account workingTree part := by
  refine ⟨Restless.wellFormed, _, Restless.value none, ?_⟩
  apply counts_gathered ?_ (Restless.value none)
  intro r hr
  obtain rfl := Except.ok.inj hr
  exact Restless.wellFormed

/-- One commit that made a link of a file counts twice, and one that made the file
executable before it counts as well. -/
theorem restless_counted_above_walked :
    (∃ found, (gatherChanges (.upTo .info) Restless.find ['/'] (some 1)).run.value = .ok found ∧
      found.walked = 1 ∧ found.counts.get? ['/', 'a'] = some 2) ∧
    ∃ found, (gatherChanges (.upTo .info) Restless.find ['/'] none).run.value = .ok found ∧
      found.walked = 2 ∧ found.counts.get? ['/', 'a'] = some 3 ∧
      (comparisons Restless.line).countP (·.differs ['a']) = 1 := by
  refine ⟨⟨_, Restless.value (some 1), rfl, ?_⟩, ⟨_, Restless.value none, rfl, ?_, rfl⟩⟩
  · rw [Restless.count]
    rfl
  · rw [Restless.count]
    rfl

end Git

end LoudHeaders
