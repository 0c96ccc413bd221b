import Mathlib.Data.List.Forall2
import LoudHeaders.Proofs.Git.Gathering
import LoudHeaders.Proofs.Git.Tree

/-
  How far a run goes back, and what its result depends on.

  A run makes one comparison less than there are commits on the way from HEAD to the
  root, or as many as its bound allows. It has met the root exactly if its bound is
  larger than that (`walks_to_the_root`): a walk that stops at the root because its bound
  is used up does not know that it is one.

  Its result is a matter of the trees on that way alone. Two repositories whose ways
  agree in their trees as far as the bound goes give the same result
  (`agrees_of_sameTrees`), with whatever else in them: other parents of merges, older
  commits, lost objects, branches, messages.
-/

namespace LoudHeaders

namespace Git

open Store (EndsAtRoot cut steps)

section Run

variable {verbosity : Verbosity} {find : Finder} {directory : Text} {bound : Option Nat}
  {r : Repository} {workingTree : Text} {n : Nat} {chain : List Commit}

/-- A run whose way from HEAD has all objects that it needs looks at as much of the way
as its bound leaves. -/
theorem covers_cut (hfind : find directory = .ok r) (hstands : r.StandsAt workingTree n)
    (hchain : r.objects.store.whole.Line n chain) (hroot : EndsAtRoot chain)
    (hthere : r.objects.store.Line n (cut bound chain)) (htrees : Readable (cut bound chain)) :
    Covers find directory bound workingTree (cut bound chain) :=
  ⟨r, n, hfind, hstands, ⟨hthere, (Store.within_cut hchain hroot bound).extent⟩, htrees⟩

/-- **A run makes as many comparisons as its bound and the way to the root allow, and has
met the root exactly if the bound allows more.** The way may be longer than what is
there of it, as long as the bound stays within that. -/
theorem walks_to_the_root (hfind : find directory = .ok r) (hstands : r.StandsAt workingTree n)
    (hchain : r.objects.store.whole.Line n chain) (hroot : EndsAtRoot chain)
    (hthere : r.objects.store.Line n (cut bound chain)) (htrees : Readable (cut bound chain))
    (hdates : ∀ c ∈ cut bound chain, Date.spell c.time ≠ .unwritable) :
    ∃ found, (gatherChanges verbosity find directory bound).run.value = .ok found ∧
      (∀ m, bound = some m → found.walked = min m (chain.length - 1) ∧
        (found.reachedRoot = true ↔ chain.length ≤ m)) ∧
      (bound = none → found.walked = chain.length - 1 ∧ found.reachedRoot = true) := by
  have hcovers := covers_cut hfind hstands hchain hroot hthere htrees
  refine ⟨_, (value_of_covers hcovers).1 (not_stumbles hdates), ?_, ?_⟩
  · rintro m rfl
    -- with a commit on the way, the steps are the bound exactly if the way is longer
    have hpos : 0 < chain.length := List.length_pos_iff.mpr hchain.ne_nil
    refine ⟨Store.steps_cut m chain, ?_⟩
    show (some m != some (steps (cut (some m) chain))) = true ↔ chain.length ≤ m
    rw [bne_iff_ne, Store.steps_cut, ne_eq, Option.some.injEq]
    omega
  · rintro rfl
    exact ⟨rfl, rfl⟩

end Run

/-! ## A merge whose merged branch is lost -/

namespace LostMerge

def root : Commit := .plain 'a' [] (some [])

def trunk : Commit := .plain 'c' [0] (some [(['f'], .file ['1'] false)])

def merge : Commit :=
  .plain 'd' [2, 1] (some [(['f'], .file ['1'] false), (['g'], .link ['f'])])

/-- The commits on the way from HEAD. -/
def chain : List Commit := [merge, trunk, root]

def repository : Repository :=
  .detached ['/'] ⟨[root, .plain 'b' [0] none, trunk, merge], [1]⟩

def find : Finder := fun _ => .ok repository

theorem standsAt : repository.StandsAt ['/'] 3 := ⟨rfl, _, merge, rfl, rfl⟩

theorem line : repository.objects.store.Line 3 chain :=
  .more rfl rfl (by decide) (.more rfl rfl (by decide) (.one rfl))

end LostMerge

/-- The bound is used up at the root, which is met as any other commit. -/
theorem walks_to_the_root_lostMerge :
    ∃ found, (gatherChanges (.upTo .info) LostMerge.find ['/'] (some 2)).run.value = .ok found ∧
      found.walked = 2 ∧ found.reachedRoot = false := by
  have hdates : ∀ c ∈ cut (some 2) LostMerge.chain, Date.spell c.time ≠ .unwritable := by decide
  obtain ⟨found, hvalue, hbounded, _⟩ := @walks_to_the_root (.upTo .info) LostMerge.find ['/']
    (some 2) _ _ _ _ rfl LostMerge.standsAt LostMerge.line.whole (by decide) LostMerge.line
    (by decide) hdates
  obtain ⟨hwalked, hreached⟩ := hbounded 2 rfl
  refine ⟨found, hvalue, hwalked, ?_⟩
  rw [← Bool.not_eq_true, hreached]
  decide

/-! ## Two repositories -/

/-- Two commits have the same tree. -/
def SameTree (c d : Commit) : Prop :=
  ∃ t u, c.tree = some t ∧ d.tree = some u ∧ t.Alike u

theorem SameTree.alike {c d : Commit} (h : SameTree c d) : c.entries.Alike d.entries := by
  obtain ⟨t, u, hc, hd, htrees⟩ := h
  rw [Commit.entries, Commit.entries, hc, hd]
  exact htrees

theorem SameTree.symm {c d : Commit} (h : SameTree c d) : SameTree d c := by
  obtain ⟨t, u, hc, hd, htrees⟩ := h
  exact ⟨u, t, hd, hc, htrees.symm⟩

theorem readable_of_sameTrees {part part' : List Commit} (h : List.Forall₂ SameTree part part') :
    Readable part := by
  apply readable_of_trees
  induction h with
  | nil => exact fun c hc => absurd hc List.not_mem_nil
  | cons hc _ ih =>
    obtain ⟨t, _, htree, _⟩ := hc
    exact List.forall_mem_cons.mpr ⟨by rw [htree]; rfl, ih⟩

/-- Commits with the same trees have the same differences. -/
theorem map_diff_congr {part part' : List Commit} (h : List.Forall₂ SameTree part part') :
    (comparisons part).map Comparison.diff = (comparisons part').map Comparison.diff := by
  induction h with
  | nil => rfl
  | cons hc hrest ih =>
    cases hrest with
    | nil => rfl
    | cons hd hmore =>
      rw [comparisons, comparisons, List.map_cons, List.map_cons, ih]
      congr 1
      exact Tree.diff_congr hd.alike hc.alike

theorem Statistics.along_congr {workingTree : Text} {bound : Option Nat} {part part' : List Commit}
    (h : List.Forall₂ SameTree part part') :
    Statistics.along workingTree bound part = Statistics.along workingTree bound part' := by
  have hsteps : steps part = steps part' := by rw [steps, steps, h.length_eq]
  have htally (t : Tally) : History.along workingTree t part = History.along workingTree t part' := by
    have hfold (xs : List Comparison) : xs.foldl (fun t x => History.Tally.add workingTree t x.diff) t =
        (xs.map Comparison.diff).foldl (History.Tally.add workingTree) t := List.foldl_map.symm
    rw [History.along, History.along, hfold, hfold, map_diff_congr h]
  rw [along, along, htally, hsteps]

/-- **A run goes by the trees on the way from HEAD, as far as its bound leaves them.** Two
runs in the same working tree give the same result if what they look at agrees in its
trees. -/
theorem agrees_of_sameTrees {verbosity verbosity' : Verbosity} {find find' : Finder}
    {directory directory' workingTree : Text} {bound : Option Nat} {r r' : Repository}
    {n n' : Nat} {part part' : List Commit}
    (hfind : find directory = .ok r) (hfind' : find' directory' = .ok r')
    (hstands : r.StandsAt workingTree n) (hstands' : r'.StandsAt workingTree n')
    (hwithin : r.objects.store.Within n bound part)
    (hwithin' : r'.objects.store.Within n' bound part')
    (hsame : List.Forall₂ SameTree part part')
    (hdates : ∀ c ∈ part, Date.spell c.time ≠ .unwritable)
    (hdates' : ∀ c ∈ part', Date.spell c.time ≠ .unwritable) :
    ∃ found, (gatherChanges verbosity find directory bound).run.value = .ok found ∧
      (gatherChanges verbosity' find' directory' bound).run.value = .ok found := by
  have hsame' : List.Forall₂ SameTree part' part := (hsame.imp fun _ _ => SameTree.symm).flip
  have hcovers : Covers find directory bound workingTree part :=
    ⟨r, n, hfind, hstands, hwithin, readable_of_sameTrees hsame⟩
  have hcovers' : Covers find' directory' bound workingTree part' :=
    ⟨r', n', hfind', hstands', hwithin', readable_of_sameTrees hsame'⟩
  refine ⟨_, (value_of_covers hcovers).1 (not_stumbles hdates), ?_⟩
  rw [Statistics.along_congr hsame]
  exact (value_of_covers hcovers').1 (not_stumbles hdates')

/-! ## Half of the same history, on a branch -/

namespace Shallow

def trunk : Commit := { Commit.plain '2' [0] LostMerge.trunk.tree with message := ['m'], time := 1 }

/-- The tree of the merge, its entries in the other order. -/
def tip : Commit := { Commit.plain '3' [1] (LostMerge.merge.tree.map List.reverse) with time := 2 }

def repository : Repository where
  workingTree := some ['/']
  file := fun name =>
    if name = ReferenceName.head then .content "ref: refs/heads/topic".toList
    else if name = "refs/heads/topic".toList then .content tip.id
    else .absent
  packed := fun _ => .ok none
  objects := ⟨⟨[.plain '1' [] none, trunk, tip], [0]⟩, []⟩

def find : Finder := fun _ => .ok repository

theorem standsAt : repository.StandsAt ['/'] 2 := ⟨rfl, _, tip, rfl, rfl⟩

theorem sameTrees : List.Forall₂ SameTree [LostMerge.merge, LostMerge.trunk] [tip, trunk] := by
  refine .cons ⟨_, _, rfl, rfl, ?_, ?_⟩ (.cons ⟨_, _, rfl, rfl, ?_, .refl _⟩ .nil)
  · decide
  · exact (List.reverse_perm _).symm
  · decide

end Shallow

/-- What lies behind the second commit is lost in one repository and a root in the other,
and only one of them has a merge. -/
theorem agrees_of_sameTrees_shallow :
    ∃ found, (gatherChanges (.upTo .info) LostMerge.find ['/'] (some 1)).run.value = .ok found ∧
      (gatherChanges .silent Shallow.find [] (some 1)).run.value = .ok found := by
  have hwithin : LostMerge.repository.objects.store.Within 3 (some 1)
      [LostMerge.merge, LostMerge.trunk] := ⟨LostMerge.line.take 1, .inl rfl⟩
  have hwithin' : Shallow.repository.objects.store.Within 2 (some 1)
      [Shallow.tip, Shallow.trunk] := ⟨.more rfl rfl (by decide) (.one rfl), .inl rfl⟩
  exact agrees_of_sameTrees rfl rfl LostMerge.standsAt Shallow.standsAt hwithin hwithin'
    Shallow.sameTrees (by decide) (by decide)

end Git

end LoudHeaders
