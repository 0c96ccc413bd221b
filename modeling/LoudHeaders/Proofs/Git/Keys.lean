import LoudHeaders.Proofs.Git.Counts

/-
  Which paths have a count.

  A path has a count exactly if one of the comparisons of the run finds something else at
  it before and after (`mem_keys_along_iff`), and its key is the path in the working tree,
  spelled that way. What else the walk meets makes no difference: a change that a later
  one takes back stays counted, and what never changes is never counted, in no spelling.

  A key is a path of one of the two trees then, and trees hold no directories
  (`Tree.Layered`). Where a file takes the place of a directory, or a directory that of a
  file, the paths of both have keys, and the directory itself has none.
-/

namespace LoudHeaders

namespace Git

/-- All trees of a store are layered, as trees made of directories are. -/
def Store.Layered (s : Store) : Prop := ∀ c ∈ s.commits, c.entries.Layered

/-- The tree of a commit is there and holds a file, a link or a submodule at a path, and
no directory. -/
def Commit.Holds (c : Commit) (p : Text) : Prop :=
  ∃ tree e, c.tree = some tree ∧ tree.get? p = some e ∧ ¬tree.HasDirectory p

/-- What a layered tree lists at a path is no directory. -/
theorem Commit.holds_of_get? {c : Commit} {p : Text} {e : Entry} (hlayered : c.entries.Layered)
    (htree : c.tree.isSome = true) (h : c.entries.get? p = some e) : c.Holds p := by
  obtain ⟨tree, htree⟩ := Option.isSome_iff_exists.mp htree
  have hentries : c.entries = tree := by
    rw [Commit.entries, htree]
    rfl
  rw [hentries] at h hlayered
  exact ⟨tree, e, htree, h, hlayered.apart p (Tree.mem_paths_of_get? h)⟩

namespace Comparison

theorem mem_diff_iff {x : Comparison} (h : x.WellFormed) {p : Text} :
    p ∈ x.diff ↔ x.before p ≠ x.after p :=
  Tree.mem_diff_iff h.parent.nodup h.commit.nodup

/-- Trees hold something else only at what can be a path of a tree. -/
theorem isPath_of_ne {x : Comparison} (h : x.WellFormed) {p : Text}
    (hne : x.before p ≠ x.after p) : Tree.IsPath p :=
  x.isPath_of_mem_diff h ((x.mem_diff_iff h).mpr hne)

theorem ne_of_differs {x : Comparison} {p : Text} (h : x.differs p = true) :
    x.before p ≠ x.after p := by
  intro hsame
  rw [differs, Tree.differs, decide_eq_true_eq, hsame] at h
  exact h rfl

/-- Where the two trees hold something else, one of them holds an entry. -/
theorem holds_of_ne {x : Comparison} {p : Text} (hreadable : x.Readable)
    (hparent : x.parent.entries.Layered) (hcommit : x.commit.entries.Layered)
    (h : x.before p ≠ x.after p) : x.commit.Holds p ∨ x.parent.Holds p := by
  cases hafter : x.after p with
  | some e => exact .inl (Commit.holds_of_get? hcommit hreadable.2 hafter)
  | none =>
    cases hbefore : x.before p with
    | some e => exact .inr (Commit.holds_of_get? hparent hreadable.1 hbefore)
    | none => exact absurd (hbefore.trans hafter.symm) h

end Comparison

namespace History

variable {workingTree : Text} {part : List Commit}

/-- **The keys are the paths at which a comparison finds something else**, in the working
tree. -/
theorem mem_keys_along_iff (h : ∀ c ∈ part, c.entries.WellFormed) {key : Text} :
    key ∈ (along workingTree ⟨.empty, 0⟩ part).counts.keys ↔
      ∃ p, key = Path.join workingTree p ∧ ∃ x ∈ comparisons part, x.before p ≠ x.after p := by
  have hwell : ∀ x ∈ comparisons part, x.WellFormed := fun _ => wellFormed_of_mem_comparisons h
  have hnamed (p : Text) : p ∈ (comparisons part).flatMap Comparison.diff ↔
      ∃ x ∈ comparisons part, x.before p ≠ x.after p := by
    rw [List.mem_flatMap]
    refine exists_congr fun x => and_congr_right fun hx => ?_
    exact x.mem_diff_iff (hwell x hx)
  have hspelled {key : Text} (hkey : key ∈ (along workingTree ⟨.empty, 0⟩ part).counts.keys) :
      ∃ p, key = Path.join workingTree p ∧
        ∃ x ∈ comparisons part, x.before p ≠ x.after p := by
    rw [counts_along] at hkey
    obtain ⟨p, hp, rfl⟩ := List.mem_map.mp (ChangeCounts.mem_of_mem_keys_foldl_record hkey)
    exact ⟨p, rfl, (hnamed p).mp hp⟩
  constructor
  · exact hspelled
  · rintro ⟨p, rfl, x, hx, hne⟩
    have hp : p ∈ (comparisons part).flatMap Comparison.diff := (hnamed p).mpr ⟨x, hx, hne⟩
    -- some spelling of the path is a key, and the keys are spelled in one way
    obtain ⟨key, hkey, hsame⟩ := ChangeCounts.exists_key_of_mem_foldl_record
      (List.mem_map_of_mem (f := Path.join workingTree) hp)
    rw [← counts_along] at hkey
    obtain ⟨q, rfl, y, hy, hq⟩ := hspelled hkey
    obtain rfl := (Tree.same_join_iff (y.isPath_of_ne (hwell y hy) hq)
      (x.isPath_of_ne (hwell x hx) hne) workingTree).mp hsame
    exact hkey

end History

/-- The keys of statistics are the paths that the commits of a part changed below a working
tree. -/
structure Statistics.Keys (found : Statistics) (workingTree : Text) (part : List Commit) :
    Prop where
  /-- All comparisons were walked. -/
  walked : found.walked = (comparisons part).length
  /-- A key is the path of an entry, and of no directory, in the tree of a walked commit or
  of its first parent. -/
  entry : ∀ key ∈ found.counts.keys, ∃ p, key = Path.join workingTree p ∧
    ∃ x ∈ comparisons part, x.commit.Holds p ∨ x.parent.Holds p
  /-- A path whose presence, kind or content a walked commit changed is a key. -/
  changed : ∀ p, ∀ x ∈ comparisons part, x.differs p = true →
    Path.join workingTree p ∈ found.counts.keys
  /-- A path that no walked commit changed is the same as no key. -/
  unchanged : ∀ p, Tree.IsPath p → (∀ x ∈ comparisons part, x.before p = x.after p) →
    ∀ key ∈ found.counts.keys, Path.same key (Path.join workingTree p) = false

theorem keys_along {workingTree : Text} {bound : Option Nat} {part : List Commit}
    (h : ∀ c ∈ part, c.entries.Layered) (hreadable : Readable part) :
    (Statistics.along workingTree bound part).Keys workingTree part := by
  have hwell : ∀ c ∈ part, c.entries.WellFormed := fun c hc => (h c hc).toWellFormed
  constructor
  case walked => exact (length_comparisons part).symm
  case entry =>
    intro key hkey
    obtain ⟨p, hp, x, hx, hne⟩ := (History.mem_keys_along_iff hwell).mp hkey
    obtain ⟨hparent, hcommit⟩ := mem_of_mem_comparisons hx
    exact ⟨p, hp, x, hx, x.holds_of_ne (hreadable x hx) (h _ hparent) (h _ hcommit) hne⟩
  case changed =>
    intro p x hx hdiffers
    exact (History.mem_keys_along_iff hwell).mpr ⟨p, rfl, x, hx, x.ne_of_differs hdiffers⟩
  case unchanged =>
    intro p hp hsame key hkey
    rw [Bool.eq_false_iff]
    intro hjoin
    obtain ⟨q, rfl, x, hx, hne⟩ := (History.mem_keys_along_iff hwell).mp hkey
    have hq : Tree.IsPath q := x.isPath_of_ne (wellFormed_of_mem_comparisons hwell hx) hne
    obtain rfl := (Tree.same_join_iff hq hp workingTree).mp hjoin
    exact hne (hsame x hx)

/-! ## A history in which files and directories swap -/

namespace Swapped

/-- A file, a file two directories deep, one that will be deleted and one that will
not. -/
def files : Tree :=
  (((Tree.put [] ['a'] (.file ['0'] false)).put ['d', '/', 'e', '/', 'f'] (.file ['1'] false)).put
    ['g'] (.file ['2'] false)).put ['k'] (.file ['3'] false)

/-- A directory where the file was, and a link where the directory was. -/
def swapped : Tree :=
  ((files.put ['a', '/', 'b'] (.submodule ['4'])).put ['d'] (.link ['k'])).remove ['g']

def original : Commit := .plain 'a' [] (some files)

def change : Commit := .plain 'b' [0] (some swapped)

/-- Takes all of it back. -/
def revert : Commit := .plain 'c' [1] (some files)

def line : List Commit := [revert, change, original]

def repository : Repository := .detached ['/'] ⟨line.reverse, []⟩

def find : Finder := fun _ => .ok repository

theorem layered_files : files.Layered :=
  (((Tree.layered_nil.put (by decide) _).put (by decide) _).put (by decide) _).put (by decide) _

theorem layered_swapped : swapped.Layered :=
  ((layered_files.put (by decide) _).put (by decide) _).remove _

theorem layered : repository.objects.store.Layered := by
  intro c hc
  rcases hc with _ | ⟨_, _ | ⟨_, _ | ⟨_, hc⟩⟩⟩
  · exact layered_files
  · exact layered_swapped
  · exact layered_files
  · cases hc

theorem covers : Covers find ['/'] none ['/'] line := by
  have hline : repository.objects.store.Line 2 line :=
    .more rfl rfl (by decide) (.more rfl rfl (by decide) (.one rfl))
  exact ⟨repository, 2, rfl, ⟨rfl, _, revert, rfl, rfl⟩, ⟨hline, .inr ⟨by decide, by simp⟩⟩,
    readable_of_trees (by decide)⟩

theorem value : (gatherChanges (.upTo .info) find ['/'] none).run.value =
    .ok (.along ['/'] none line) :=
  (value_of_covers covers).1 (not_stumbles (by decide))

/-- The paths on either side of the swaps, and that of the deleted file. -/
def touched : List Text :=
  [['a'], ['a', '/', 'b'], ['d'], ['d', '/', 'e', '/', 'f'], ['g']]

theorem keys : (Statistics.along ['/'] none line).Keys ['/'] line := by
  apply keys_along _ (readable_of_trees (by decide))
  intro c hc
  exact layered c (List.mem_reverse.mpr hc)

theorem mem_keys {p : Text} (hp : p ∈ touched) :
    Path.join ['/'] p ∈ (Statistics.along ['/'] none line).counts.keys := by
  have hfirst : ∀ p ∈ touched, Comparison.differs ⟨revert, change⟩ p = true := by decide
  exact keys.changed p _ List.mem_cons_self (hfirst p hp)

theorem not_mem_keys : Path.join ['/'] ['k'] ∉ (Statistics.along ['/'] none line).counts.keys := by
  intro hkey
  have hother := keys.unchanged ['k'] (by decide) (by decide) _ hkey
  rw [Path.same_self] at hother
  cases hother

end Swapped

/-- **The keys of the change map are the paths that the walked commits changed.** A run
that succeeds has looked at some part of the history. Each key is the path of an entry in
a tree of the part, never that of a directory; what a commit changed is a key, whatever
became of it later; and what no commit changed is none. -/
theorem keys_gathered {verbosity : Verbosity} {find : Finder} {directory : Text}
    {bound : Option Nat} {found : Statistics}
    (hsound : ∀ r, find directory = .ok r → r.objects.store.Layered)
    (h : (gatherChanges verbosity find directory bound).run.value = .ok found) :
    ∃ workingTree part, Covers find directory bound workingTree part ∧
      found.Keys workingTree part := by
  obtain ⟨workingTree, part, hcovers, _, rfl⟩ := gatherChanges_eq_ok_iff.mp h
  have ⟨r, n, hfind, _, hwithin, hreadable⟩ := hcovers
  have hpart : ∀ c ∈ part, c.entries.Layered := fun c hc =>
    hsound r hfind c (hwithin.line.subset_commits hc)
  exact ⟨workingTree, part, hcovers, keys_along hpart hreadable⟩

/-- Both sides of a swap have keys, also when the swap is taken back, and what stays the
same has none. -/
theorem keys_gathered_swapped :
    Swapped.repository.objects.store.Layered ∧
    ∃ found, (gatherChanges (.upTo .info) Swapped.find ['/'] none).run.value = .ok found ∧
      (∀ p ∈ Swapped.touched, Path.join ['/'] p ∈ found.counts.keys) ∧
      Path.join ['/'] ['k'] ∉ found.counts.keys ∧
      ∃ workingTree part, Covers Swapped.find ['/'] none workingTree part ∧
        found.Keys workingTree part := by
  refine ⟨Swapped.layered, _, Swapped.value, fun _ => Swapped.mem_keys, Swapped.not_mem_keys, ?_⟩
  apply keys_gathered ?_ Swapped.value
  intro r hr
  obtain rfl := Except.ok.inj hr
  exact Swapped.layered

end Git

end LoudHeaders
