import LoudHeaders.Git.Repository

/-
  First-parent lines.

  A line is what following first parents from a commit meets: commits that are there,
  each but the last followed by its first parent. What lies behind the other parents of
  a merge is on no line, and nothing is said about what lies behind the last commit.

  `Within` says which line a bound leaves to be looked at: one commit more than there
  are comparisons to make, or the whole history where it is shorter. Every bound cuts a
  whole history to such a line (`within_cut`), and what is within a bound is found by
  one step at a time (`within_iff`), as the lineage of a commit is.
-/

namespace LoudHeaders

namespace Git

namespace Store

/-- The commits on the way from the commit with a number along first parents, the
newest first. Parents have smaller numbers. -/
inductive Line (s : Store) : Nat → List Commit → Prop where
  | one {n : Nat} {c : Commit} (found : s.find? n = some c) : Line s n [c]
  | more {n p : Nat} {c : Commit} {others : List Nat} {rest : List Commit}
    (found : s.find? n = some c) (parents : c.parents = p :: others) (lt : p < n)
    (older : Line s p rest) : Line s n (c :: rest)

/-- The last of some commits has no parents. -/
def EndsAtRoot (part : List Commit) : Prop := ∀ c ∈ part.getLast?, c.parents = []

instance (part : List Commit) : Decidable (EndsAtRoot part) :=
  inferInstanceAs (Decidable (∀ c ∈ part.getLast?, c.parents = []))

/-- The number of comparisons of neighbours among some commits. -/
def steps (part : List Commit) : Nat := part.length - 1

/-- The line that a bound leaves to be looked at: as many steps as the bound allows, or
fewer where the history ends before. -/
structure Within (s : Store) (n : Nat) (bound : Option Nat) (part : List Commit) : Prop where
  line : s.Line n part
  extent : bound = some (steps part) ∨ (EndsAtRoot part ∧ ∀ m ∈ bound, steps part < m)

/-- The store with its lost commits found again. -/
def whole (s : Store) : Store := ⟨s.commits, []⟩

/-- The commits of a history that a bound leaves to be looked at. -/
def cut (bound : Option Nat) (chain : List Commit) : List Commit :=
  match bound with
  | none => chain
  | some m => chain.take (m + 1)

variable {s : Store} {n : Nat} {c : Commit} {part chain : List Commit} {bound : Option Nat}

/-! ## Lines -/

theorem Line.ne_nil (h : s.Line n part) : part ≠ [] := by
  cases h <;> exact List.cons_ne_nil _ _

/-- A line starts with the commit it starts from. -/
theorem Line.head_eq (h : s.Line n part) : part.head? = s.find? n := by
  cases h with
  | one found => exact found.symm
  | more found _ _ _ => exact found.symm

theorem getElem?_of_find? (h : s.find? n = some c) : s.commits[n]? = some c := by
  unfold find? at h
  split at h
  · cases h
  · exact h

theorem mem_commits_of_find? (h : s.find? n = some c) : c ∈ s.commits :=
  List.mem_of_getElem? (getElem?_of_find? h)

/-- The commits of a line are commits of the store. -/
theorem Line.subset_commits (h : s.Line n part) : part ⊆ s.commits := by
  induction h with
  | one found =>
    intro c hc
    rw [List.mem_singleton.mp hc]
    exact mem_commits_of_find? found
  | more found _ _ _ ih =>
    intro c hc
    rcases List.mem_cons.mp hc with rfl | hc
    · exact mem_commits_of_find? found
    · exact ih hc

theorem find?_whole (h : s.find? n = some c) : s.whole.find? n = some c := by
  have hcommits : s.commits[n]? = some c := getElem?_of_find? h
  exact hcommits

/-- What is there stays on its line when lost commits are found again. -/
theorem Line.whole (h : s.Line n part) : s.whole.Line n part := by
  induction h with
  | one found => exact .one (find?_whole found)
  | more found parents lt _ ih => exact .more (find?_whole found) parents lt ih

/-- The front of a line is a line. -/
theorem Line.take (h : s.Line n chain) (m : Nat) : s.Line n (chain.take (m + 1)) := by
  induction h generalizing m with
  | one found => simpa using Line.one found
  | more found parents lt _ ih =>
    cases m with
    | zero => exact .one found
    | succ m => exact .more found parents lt (ih m)

theorem endsAtRoot_cons {d : Commit} {rest : List Commit} :
    EndsAtRoot (c :: d :: rest) ↔ EndsAtRoot (d :: rest) := by
  rw [EndsAtRoot, EndsAtRoot, List.getLast?_cons_cons]

/-! ## What is within a bound -/

/-- Every bound cuts a whole history to the line it leaves to be looked at. -/
theorem within_cut (h : s.Line n chain) (hroot : EndsAtRoot chain) (bound : Option Nat) :
    s.Within n bound (cut bound chain) := by
  cases bound with
  | none => exact ⟨h, .inr ⟨hroot, by simp⟩⟩
  | some m =>
    refine ⟨h.take m, ?_⟩
    rcases Nat.lt_or_ge m chain.length with hlt | hle
    · left
      simp only [cut, steps, List.length_take, Option.some.injEq]
      omega
    · right
      have hpos := List.length_pos_iff.mpr h.ne_nil
      have hwhole : cut (some m) chain = chain := List.take_of_length_le (by omega)
      rw [hwhole]
      refine ⟨hroot, fun k hk => ?_⟩
      rw [Option.mem_some_iff] at hk
      unfold steps
      omega

theorem cut_subset (bound : Option Nat) (chain : List Commit) : cut bound chain ⊆ chain := by
  cases bound with
  | none => exact List.Subset.refl chain
  | some m => exact List.take_subset (m + 1) chain

theorem steps_cut (m : Nat) (chain : List Commit) :
    steps (cut (some m) chain) = min m (chain.length - 1) := by
  unfold steps cut
  rw [List.length_take]
  omega

/-- Where the bound allows no step, one commit is within it. -/
theorem within_zero_iff (h : s.find? n = some c) : s.Within n (some 0) part ↔ part = [c] := by
  constructor
  · intro hw
    have hsteps : steps part = 0 := by
      rcases hw.extent with hbound | ⟨_, hlt⟩
      · exact (Option.some.inj hbound).symm
      · exact absurd (hlt 0 rfl) (Nat.not_lt_zero _)
    obtain ⟨d, rest, rfl⟩ := List.exists_cons_of_ne_nil hw.line.ne_nil
    have hd : some d = some c := hw.line.head_eq.trans h
    have hrest : rest = [] := List.length_eq_zero_iff.mp hsteps
    rw [Option.some.inj hd, hrest]
  · rintro rfl
    exact ⟨.one h, .inl rfl⟩

/-- Where the bound allows a step, a commit without parents is alone within it, and any
other commit is followed by what is within the bound less one from its first parent. -/
theorem within_iff (h : s.find? n = some c) (hbound : bound ≠ some 0) :
    s.Within n bound part ↔
      (c.parents = [] ∧ part = [c]) ∨
      ∃ p others rest, c.parents = p :: others ∧ p < n ∧ part = c :: rest ∧
        s.Within p (bound.map (· - 1)) rest := by
  -- the extents of `c :: rest` and of `rest` differ by one step on both sides
  have extent {d : Commit} {rest : List Commit} :
      (bound = some (steps (c :: d :: rest)) ∨
        (EndsAtRoot (c :: d :: rest) ∧ ∀ m ∈ bound, steps (c :: d :: rest) < m)) ↔
      (bound.map (· - 1) = some (steps (d :: rest)) ∨
        (EndsAtRoot (d :: rest) ∧ ∀ m ∈ bound.map (· - 1), steps (d :: rest) < m)) := by
    rw [endsAtRoot_cons]
    cases bound with
    | none => simp
    | some m =>
      have hm : m ≠ 0 := fun hm => hbound (congrArg some hm)
      simp only [steps, List.length_cons, Option.some.injEq, Option.mem_def, Option.map_some,
        forall_eq']
      constructor
      · rintro (h | ⟨hroot, h⟩)
        · exact .inl (by omega)
        · exact .inr ⟨hroot, by omega⟩
      · rintro (h | ⟨hroot, h⟩)
        · exact .inl (by omega)
        · exact .inr ⟨hroot, by omega⟩
  constructor
  · rintro ⟨hline, hextent⟩
    cases hline with
    | one found =>
      obtain rfl := Option.some.inj (h.symm.trans found)
      left
      rcases hextent with hzero | ⟨hroot, _⟩
      · exact absurd hzero hbound
      · exact ⟨hroot c rfl, rfl⟩
    | more found parents lt older =>
      obtain rfl := Option.some.inj (h.symm.trans found)
      obtain ⟨d, rest, rfl⟩ := List.exists_cons_of_ne_nil older.ne_nil
      exact .inr ⟨_, _, _, parents, lt, rfl, older, extent.mp hextent⟩
  · rintro (⟨hroot, rfl⟩ | ⟨p, others, rest, parents, lt, rfl, hline, hextent⟩)
    · refine ⟨.one h, .inr ⟨?_, ?_⟩⟩
      · intro d hd
        obtain rfl := Option.some.inj hd
        exact hroot
      · intro m hm
        have : m ≠ 0 := fun hz => hbound (by rw [Option.mem_def.mp hm, hz])
        exact Nat.pos_of_ne_zero this
    · obtain ⟨d, rest, rfl⟩ := List.exists_cons_of_ne_nil hline.ne_nil
      exact ⟨.more h parents lt hline, extent.mpr hextent⟩

/-! ## Lineages -/

theorem lineage_root (h : c.parents = []) : s.lineage n c = .root c := by
  rw [lineage]
  split
  · rfl
  · rename_i hparents
    rw [h] at hparents
    cases hparents

theorem lineage_child {p : Nat} {others : List Nat} {parent : Commit}
    (h : c.parents = p :: others) (lt : p < n) (found : s.find? p = some parent) :
    s.lineage n c = .child c (s.lineage p parent) := by
  rw [lineage]
  split
  · rename_i hparents
    rw [h] at hparents
    cases hparents
  · rename_i hparents
    obtain ⟨rfl, rfl⟩ := List.cons.inj (h.symm.trans hparents)
    rw [dif_pos lt, found]

/-- A first parent that is not there, or not in front, breaks the lineage. -/
theorem lineage_broken {p : Nat} {others : List Nat} (h : c.parents = p :: others)
    (missing : p < n → s.find? p = none) : s.lineage n c = .broken c (s.idOf p) := by
  rw [lineage]
  split
  · rename_i hparents
    rw [h] at hparents
    cases hparents
  · rename_i hparents
    obtain ⟨rfl, rfl⟩ := List.cons.inj (h.symm.trans hparents)
    split
    · rename_i lt
      rw [missing lt]
    · rfl

theorem head_lineage : (s.lineage n c).head = c := by
  rw [lineage]
  split
  · rfl
  · split
    · split <;> rfl
    · rfl

end Store

end Git

end LoudHeaders
