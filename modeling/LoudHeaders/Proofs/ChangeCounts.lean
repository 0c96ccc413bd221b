import LoudHeaders.ChangeCounts
import LoudHeaders.Proofs.Path.Route

/-
  What is counted for a path.

  One change recorded raises the count of its path by one and leaves all others alone
  (`get?_record`). After a list of changes the count of a path is the number of changes
  in it whose path is the same, and a path without changes has no count
  (`get?_foldl_record`). So a count that is there counts some change of the path
  (`exists_of_get?_foldl_record`).

  The paths with a count are spelled as in the changes (`mem_of_mem_keys_foldl_record`),
  and each change has its path among them, in some spelling
  (`exists_key_of_mem_foldl_record`).
-/

namespace LoudHeaders

namespace ChangeCounts

/-- Two spellings of a path have one count. -/
theorem get?_congr {p q : Text} (h : Path.same p q = true) (c : ChangeCounts) :
    c.get? p = c.get? q := by
  simp only [get?, Path.same_congr h]

/-- Changing the count of a path changes what is found for it in any spelling, and
nothing else. -/
theorem find?_update (path p : Text) (change : Nat → Nat) (entries : List ChangeCount) :
    ((update path change entries).find? fun e => Path.same e.path p).map ChangeCount.count =
      if Path.same path p then
        some (change (((entries.find? fun e => Path.same e.path p).map ChangeCount.count).getD 0))
      else (entries.find? fun e => Path.same e.path p).map ChangeCount.count := by
  induction entries with
  | nil => cases hp : Path.same path p <;> simp [update, hp]
  | cons e rest ih =>
    rw [update]
    split
    · -- the entry is one of the path, so it is one of `p` exactly if the path is
      rename_i he
      have hsame : Path.same e.path p = Path.same path p := by
        rw [Path.same_iff] at he
        rw [Path.same, Path.same, he]
      cases hp : Path.same path p <;> simp [hsame, hp]
    · rename_i he
      cases hp : Path.same e.path p with
      | false => simp [hp, ih]
      | true =>
        have hother : Path.same path p = false := by
          rw [Bool.eq_false_iff]
          intro hpath
          rw [Path.same_iff] at hp hpath
          exact he (Path.same_iff.mpr (hp.trans hpath.symm))
        simp [hp, hother]

theorem get?_record (c : ChangeCounts) (path p : Text) :
    (c.record path).get? p =
      if Path.same path p then some ((c.get? p).getD 0 + 1) else c.get? p :=
  find?_update path p (· + 1) c.counts

/-- What is stored of a number of changes: nothing if there were none. -/
def stored (n : Nat) : Option Nat := if n = 0 then none else some n

@[simp] theorem getD_stored (n : Nat) : (stored n).getD 0 = n := by
  cases n <;> rfl

theorem stored_eq_some_iff {n k : Nat} : stored n = some k ↔ n = k ∧ 1 ≤ k := by
  unfold stored
  split
  · simp only [reduceCtorEq, false_iff]
    omega
  · rw [Option.some.injEq]
    omega

/-- After a list of changes, each path has as many as the list has of it. -/
theorem get?_foldl_record (p : Text) (paths : List Text) (c : ChangeCounts) (n : Nat)
    (hc : c.get? p = stored n) :
    (paths.foldl record c).get? p = stored (n + paths.countP fun q => Path.same q p) := by
  induction paths generalizing c n with
  | nil => exact hc
  | cons q rest ih =>
    rw [List.foldl_cons, List.countP_cons]
    cases hq : Path.same q p with
    | true =>
      have hone : (c.record q).get? p = stored (n + 1) := by
        rw [get?_record, if_pos hq, hc, getD_stored]
        rfl
      rw [ih _ (n + 1) hone, if_pos rfl]
      congr 1
      omega
    | false =>
      have hnone : (c.record q).get? p = stored n := by
        rw [get?_record, if_neg (by simp [hq]), hc]
      rw [ih _ n hnone, if_neg Bool.false_ne_true, Nat.add_zero]

/-- A path with a count is the path of one of the changes. -/
theorem exists_of_get?_foldl_record {p : Text} {paths : List Text} {k : Nat}
    (h : (paths.foldl record empty).get? p = some k) :
    1 ≤ k ∧ ∃ q ∈ paths, Path.same q p = true := by
  rw [get?_foldl_record p paths empty 0 rfl, Nat.zero_add, stored_eq_some_iff] at h
  obtain ⟨rfl, hpos⟩ := h
  exact ⟨hpos, List.countP_pos_iff.mp hpos⟩

/-! ## The paths with a count -/

/-- The paths with a count, as they are spelled. -/
def keys (c : ChangeCounts) : List Text := c.counts.map ChangeCount.path

/-- A change of a path that has a count brings in no key, in whatever spelling. Any other
change has the last key. -/
theorem keys_record (c : ChangeCounts) (path : Text) :
    (c.record path).keys =
      if c.keys.any fun k => Path.same k path then c.keys else c.keys ++ [path] := by
  have hupdate (entries : List ChangeCount) :
      (update path (· + 1) entries).map ChangeCount.path =
        if (entries.map ChangeCount.path).any fun k => Path.same k path then
          entries.map ChangeCount.path
        else entries.map ChangeCount.path ++ [path] := by
    induction entries with
    | nil => rfl
    | cons e rest ih =>
      rw [update]
      cases he : Path.same e.path path with
      | true => simp [he]
      | false =>
        rw [if_neg Bool.false_ne_true, List.map_cons, ih]
        simp only [List.map_cons, List.any_cons, he, Bool.false_or]
        split <;> rfl
  exact hupdate c.counts

theorem mem_keys_record {c : ChangeCounts} {path q : Text} (h : q ∈ (c.record path).keys) :
    q ∈ c.keys ∨ q = path := by
  rw [keys_record] at h
  split at h
  · exact .inl h
  · rcases List.mem_append.mp h with hold | hnew
    · exact .inl hold
    · exact .inr (List.mem_singleton.mp hnew)

/-- Recording changes brings in no path but theirs. -/
theorem mem_keys_foldl_record {q : Text} (paths : List Text) {c : ChangeCounts}
    (h : q ∈ (paths.foldl record c).keys) : q ∈ c.keys ∨ q ∈ paths := by
  induction paths generalizing c with
  | nil => exact .inl h
  | cons path rest ih =>
    rcases ih h with hrecord | hrest
    · rcases mem_keys_record hrecord with hc | rfl
      · exact .inl hc
      · exact .inr List.mem_cons_self
    · exact .inr (List.mem_cons_of_mem _ hrest)

theorem mem_of_mem_keys_foldl_record {q : Text} {paths : List Text}
    (h : q ∈ (paths.foldl record empty).keys) : q ∈ paths :=
  (mem_keys_foldl_record paths h).resolve_left List.not_mem_nil

theorem exists_key_of_get? {c : ChangeCounts} {p : Text} {k : Nat} (h : c.get? p = some k) :
    ∃ key ∈ c.keys, Path.same key p = true := by
  obtain ⟨e, hfind, _⟩ := Option.map_eq_some_iff.mp h
  have hsame : Path.same e.path p = true :=
    List.find?_some (p := fun entry : ChangeCount => Path.same entry.path p) hfind
  exact ⟨e.path, List.mem_map_of_mem (List.mem_of_find?_eq_some hfind), hsame⟩

/-- The path of a change has a count. -/
theorem exists_key_of_mem_foldl_record {q : Text} {paths : List Text} (h : q ∈ paths) :
    ∃ key ∈ (paths.foldl record empty).keys, Path.same key q = true := by
  have hpos : 1 ≤ paths.countP fun r => Path.same r q :=
    List.countP_pos_iff.mpr ⟨q, h, Path.same_self q⟩
  apply exists_key_of_get?
  rw [get?_foldl_record q paths empty 0 rfl, Nat.zero_add]
  exact stored_eq_some_iff.mpr ⟨rfl, hpos⟩

end ChangeCounts

end LoudHeaders
