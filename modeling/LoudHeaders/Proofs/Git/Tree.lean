import LoudHeaders.Git.Tree
import LoudHeaders.Proofs.Path.Route
import LoudHeaders.Proofs.Text.Order

/-
  What the difference of two trees names.

  Trees are lists, and what they say is what their entries say (`Alike`): the
  difference does not depend on the order of the entries (`diff_congr`). It names a
  path as often as the entries at the path before and after ask for (`count_diff`), and
  so names exactly the paths at which the entries are different (`mem_diff_iff`).

  How often that is goes by three questions, whether anything but the executable bit
  is different, whether the kind is, and whether the executable bit is all that is
  (`touches_eq`). A path that changes its kind is named twice, and so is never named
  once for each commit that changed it.

  Directories are no entries. No path of a tree is a directory of it (`Layered`), and
  putting entries in and taking them out keeps that, also where a file takes the place
  of a directory or the other way round (`Layered.put`, `Layered.remove`).
-/

namespace LoudHeaders

namespace Git

namespace Entry

/-- What an entry holds: the text of a file, the target of a link or the id of a
submodule. -/
def content : Entry → Text
  | .file content _ => content
  | .link target => target
  | .submodule id => id

/-- What an entry is, its executable bit left aside. -/
def substance (e : Entry) : Kind × Text := (e.kind, e.content)

end Entry

namespace Tree

/-! ## Entries by path -/

theorem get?_eq_none_iff {t : Tree} {p : Text} : t.get? p = none ↔ p ∉ t.paths := by
  simp only [get?, Option.map_eq_none_iff, List.find?_eq_none, paths, List.mem_map, beq_iff_eq,
    not_exists, not_and]

theorem mem_paths_of_get? {t : Tree} {p : Text} {e : Entry} (h : t.get? p = some e) :
    p ∈ t.paths := by
  apply Classical.byContradiction
  intro hp
  cases h.symm.trans (get?_eq_none_iff.mpr hp)

/-- Where each path is listed once, the entry at a path is the one listed with it. -/
theorem get?_eq_some_iff {t : Tree} (h : t.paths.Nodup) {p : Text} {e : Entry} :
    t.get? p = some e ↔ (p, e) ∈ t := by
  unfold paths at h
  induction t with
  | nil => simp [get?]
  | cons first rest ih =>
    obtain ⟨hfirst, hrest⟩ := List.nodup_cons.mp h
    have hskip : first.1 ≠ p → (get? (first :: rest) p = get? rest p) := by
      intro hp
      simp [get?, hp]
    by_cases hp : first.1 = p
    · have hnone : (p, e) ∉ rest := by
        intro hmem
        exact hfirst (List.mem_map.mpr ⟨(p, e), hmem, hp.symm⟩)
      simp [get?, hp, hnone, Prod.ext_iff, eq_comm]
    · rw [hskip hp, ih hrest, List.mem_cons]
      constructor
      · exact Or.inr
      · rintro (hmem | hmem)
        · exact absurd (congrArg Prod.fst hmem).symm hp
        · exact hmem

theorem mem_jointPaths {old new : Tree} {p : Text} :
    p ∈ jointPaths old new ↔ p ∈ old.paths ∨ p ∈ new.paths := by
  rw [jointPaths, List.mem_mergeSort, List.mem_append, List.mem_filter, Option.isNone_iff_eq_none,
    get?_eq_none_iff]
  by_cases hp : p ∈ old.paths <;> simp [hp]

theorem nodup_jointPaths {old new : Tree} (hold : old.paths.Nodup) (hnew : new.paths.Nodup) :
    (jointPaths old new).Nodup := by
  unfold jointPaths
  rw [(List.mergeSort_perm _ _).nodup_iff, List.nodup_append]
  refine ⟨hold, hnew.filter _, ?_⟩
  rintro p hp q hq rfl
  have hnone := (List.mem_filter.mp hq).2
  rw [Option.isNone_iff_eq_none, get?_eq_none_iff] at hnone
  exact hnone hp

/-! ## How often the difference names a path -/

theorem count_flatMap_replicate {ps : List Text} (h : ps.Nodup) (f : Text → Nat) (p : Text) :
    (ps.flatMap fun q => List.replicate (f q) q).count p = if p ∈ ps then f p else 0 := by
  induction ps with
  | nil => rfl
  | cons q rest ih =>
    obtain ⟨hq, hrest⟩ := List.nodup_cons.mp h
    rw [List.flatMap_cons, List.count_append, ih hrest, List.count_replicate]
    by_cases hqp : q = p
    · subst hqp
      simp [hq]
    · simp [hqp, Ne.symm hqp]

/-- A path is named as often as its entries in the two trees ask for. -/
theorem count_diff {old new : Tree} (hold : old.paths.Nodup) (hnew : new.paths.Nodup) (p : Text) :
    (diff old new).count p = touches (old.get? p) (new.get? p) := by
  rw [diff, count_flatMap_replicate (nodup_jointPaths hold hnew)]
  split
  · rfl
  · rename_i hp
    rw [mem_jointPaths, not_or, ← get?_eq_none_iff, ← get?_eq_none_iff] at hp
    rw [hp.1, hp.2]
    rfl

theorem touches_pos_iff {before after : Option Entry} :
    0 < touches before after ↔ before ≠ after := by
  cases before with
  | none => cases after <;> simp [touches]
  | some a =>
    cases after with
    | none => simp [touches]
    | some b =>
      rw [touches, ne_eq, Option.some.injEq]
      split
      · rename_i hsame
        simp [hsame]
      · rename_i hsame
        split <;> simp [hsame]

/-- The difference names exactly the paths at which the two trees hold something else. -/
theorem mem_diff_iff {old new : Tree} (hold : old.paths.Nodup) (hnew : new.paths.Nodup)
    {p : Text} : p ∈ diff old new ↔ old.get? p ≠ new.get? p := by
  rw [← List.count_pos_iff, count_diff hold hnew, touches_pos_iff]

theorem mem_paths_of_mem_diff {old new : Tree} {p : Text} (h : p ∈ diff old new) :
    p ∈ old.paths ∨ p ∈ new.paths := by
  obtain ⟨q, hq, hp⟩ := List.mem_flatMap.mp h
  rw [List.eq_of_mem_replicate hp]
  exact mem_jointPaths.mp hq

/-- Whether presence, kind or content at a path are different. -/
def differs (before after : Option Entry) : Bool :=
  decide (before.map Entry.substance ≠ after.map Entry.substance)

/-- Whether a path holds entries of different kinds. -/
def changesKind (before after : Option Entry) : Bool :=
  before.isSome && after.isSome && decide (before.map Entry.kind ≠ after.map Entry.kind)

/-- Whether a path holds the same file, made executable or not executable any more. -/
def flipsMode (before after : Option Entry) : Bool :=
  decide (before ≠ after ∧ before.map Entry.substance = after.map Entry.substance)

/-- A path is named once if presence, kind or content are different, once more if the
kind is, and also if only the executable bit is. -/
theorem touches_eq (before after : Option Entry) :
    touches before after =
      (differs before after).toNat + (changesKind before after).toNat +
        (flipsMode before after).toNat := by
  cases before with
  | none => cases after <;> rfl
  | some a =>
    cases after with
    | none => rfl
    | some b =>
      by_cases hsame : a = b
      · subst hsame
        simp [touches, differs, changesKind, flipsMode]
      by_cases hkind : a.kind = b.kind
      · -- of one kind, either the content is different or the executable bit is
        by_cases hcontent : a.content = b.content
        · simp [touches, differs, changesKind, flipsMode, Entry.substance, hsame, hkind, hcontent]
        · simp [touches, differs, changesKind, flipsMode, Entry.substance, hsame, hkind, hcontent]
      · simp [touches, differs, changesKind, flipsMode, Entry.substance, hsame, hkind]

/-! ## Trees that say the same -/

/-- Two trees list the same entries, each path once. -/
structure Alike (t u : Tree) : Prop where
  nodup : t.paths.Nodup
  perm : t.Perm u

theorem Alike.nodup_right {t u : Tree} (h : t.Alike u) : u.paths.Nodup :=
  (h.perm.map _).nodup_iff.mp h.nodup

theorem Alike.symm {t u : Tree} (h : t.Alike u) : u.Alike t := ⟨h.nodup_right, h.perm.symm⟩

theorem Alike.get?_eq {t u : Tree} (h : t.Alike u) (p : Text) : t.get? p = u.get? p := by
  apply Option.ext
  intro e
  rw [get?_eq_some_iff h.nodup, get?_eq_some_iff h.nodup_right, h.perm.mem_iff]

theorem jointPaths_congr {old old' new new' : Tree} (hold : old.Alike old')
    (hnew : new.Alike new') : jointPaths old new = jointPaths old' new' := by
  unfold jointPaths
  apply Text.mergeSort_eq_of_perm
  apply (hold.perm.map _).append
  have hfilter : (fun p => (old.get? p).isNone) = fun p => (old'.get? p).isNone := by
    funext p
    rw [hold.get?_eq]
  rw [hfilter]
  exact (hnew.perm.map _).filter _

/-- The difference goes by what the trees say. -/
theorem diff_congr {old old' new new' : Tree} (hold : old.Alike old') (hnew : new.Alike new') :
    diff old new = diff old' new' := by
  unfold diff
  rw [jointPaths_congr hold hnew]
  congr 1
  funext p
  rw [hold.get?_eq, hnew.get?_eq]

/-! ## Paths of a tree -/

/-- What a tree can hold an entry at: names with slashes between them. -/
def IsPath (p : Text) : Prop := ∀ piece ∈ Path.pieces p, IsName piece

instance (p : Text) : Decidable (IsPath p) :=
  inferInstanceAs (Decidable (∀ piece ∈ Path.pieces p, IsName piece))

theorem isAbsolute_of_isPath {p : Text} (h : IsPath p) : Path.isAbsolute p = false := by
  cases p with
  | nil => rfl
  | cons c rest =>
    rw [Path.isAbsolute_cons, beq_eq_false_iff_ne]
    rintro rfl
    rw [IsPath, Path.pieces_slash] at h
    exact (h [] List.mem_cons_self).ne_nil rfl

theorem steps_of_isPath {p : Text} (h : IsPath p) :
    (Path.pieces p).filterMap Component.ofPiece? = (Path.pieces p).map .name := by
  have htext : ((Path.pieces p).map Component.name).map Component.text = Path.pieces p := by
    rw [List.map_map]
    exact List.map_id _
  have hread := Path.filterMap_ofPiece? (Path.isStep_names h)
  rwa [htext] at hread

theorem components_of_isPath {p : Text} (h : IsPath p) :
    Path.components p = (Path.pieces p).map .name := by
  have hfront : (Path.pieces p).head? ≠ some ['.'] := by
    intro hhead
    exact (h ['.'] (List.mem_of_mem_head? hhead)).ne_here rfl
  rw [Path.components, isAbsolute_of_isPath h, if_neg (by simp), if_neg hfront, steps_of_isPath h]

/-- In every directory, the names of the path come behind what the directory gives. -/
theorem components_join (base : Text) : ∃ front, ∀ p, IsPath p →
    Path.components (Path.join base p) = front ++ (Path.pieces p).map .name := by
  have hjoin {p : Text} (hp : IsPath p) : Path.join base p =
      if base.isEmpty || base.getLast? = some '/' then base ++ p else base ++ '/' :: p := by
    rw [Path.join, isAbsolute_of_isPath hp, if_neg Bool.false_ne_true]
  have hslash (b : Text) {p : Text} (hp : IsPath p) : Path.components (b ++ '/' :: p) =
      Path.components (b ++ ['/']) ++ (Path.pieces p).map .name := by
    rw [Path.components_append_slash b p, steps_of_isPath hp]
  by_cases hbase : base = []
  · refine ⟨[], fun p hp => ?_⟩
    rw [hjoin hp, if_pos (by simp [hbase]), hbase, List.nil_append, components_of_isPath hp,
      List.nil_append]
  by_cases hlast : base.getLast? = some '/'
  · obtain ⟨b, hb⟩ := List.getLast?_eq_some_iff.mp hlast
    refine ⟨Path.components (b ++ ['/']), fun p hp => ?_⟩
    rw [hjoin hp, if_pos (by simp [hlast]), hb, List.append_assoc, List.singleton_append,
      hslash b hp]
  · refine ⟨Path.components (base ++ ['/']), fun p hp => ?_⟩
    rw [hjoin hp, if_neg (by simp [hbase, hlast]), hslash base hp]

/-- Paths of a tree are told apart in every directory. -/
theorem same_join_iff {p q : Text} (hp : IsPath p) (hq : IsPath q) (base : Text) :
    Path.same (Path.join base p) (Path.join base q) = true ↔ p = q := by
  obtain ⟨front, hfront⟩ := components_join base
  rw [Path.same_iff, hfront p hp, hfront q hq, List.append_right_inj,
    List.map_inj_right fun _ _ => Component.name.inj]
  constructor
  · intro h
    rw [← Text.joinWith_pieces '/' p, ← Text.joinWith_pieces '/' q]
    exact congrArg _ h
  · exact congrArg _

/-- A tree lists each path once, and its paths consist of names. -/
structure WellFormed (t : Tree) : Prop where
  nodup : t.paths.Nodup
  isPath : ∀ p ∈ t.paths, IsPath p

theorem wellFormed_nil : WellFormed [] := ⟨List.nodup_nil, fun _ hp => absurd hp List.not_mem_nil⟩

theorem WellFormed.sublist {t u : Tree} (h : t.WellFormed) (hsub : u.Sublist t) : u.WellFormed :=
  ⟨h.nodup.sublist (hsub.map _), fun p hp => h.isPath p ((hsub.map _).subset hp)⟩

theorem WellFormed.remove {t : Tree} (h : t.WellFormed) (p : Text) : (t.remove p).WellFormed :=
  h.sublist List.filter_sublist

/-- A tree stays well formed when an entry is put into it. -/
theorem WellFormed.put {t : Tree} (h : t.WellFormed) {p : Text} (hp : IsPath p) (e : Entry) :
    (t.put p e).WellFormed := by
  have hkept := h.sublist (u := t.filter fun e => e.1 != p && !below e.1 p && !below p e.1)
    List.filter_sublist
  refine ⟨?_, ?_⟩
  · rw [paths, Tree.put, List.map_append, List.nodup_append]
    refine ⟨hkept.nodup, by simp, ?_⟩
    intro q hq r hr
    rw [List.map_singleton, List.mem_singleton] at hr
    obtain ⟨entry, hentry, rfl⟩ := List.mem_map.mp hq
    have hne := (List.mem_filter.mp hentry).2
    rw [Bool.and_eq_true, Bool.and_eq_true, bne_iff_ne] at hne
    rw [hr]
    exact hne.1.1
  · intro q hq
    rw [paths, Tree.put, List.map_append, List.mem_append] at hq
    rcases hq with hq | hq
    · exact hkept.isPath q hq
    · rw [List.map_singleton, List.mem_singleton] at hq
      rw [hq]
      exact hp

/-! ## Paths that are no directories -/

/-- A tree holds a directory at a path if it holds something below the path. -/
def HasDirectory (t : Tree) (d : Text) : Prop := ∃ p ∈ t.paths, below p d = true

theorem not_below_self (p : Text) : below p p = false := by
  rw [below, Bool.eq_false_iff, ne_eq, List.isPrefixOf_iff_prefix]
  intro h
  have hle := h.length_le
  rw [List.length_append, List.length_singleton] at hle
  omega

/-- A well-formed tree in which no path is a directory. -/
structure Layered (t : Tree) : Prop extends WellFormed t where
  apart : ∀ p ∈ t.paths, ¬t.HasDirectory p

theorem layered_nil : Layered [] := ⟨wellFormed_nil, fun _ hp => absurd hp List.not_mem_nil⟩

theorem Layered.sublist {t u : Tree} (h : t.Layered) (hsub : u.Sublist t) : u.Layered := by
  have hpaths : u.paths ⊆ t.paths := (hsub.map _).subset
  refine ⟨h.toWellFormed.sublist hsub, ?_⟩
  rintro p hp ⟨q, hq, hbelow⟩
  exact h.apart p (hpaths hp) ⟨q, hpaths hq, hbelow⟩

theorem Layered.remove {t : Tree} (h : t.Layered) (p : Text) : (t.remove p).Layered :=
  h.sublist List.filter_sublist

/-- What a tree holds once an entry is put into it: the entry, and of the rest what lies
neither at the path nor below or above it. -/
theorem mem_paths_put {t : Tree} {p q : Text} {e : Entry} (h : q ∈ (t.put p e).paths) :
    (q ∈ t.paths ∧ q ≠ p ∧ below q p = false ∧ below p q = false) ∨ q = p := by
  rw [paths, Tree.put, List.map_append, List.mem_append] at h
  rcases h with h | h
  · obtain ⟨entry, hentry, rfl⟩ := List.mem_map.mp h
    obtain ⟨hmem, hkept⟩ := List.mem_filter.mp hentry
    simp only [Bool.and_eq_true, bne_iff_ne, Bool.not_eq_true', and_assoc] at hkept
    exact .inl ⟨List.mem_map_of_mem hmem, hkept⟩
  · exact .inr (List.mem_singleton.mp h)

/-- A tree stays layered when an entry is put into it. -/
theorem Layered.put {t : Tree} (h : t.Layered) {p : Text} (hp : IsPath p) (e : Entry) :
    (t.put p e).Layered := by
  refine ⟨h.toWellFormed.put hp e, ?_⟩
  rintro q hq ⟨r, hr, hbelow⟩
  rcases mem_paths_put hq with ⟨hq, _, _, habove⟩ | rfl
  · rcases mem_paths_put hr with ⟨hr, _⟩ | rfl
    · exact h.apart q hq ⟨r, hr, hbelow⟩
    · exact Bool.false_ne_true (habove.symm.trans hbelow)
  · rcases mem_paths_put hr with ⟨_, _, hnone, _⟩ | rfl
    · exact Bool.false_ne_true (hnone.symm.trans hbelow)
    · exact Bool.false_ne_true ((not_below_self r).symm.trans hbelow)

end Tree

end Git

end LoudHeaders
