import Mathlib.Algebra.GroupWithZero.Nat
import Mathlib.Data.List.Induction
import LoudHeaders.Proofs.ChangeCounts
import LoudHeaders.Proofs.Path.Order
import LoudHeaders.Proofs.Sorting
import LoudHeaders.Ranking

/-
  The listing of changes.

  Recording changes one by one leaves an entry for each path, spelled as in its first
  change, with the number of its changes (`Tallies`, `tallies_foldl_record`). Sorted, the
  entries stand in a strict order, because equal counts are told apart by the order of
  paths and no path has two entries (`pairwise_mergeSort_before`).

  There is one such listing of the changes (`eq_mergeSort_before_iff`), so the order in
  which the entries are kept does not show in it. Of the order of the changes, it shows
  only which spelling of a path came first: the components and counts are the same for
  all orders (`map_view_eq`).
-/

namespace LoudHeaders

namespace ChangeCounts

/-- What some entries say of some changes. -/
structure Tallies (changes : List Text) (entries : List ChangeCount) : Prop where
  /-- No two entries are for one path. -/
  once : entries.Pairwise fun a b => Path.same a.path b.path = false
  /-- An entry has its path in the spelling of the first change of it. -/
  spelled : ∀ e ∈ entries, changes.find? (fun q => Path.same q e.path) = some e.path
  /-- It counts the changes of its path. -/
  counted : ∀ e ∈ entries, e.count = changes.countP fun q => Path.same q e.path
  /-- The path of each change has an entry. -/
  complete : ∀ p ∈ changes, ∃ e ∈ entries, Path.same e.path p = true

/-- An entry is in front of another one by a larger count, or by its path where the counts
are equal. -/
def Precedes : ChangeCount → ChangeCount → Prop :=
  Ahead ChangeCount.count fun a b => Path.compare a.path b.path = .lt

variable {changes changes' : List Text} {entries entries' : List ChangeCount}

/-! ## The entries of changes -/

theorem pairwise_keys_foldl_record (changes : List Text) :
    (changes.foldl record empty).keys.Pairwise fun p q => Path.same p q = false := by
  induction changes using List.reverseRecOn with
  | nil => exact List.Pairwise.nil
  | append_singleton changes path ih =>
    rw [List.foldl_concat, keys_record]
    split
    · exact ih
    · rename_i hnew
      rw [List.pairwise_append]
      refine ⟨ih, List.pairwise_singleton _ _, ?_⟩
      intro k hk q hq
      obtain rfl := List.mem_singleton.mp hq
      rw [Bool.eq_false_iff]
      intro hsame
      exact hnew (List.any_eq_true.mpr ⟨k, hk, hsame⟩)

/-- A key is the first change of its path. -/
theorem find?_of_mem_keys_foldl_record {k : Text} (h : k ∈ (changes.foldl record empty).keys) :
    changes.find? (fun q => Path.same q k) = some k := by
  induction changes using List.reverseRecOn with
  | nil => cases h
  | append_singleton changes path ih =>
    have hold (hk : k ∈ (changes.foldl record empty).keys) :
        (changes ++ [path]).find? (fun q => Path.same q k) = some k := by
      rw [List.find?_append, ih hk]
      rfl
    rw [List.foldl_concat, keys_record] at h
    split at h
    · exact hold h
    rename_i hnew
    rcases List.mem_append.mp h with hk | hk
    · exact hold hk
    · obtain rfl := List.mem_singleton.mp hk
      have hnone : changes.find? (fun q => Path.same q k) = none := by
        rw [List.find?_eq_none]
        intro q hq hsame
        obtain ⟨key, hkey, hkeyq⟩ := exists_key_of_mem_foldl_record hq
        rw [Path.same_iff] at hsame hkeyq
        exact hnew (List.any_eq_true.mpr ⟨key, hkey, Path.same_iff.mpr (hkeyq.trans hsame)⟩)
      rw [List.find?_append, hnone]
      simp [Path.same_self]

/-- Where each path has one entry, that entry is found. -/
theorem get?_of_mem {c : ChangeCounts} (h : c.keys.Pairwise fun p q => Path.same p q = false)
    {e : ChangeCount} (he : e ∈ c.counts) : c.get? e.path = some e.count := by
  have hfind (entries : List ChangeCount) (he : e ∈ entries)
      (h : (entries.map ChangeCount.path).Pairwise fun p q => Path.same p q = false) :
      entries.find? (fun d => Path.same d.path e.path) = some e := by
    induction entries with
    | nil => cases he
    | cons d rest ih =>
      rw [List.map_cons, List.pairwise_cons] at h
      rcases List.mem_cons.mp he with rfl | hrest
      · rw [List.find?_cons, Path.same_self]
      · have hother : Path.same d.path e.path = false := h.1 _ (List.mem_map_of_mem hrest)
        rw [List.find?_cons, hother]
        exact ih hrest h.2
  rw [get?, hfind c.counts he h]
  rfl

theorem tallies_foldl_record (changes : List Text) :
    Tallies changes (changes.foldl record empty).counts where
  once := List.pairwise_map.mp (pairwise_keys_foldl_record changes)
  spelled _ he := find?_of_mem_keys_foldl_record (List.mem_map_of_mem he)
  counted e he := by
    have hfound := get?_of_mem (pairwise_keys_foldl_record changes) he
    rw [get?_foldl_record e.path changes empty 0 rfl, Nat.zero_add, stored_eq_some_iff] at hfound
    exact hfound.1.symm
  complete p hp := by
    obtain ⟨key, hkey, hsame⟩ := exists_key_of_mem_foldl_record hp
    obtain ⟨e, he, rfl⟩ := List.mem_map.mp hkey
    exact ⟨e, he, hsame⟩

theorem Tallies.of_perm (h : Tallies changes entries) (hperm : entries.Perm entries') :
    Tallies changes entries' where
  once := by
    refine (hperm.pairwise_iff ?_).mp h.once
    intro a b hab
    rw [Path.same, Bool.beq_comm]
    exact hab
  spelled e he := h.spelled e (hperm.mem_iff.mpr he)
  counted e he := h.counted e (hperm.mem_iff.mpr he)
  complete p hp := by
    obtain ⟨e, he, hsame⟩ := h.complete p hp
    exact ⟨e, hperm.mem_iff.mp he, hsame⟩

/-- All changes are counted. -/
theorem sum_foldl_record (changes : List Text) :
    ((changes.foldl record empty).counts.map ChangeCount.count).sum = changes.length := by
  have hupdate (path : Text) (entries : List ChangeCount) :
      ((update path (· + 1) entries).map ChangeCount.count).sum =
        (entries.map ChangeCount.count).sum + 1 := by
    induction entries with
    | nil => rfl
    | cons e rest ih =>
      rw [update]
      split
      · simp only [List.map_cons, List.sum_cons]
        omega
      · simp only [List.map_cons, List.sum_cons, ih]
        omega
  induction changes using List.reverseRecOn with
  | nil => rfl
  | append_singleton changes path ih =>
    rw [List.foldl_concat, record, hupdate, ih, List.length_append, List.length_singleton]

/-! ## One listing of the entries -/

/-- An entry without its spelling. -/
def view (e : ChangeCount) : List Component × Nat := (Path.components e.path, e.count)

/-- The same order, seen without spellings. -/
def ViewPrecedes : List Component × Nat → List Component × Nat → Prop :=
  Ahead Prod.snd fun x y => Path.compareComponents x.1 y.1 = .lt

theorem viewPrecedes_asymm {x y : List Component × Nat} (hxy : ViewPrecedes x y) :
    ¬ViewPrecedes y x := by
  intro hyx
  rcases hxy with hlt | ⟨heq, hless⟩
  · rcases hyx with hlt' | ⟨heq', _⟩
    · omega
    · omega
  · rcases hyx with hlt' | ⟨_, hmore⟩
    · omega
    · have hswap := @Std.OrientedCmp.eq_swap _ Path.compareComponents _ x.1 y.1
      rw [hless, hmore] at hswap
      cases hswap

theorem pairwise_view (h : entries.Pairwise Precedes) : (entries.map view).Pairwise ViewPrecedes :=
  List.pairwise_map.mpr h

theorem nodup_view (h : entries.Pairwise Precedes) : (entries.map view).Nodup :=
  (pairwise_view h).imp fun hxy heq => by
    subst heq
    exact viewPrecedes_asymm hxy hxy

/-- Without spellings, the entries are the paths of the changes, each with its number. -/
theorem Tallies.mem_view_iff (h : Tallies changes entries) {x : List Component × Nat} :
    x ∈ entries.map view ↔
      ∃ p ∈ changes, x = (Path.components p, changes.countP fun q => Path.same q p) := by
  constructor
  · intro hx
    obtain ⟨e, he, rfl⟩ := List.mem_map.mp hx
    refine ⟨e.path, List.mem_of_find?_eq_some (h.spelled e he), ?_⟩
    rw [view, h.counted e he]
  · rintro ⟨p, hp, rfl⟩
    obtain ⟨e, he, hsame⟩ := h.complete p hp
    refine List.mem_map.mpr ⟨e, he, ?_⟩
    rw [view, h.counted e he, Path.same_iff.mp hsame]
    simp only [Path.same_congr hsame]

/-- Two listings of the same changes, in whatever orders these came, agree but for the
spellings. -/
theorem map_view_eq (hperm : changes.Perm changes') (h : Tallies changes entries)
    (h' : Tallies changes' entries') (hordered : entries.Pairwise Precedes)
    (hordered' : entries'.Pairwise Precedes) : entries.map view = entries'.map view := by
  have hmem (x : List Component × Nat) : x ∈ entries.map view ↔ x ∈ entries'.map view := by
    rw [h.mem_view_iff, h'.mem_view_iff]
    constructor
    · rintro ⟨p, hp, rfl⟩
      exact ⟨p, hperm.mem_iff.mp hp, by rw [hperm.countP_eq]⟩
    · rintro ⟨p, hp, rfl⟩
      exact ⟨p, hperm.mem_iff.mpr hp, by rw [hperm.countP_eq]⟩
  have hviews : (entries.map view).Perm (entries'.map view) :=
    (List.perm_ext_iff_of_nodup (nodup_view hordered) (nodup_view hordered')).mpr hmem
  apply hviews.eq_of_pairwise _ (pairwise_view hordered) (pairwise_view hordered')
  intro x y _ _ hxy hyx
  exact absurd hyx (viewPrecedes_asymm hxy)

/-- The changes say how the paths of a listing are spelled. -/
theorem eq_of_map_view_eq (h : Tallies changes entries) (h' : Tallies changes entries')
    (hview : entries.map view = entries'.map view) : entries = entries' := by
  let spell (x : List Component × Nat) : ChangeCount :=
    ⟨(changes.find? fun q => Path.components q == x.1).getD [], x.2⟩
  have hback {es : List ChangeCount} (hes : Tallies changes es) : (es.map view).map spell = es := by
    rw [List.map_map]
    refine (List.map_congr_left fun e he => ?_).trans (List.map_id es)
    have hspelled : changes.find? (fun q => Path.components q == Path.components e.path) =
        some e.path := hes.spelled e he
    simp only [Function.comp_apply, spell, view, hspelled, Option.getD_some, id_eq]
  rw [← hback h, hview, hback h']

/-! ## Sorting -/

theorem before_iff {a b : ChangeCount} :
    before a b = true ↔ b.count < a.count ∨
      (b.count = a.count ∧ (Path.compareComponents (Path.components a.path)
        (Path.components b.path)).isLE = true) := by
  simp only [before, Path.compare, Bool.or_eq_true, Bool.and_eq_true, decide_eq_true_eq,
    beq_iff_eq]

theorem before_trans (a b c : ChangeCount) (hab : before a b = true) (hbc : before b c = true) :
    before a c = true := by
  rw [before_iff] at hab hbc ⊢
  rcases hab with hab | ⟨hab, hpath⟩
  · left
    omega
  · rcases hbc with hbc | ⟨hbc, hpath'⟩
    · left
      omega
    · right
      exact ⟨hbc.trans hab, Std.TransCmp.isLE_trans hpath hpath'⟩

theorem before_total (a b : ChangeCount) : (before a b || before b a) = true := by
  rw [Bool.or_eq_true, before_iff, before_iff]
  rcases Nat.lt_trichotomy a.count b.count with hlt | heq | hgt
  · exact .inr (.inl hlt)
  · rw [← Std.OrientedCmp.isGE_iff_isLE (a := Path.components a.path)]
    cases Path.compareComponents (Path.components a.path) (Path.components b.path) with
    | lt => exact .inl (.inr ⟨heq.symm, rfl⟩)
    | eq => exact .inl (.inr ⟨heq.symm, rfl⟩)
    | gt => exact .inr (.inr ⟨heq, rfl⟩)
  · exact .inl (.inl hgt)

/-- Entries of different paths never stand level. -/
theorem precedes_of_before {a b : ChangeCount} (h : before a b = true)
    (hother : Path.same a.path b.path = false) : Precedes a b := by
  rcases before_iff.mp h with hcount | ⟨hcount, hpath⟩
  · exact .inl hcount
  · refine .inr ⟨hcount, ?_⟩
    have hne : Path.compare a.path b.path ≠ .eq := by
      rw [Ne, Path.compare_eq_iff, hother]
      exact Bool.false_ne_true
    cases hcompare : Path.compare a.path b.path with
    | lt => exact hcompare
    | eq => exact absurd hcompare hne
    | gt =>
      rw [← Path.compare, hcompare] at hpath
      cases hpath

theorem pairwise_mergeSort_before (h : Tallies changes entries) :
    (entries.mergeSort before).Pairwise Precedes := by
  have honce := (h.of_perm (List.mergeSort_perm entries before).symm).once
  have hsorted := List.pairwise_mergeSort before_trans before_total entries
  exact (hsorted.and honce).imp fun hab => precedes_of_before hab.1 hab.2

/-- Sorting gives the only listing of the changes. -/
theorem eq_mergeSort_before_iff (h : Tallies changes entries) {items : List ChangeCount} :
    items = entries.mergeSort before ↔ Tallies changes items ∧ items.Pairwise Precedes := by
  have hsorted : Tallies changes (entries.mergeSort before) :=
    h.of_perm (List.mergeSort_perm entries before).symm
  constructor
  · rintro rfl
    exact ⟨hsorted, pairwise_mergeSort_before h⟩
  · rintro ⟨hitems, hordered⟩
    apply eq_of_map_view_eq hitems hsorted
    exact map_view_eq (.refl changes) hitems hsorted hordered (pairwise_mergeSort_before h)

/-! ## Counts that are words -/

theorem record?_foldl_record (changes : List Text) (path : Text) :
    (changes.foldl record empty).record? path =
      if Text.wordBound ≤ (changes.countP fun q => Path.same q path) + 1 then none
      else some ((changes ++ [path]).foldl record empty) := by
  have hget := get?_foldl_record path changes empty 0 rfl
  rw [Nat.zero_add] at hget
  have hfull : ((stored (changes.countP fun q => Path.same q path)).any fun count =>
      decide (Text.wordBound ≤ count + 1)) =
      decide (Text.wordBound ≤ (changes.countP fun q => Path.same q path) + 1) := by
    cases changes.countP fun q => Path.same q path with
    | zero => decide
    | succ n => rfl
  rw [record?, hget, hfull, List.foldl_concat]
  simp only [decide_eq_true_eq]

/-- Changes can be recorded in words as long as none of their paths has more than the
largest one, and are recorded the same then. -/
theorem foldlM_record?_eq_some_iff {c : ChangeCounts} :
    changes.foldlM record? empty = some c ↔
      (∀ p, (changes.countP fun q => Path.same q p) < Text.wordBound) ∧
        c = changes.foldl record empty := by
  induction changes using List.reverseRecOn generalizing c with
  | nil =>
    have hzero : 0 < Text.wordBound := by decide
    simp [hzero, eq_comm]
  | append_singleton changes path ih =>
    have hcount (p : Text) : ((changes ++ [path]).countP fun q => Path.same q p) =
        (changes.countP fun q => Path.same q p) + if Path.same path p = true then 1 else 0 := by
      rw [List.countP_append, List.countP_singleton]
    have hsame {p : Text} (hp : Path.same path p = true) :
        (changes.countP fun q => Path.same q p) = changes.countP fun q => Path.same q path := by
      simp only [Path.same_congr hp]
    rw [List.foldlM_append, Option.bind_eq_bind, Option.bind_eq_some_iff]
    simp only [List.foldlM_cons, List.foldlM_nil, bind_pure]
    constructor
    · rintro ⟨before, hbefore, hlast⟩
      obtain ⟨hwords, rfl⟩ := ih.mp hbefore
      rw [record?_foldl_record] at hlast
      split at hlast
      · cases hlast
      rename_i hroom
      refine ⟨fun p => ?_, (Option.some.inj hlast).symm⟩
      rw [hcount]
      split
      · rename_i hp
        rw [hsame hp]
        omega
      · exact hwords p
    · rintro ⟨hwords, rfl⟩
      have hroom : ¬Text.wordBound ≤ (changes.countP fun q => Path.same q path) + 1 := by
        have hpath := hwords path
        rw [hcount, if_pos (Path.same_self path)] at hpath
        omega
      refine ⟨changes.foldl record empty, ih.mpr ⟨fun p => ?_, rfl⟩, ?_⟩
      · have hp := hwords p
        rw [hcount] at hp
        omega
      · rw [record?_foldl_record, if_neg hroom]

/-! ## The whole account -/

/-- **Changes are listed by how often their paths came up, each path once.** The listing has
the spelling of the first change of each path and the number of its changes, and these
numbers add up to that of the changes. Larger ones come first, and equal ones by path, which
leaves no choice: it does not matter in what order the entries are kept, and the order of
the changes decides nothing but spellings. A ranking is the front of the listing. As long
as all numbers are words, nothing stops the recording. -/
theorem lists_changes (changes : List Text) :
    let c := changes.foldl record empty
    (∀ p, c.get? p = stored (changes.countP fun q => Path.same q p)) ∧
    (∀ items : List ChangeCount,
      items = c.sortedItems ↔ Tallies changes items ∧ items.Pairwise Precedes) ∧
    (∀ entries : List ChangeCount, entries.Perm c.counts →
      entries.mergeSort before = c.sortedItems) ∧
    (∀ changes' : List Text, changes'.Perm changes →
      (∀ p, (changes'.foldl record empty).get? p = c.get? p) ∧
      (changes'.foldl record empty).sortedItems.map view = c.sortedItems.map view) ∧
    (c.sortedItems.map ChangeCount.count).sum = changes.length ∧
    (∀ n, Ranking.rankChanges c n = (c.sortedItems.map fun e => ⟨e.path, e.count⟩).take n) ∧
    ∀ found, changes.foldlM record? empty = some found ↔
      (∀ p, (changes.countP fun q => Path.same q p) < Text.wordBound) ∧ found = c := by
  intro c
  have hget (changes : List Text) (p : Text) : (changes.foldl record empty).get? p =
      stored (changes.countP fun q => Path.same q p) := by
    rw [get?_foldl_record p changes empty 0 rfl, Nat.zero_add]
  have htallies : Tallies changes c.counts := tallies_foldl_record changes
  refine ⟨hget changes, fun items => eq_mergeSort_before_iff htallies, ?_, ?_, ?_, ?_, ?_⟩
  · intro entries hperm
    have hentries : Tallies changes entries := htallies.of_perm hperm.symm
    exact (eq_mergeSort_before_iff htallies).mpr
      ((eq_mergeSort_before_iff hentries).mp rfl)
  · intro changes' hperm
    have htallies' : Tallies changes' (changes'.foldl record empty).counts :=
      tallies_foldl_record changes'
    refine ⟨fun p => ?_, ?_⟩
    · rw [hget, hget, hperm.countP_eq]
    · obtain ⟨hitems, hordered⟩ := (eq_mergeSort_before_iff htallies).mp rfl
      obtain ⟨hitems', hordered'⟩ := (eq_mergeSort_before_iff htallies').mp rfl
      exact map_view_eq hperm hitems' hitems hordered' hordered
  · calc (c.sortedItems.map ChangeCount.count).sum
        = (c.counts.map ChangeCount.count).sum :=
          ((List.mergeSort_perm c.counts before).map _).sum_nat
      _ = changes.length := sum_foldl_record changes
  · intro n
    exact List.map_take
  · intro found
    exact foldlM_record?_eq_some_iff

/-- Changes of three paths, one of them in three spellings. -/
def respelled : List Text :=
  ["./b".toList, "/r//a".toList, "b".toList, "/r/a/".toList, "/r/./a".toList]

/-- Their listing. The path `./b` is not `b`, and in front of it. -/
def respelledListing : List ChangeCount :=
  [⟨"/r//a".toList, 3⟩, ⟨"./b".toList, 1⟩, ⟨"b".toList, 1⟩]

theorem tallies_respelled : Tallies respelled respelledListing where
  once := by decide
  spelled := by decide
  counted := by decide
  complete := by decide

theorem lists_changes_respelled :
    respelled.reverse.Perm respelled ∧
    (respelled.foldl record empty).sortedItems = respelledListing ∧
    (respelled.reverse.foldl record empty).sortedItems.map view = respelledListing.map view ∧
    respelledListing.reverse.mergeSort before = respelledListing ∧
    Ranking.rankChanges (respelled.foldl record empty) 2 =
      [⟨"/r//a".toList, 3⟩, ⟨"./b".toList, 1⟩] := by
  obtain ⟨_, hlisting, hentries, horders, _, hrank, _⟩ := lists_changes respelled
  have hordered : respelledListing.Pairwise Precedes := by
    unfold Precedes Ahead
    decide
  have hsorted : respelledListing = (respelled.foldl record empty).sortedItems :=
    (hlisting _).mpr ⟨tallies_respelled, hordered⟩
  rw [← hsorted] at hentries horders hrank
  have hreverse : respelled.reverse.Perm respelled := List.reverse_perm respelled
  have hkept : respelledListing.reverse.Perm (respelled.foldl record empty).counts := by decide
  exact ⟨hreverse, hsorted.symm, (horders _ hreverse).2, hentries _ hkept, hrank 2⟩

end ChangeCounts

end LoudHeaders
