import LoudHeaders.Proofs.Ranking.Order

/-
  Rankings and first-listed order.

  The entries of an index stand in first-listed order, and sorting keeps that order among
  headers with as many targets (`louder_sortedItems`). A ranking without change counts
  sorts these entries once more, which changes nothing, and cuts them off
  (`ranks_by_targets`).

  A ranking with change counts scores the entries first and sorts them then. Where every
  header has the same count, the scores compare as the numbers of targets do, so the two
  rankings have the same headers in the same order (`ranks_constant_counts`), those of
  equal score included.
-/

namespace LoudHeaders

namespace Ranking

open HeaderIndex (listed ofTargets)

/-- An entry is in front of another one in a sorted index: its header has more targets, or
has as many and was listed first. -/
def Louder (targets : List CompileTarget) : HeaderEntry → HeaderEntry → Prop :=
  Ahead (fun e => e.targets.length) fun a b =>
    (listed targets).idxOf a.header < (listed targets).idxOf b.header

/-- The score of an entry, multiplied. -/
def scale (c : Nat) (e : RankEntry) : RankEntry := ⟨e.path, c * e.score⟩

/-! ## Sorting once and twice -/

theorem order_order (entries : List RankEntry) : order (order entries) = order entries :=
  byFalling_of_pairwise (order_sorted entries)

theorem fits_order (entries : List RankEntry) : fits (order entries) = fits entries :=
  (order_perm entries).all_eq

/-- Candidates that are in the same order when sorted have the same rankings. -/
theorem rank_congr {i j : HeaderIndex} {changes changes' : Option ChangeCounts}
    (h : order (candidates i changes) = order (candidates j changes')) (n : Nat) :
    rank i changes n = rank j changes' n := by
  show (if fits (candidates i changes) = true then _ else _) =
    if fits (candidates j changes') = true then _ else _
  rw [← fits_order (candidates i changes), ← fits_order (candidates j changes'), h]

theorem candidates_plain (targets : List CompileTarget) :
    candidates (ofTargets targets) none = order (scored none targets) := by
  rw [← map_plain_items]
  exact map_byFalling fun _ _ _ _ => Iff.rfl

/-- Sorting sorted entries by their scores changes nothing. -/
theorem order_candidates_plain (targets : List CompileTarget) :
    order (candidates (ofTargets targets) none) = (ofTargets targets).sortedItems.map plain := by
  rw [candidates_plain, order_order, ← candidates_plain]
  rfl

theorem length_sortedItems (index : HeaderIndex) : index.sortedItems.length = index.size :=
  List.length_mergeSort _

/-! ## Rankings by the number of targets -/

/-- The sorted entries are the only ones in this order. -/
theorem eq_sortedItems_iff {targets : List CompileTarget} {entries : List HeaderEntry} :
    entries = (ofTargets targets).sortedItems ↔
      entries.Perm (ofTargets targets).items ∧ entries.Pairwise (Louder targets) := by
  have hheaders : ((ofTargets targets).items.map HeaderEntry.header).Pairwise fun h k =>
      (listed targets).idxOf h < (listed targets).idxOf k := by
    rw [HeaderIndex.header_items]
    exact HeaderIndex.pairwise_idxOf_eraseDups _
  rw [List.pairwise_map] at hheaders
  exact eq_byFalling_iff (fun _ _ hab => Nat.lt_asymm hab) hheaders

/-- There is a ranking exactly if all numbers of targets are words, and it is the front of
the sorted entries. -/
theorem rank_plain_iff {targets : List CompileTarget} {n : Nat} {ranking : List RankEntry} :
    rank (ofTargets targets) none n = some ranking ↔
      (∀ e ∈ (ofTargets targets).items, e.targets.length < Text.wordBound) ∧
        ranking = ((ofTargets targets).sortedItems.map plain).take n := by
  rw [rank_eq_some_iff, order_candidates_plain]
  apply and_congr_left'
  show (∀ e ∈ (ofTargets targets).sortedItems.map plain, _) ↔ _
  rw [List.forall_mem_map]
  exact forall_congr' fun e => imp_congr_left (byFalling_perm _ _).mem_iff

/-- **A ranking without change counts is the front of the sorted entries.** These are
the only arrangement of the entries in which the numbers of targets fall and equal ones
stay in first-listed order. There is a ranking if the numbers of targets are words; one
with room for more entries starts with it, and no header that it leaves out has more
targets than the last one that it keeps. -/
theorem ranks_by_targets (targets : List CompileTarget) :
    let index := ofTargets targets
    (∀ entries, entries = index.sortedItems ↔
      entries.Perm index.items ∧ entries.Pairwise (Louder targets)) ∧
    (∀ n ranking, rank index none n = some ranking ↔
      (∀ e ∈ index.items, e.targets.length < Text.wordBound) ∧
        ranking = (index.sortedItems.take (min n index.size)).map fun e =>
          ⟨e.header, e.targets.length⟩) ∧
    (∀ n m xs ys, n ≤ m → rank index none n = some xs → rank index none m = some ys →
      xs <+: ys) ∧
    ∀ n xs last, rank index none n = some xs → xs.getLast? = some last →
      ∀ e ∈ index.items, e.header ∉ xs.map RankEntry.path → e.targets.length ≤ last.score := by
  intro index
  refine ⟨fun entries => eq_sortedItems_iff, fun n ranking => ?_, fun n m xs ys hnm hxs hys => ?_,
    fun n xs last hxs hlast e he hout => ?_⟩
  · have hmin : index.sortedItems.take (min n index.size) = index.sortedItems.take n := by
      rw [← length_sortedItems, ← List.take_eq_take_min]
    rw [rank_plain_iff, hmin, List.map_take]
    rfl
  · rw [(rank_plain_iff.mp hxs).2, (rank_plain_iff.mp hys).2]
    exact List.take_prefix_take_left hnm
  · by_contra hmore
    obtain ⟨_, rfl⟩ := rank_eq_some_iff.mp hxs
    -- a header above the last score is kept
    have hcandidate : plain e ∈ candidates index none :=
      List.mem_map_of_mem ((byFalling_perm _ _).mem_iff.mpr he)
    have hkept := (mem_take_order_iff hlast (Nat.lt_of_not_le hmore)).mpr hcandidate
    exact hout (List.mem_map_of_mem hkept)

/-- Three targets in two directories. The header `b` is listed last, and twice; `a` and `c`
are listed once. -/
def tied : List CompileTarget :=
  [⟨['x'], ['/', 's'], ['o'], [['a'], ['c']]⟩, ⟨['y'], ['/', 's'], ['p'], [['b']]⟩,
    ⟨['z'], ['/', 't'], ['q'], [['b']]⟩]

/-- The entry of a header in the index of these targets. -/
def tiedEntry (header : Text) : HeaderEntry :=
  ⟨header, tied.filter fun t => t.dependencies.contains header⟩

theorem items_tied : (ofTargets tied).items = [tiedEntry ['a'], tiedEntry ['c'], tiedEntry ['b']] := by
  rw [(HeaderIndex.records_ofTargets tied).items_eq]
  decide

theorem louder_tied :
    [tiedEntry ['b'], tiedEntry ['a'], tiedEntry ['c']].Perm (ofTargets tied).items ∧
    [tiedEntry ['b'], tiedEntry ['a'], tiedEntry ['c']].Pairwise (Louder tied) := by
  rw [items_tied]
  unfold Louder Ahead
  decide

theorem ranks_by_targets_tied :
    (ofTargets tied).sortedItems = [tiedEntry ['b'], tiedEntry ['a'], tiedEntry ['c']] ∧
    rank (ofTargets tied) none 1 = some [⟨['b'], 2⟩] ∧
    rank (ofTargets tied) none 2 = some [⟨['b'], 2⟩, ⟨['a'], 1⟩] ∧
    [⟨['b'], 2⟩] <+: [(⟨['b'], 2⟩ : RankEntry), ⟨['a'], 1⟩] ∧
    (tiedEntry ['c']).targets.length ≤ 1 := by
  obtain ⟨hsorted, hrank, hfront, hout⟩ := ranks_by_targets tied
  have hentries : [tiedEntry ['b'], tiedEntry ['a'], tiedEntry ['c']] =
      (ofTargets tied).sortedItems := (hsorted _).mpr louder_tied
  have hwords : ∀ e ∈ (ofTargets tied).items, e.targets.length < Text.wordBound := by
    rw [items_tied]
    decide
  have hsize : (ofTargets tied).size = 3 := by
    rw [HeaderIndex.size_ofTargets]
    decide
  have hone : rank (ofTargets tied) none 1 = some [⟨['b'], 2⟩] := by
    rw [hrank, ← hentries, hsize]
    exact ⟨hwords, rfl⟩
  have htwo : rank (ofTargets tied) none 2 = some [⟨['b'], 2⟩, ⟨['a'], 1⟩] := by
    rw [hrank, ← hentries, hsize]
    exact ⟨hwords, rfl⟩
  have hc : tiedEntry ['c'] ∈ (ofTargets tied).items := by
    rw [items_tied]
    decide
  exact ⟨hentries.symm, hone, htwo, hfront 1 2 _ _ (by decide) hone htwo,
    hout 2 _ _ htwo rfl _ hc (by decide)⟩

/-! ## Rankings with one count for all headers -/

theorem scale_one : scale 1 = id := by
  funext e
  simp [scale]

theorem order_map_scale {c : Nat} (hc : 1 ≤ c) (entries : List RankEntry) :
    order (entries.map (scale c)) = (order entries).map (scale c) := by
  refine (map_byFalling fun a _ b _ => ?_).symm
  exact (Nat.mul_le_mul_left_iff hc).symm

/-- With one count for all headers, the scores are the numbers of targets times that
count. -/
theorem scored_constant {targets : List CompileTarget} {changes : ChangeCounts} {c : Nat}
    (h : ∀ header t, firstLister targets header = some t →
      changes.get? (Path.absolutize t.directory header) = some c) :
    scored (some changes) targets = (scored none targets).map (scale c) := by
  rw [scored, scored, List.map_filterMap]
  apply List.filterMap_congr
  intro header hheader
  obtain ⟨t, ht⟩ := exists_firstLister (List.mem_eraseDups.mp hheader)
  have hcount : changes.get? (fileNamed targets header) = some c := by
    rw [fileNamed, ht]
    exact h header t ht
  rw [score?, score?, hcount]
  rfl

/-- **With the same count for every header, a ranking is the one without counts.** The
headers are the same and in the same order, and the scores are multiplied by the count,
if they are words then. -/
theorem ranks_constant_counts {targets : List CompileTarget} {changes : ChangeCounts} {c : Nat}
    (hc : 1 ≤ c)
    (hcounts : ∀ header t, firstLister targets header = some t →
      changes.get? (Path.absolutize t.directory header) = some c) (n : Nat) :
    let index := ofTargets targets
    (c = 1 → rank index (some changes) n = rank index none n) ∧
    ((∀ e ∈ index.items, c * e.targets.length < Text.wordBound) →
      ∃ ranking, rank index none n = some ranking ∧
        rank index (some changes) n = some (ranking.map fun e => ⟨e.path, c * e.score⟩)) := by
  intro index
  have hcandidates : candidates index (some changes) = (scored none targets).map (scale c) := by
    rw [candidates_weighted, scored_constant hcounts]
  have hsorted : order (candidates index (some changes)) =
      (index.sortedItems.map plain).map (scale c) := by
    rw [hcandidates, order_map_scale hc, ← candidates_plain]
    rfl
  refine ⟨fun hone => rank_congr ?_ n, fun hwords => ⟨(index.sortedItems.map plain).take n, ?_⟩⟩
  · rw [hsorted, hone, scale_one, List.map_id, order_candidates_plain]
  constructor
  · refine rank_plain_iff.mpr ⟨fun e he => ?_, rfl⟩
    calc e.targets.length
        ≤ c * e.targets.length := Nat.le_mul_of_pos_left _ hc
      _ < Text.wordBound := hwords e he
  · refine rank_eq_some_iff.mpr ⟨?_, ?_⟩
    · rw [hcandidates, ← map_plain_items, List.map_map]
      exact List.forall_mem_map.mpr hwords
    · rw [hsorted]
      exact List.map_take

/-- Three changes of each header's file, and seven of another one. -/
def threeEach : ChangeCounts :=
  ⟨[⟨"/s/a".toList, 3⟩, ⟨"/s/b".toList, 3⟩, ⟨"/s/c".toList, 3⟩, ⟨"/t/b".toList, 7⟩]⟩

theorem ranks_constant_counts_tied :
    (∀ header t, firstLister tied header = some t →
      threeEach.get? (Path.absolutize t.directory header) = some 3) ∧
    rank (ofTargets tied) none 2 = some [⟨['b'], 2⟩, ⟨['a'], 1⟩] ∧
    rank (ofTargets tied) (some threeEach) 2 = some [⟨['b'], 6⟩, ⟨['a'], 3⟩] := by
  have hcounts : ∀ header t, firstLister tied header = some t →
      threeEach.get? (Path.absolutize t.directory header) = some 3 := by
    intro header t ht
    obtain ⟨hmem, hlists⟩ := mem_of_firstLister ht
    have hall : ∀ t ∈ tied, ∀ header ∈ t.dependencies, firstLister tied header = some t →
        threeEach.get? (Path.absolutize t.directory header) = some 3 := by decide
    exact hall t hmem header hlists ht
  have hwords : ∀ e ∈ (ofTargets tied).items, 3 * e.targets.length < Text.wordBound := by
    rw [items_tied]
    decide
  obtain ⟨ranking, hplain, hweighted⟩ := (ranks_constant_counts (by decide) hcounts 2).2 hwords
  have hranking : ranking = [⟨['b'], 2⟩, ⟨['a'], 1⟩] := by
    rw [(rank_plain_iff.mp hplain).2, ← eq_sortedItems_iff.mpr louder_tied]
    rfl
  rw [hranking] at hplain hweighted
  exact ⟨hcounts, hplain, hweighted⟩

end Ranking

end LoudHeaders
