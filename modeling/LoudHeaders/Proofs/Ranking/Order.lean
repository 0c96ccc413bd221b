import LoudHeaders.Proofs.HeaderIndex
import LoudHeaders.Proofs.Path.Walk
import LoudHeaders.Proofs.Sorting
import LoudHeaders.Ranking

/-
  Rankings of the same targets in different orders.

  What a header scores is a matter of how often it is listed and, in a weighted ranking,
  of the first target that lists it (`score?`); the scored headers of an index are one
  entry for each header that has a score (`candidates_perm`). A ranking is these by
  falling score, cut off after some entries. So
    1. the scores in a ranking are those of its candidates, whatever order these come in
       (`scores_order_congr`);
    2. what stands above the last score of a ranking is all there is above that score
       (`mem_take_order_iff`);
    3. targets in another order have the same ranking, up to the order of equal scores
       and to which of the entries with the last score are cut off (`ranks_of_perm`).

  For 3. a weighted ranking needs that the targets that list a header agree on the file
  it names. Absolute headers name one file; relative ones do if those that list them do
  so from one directory.
-/

namespace LoudHeaders

namespace Ranking

open HeaderIndex (listed listings ofTargets tabulate under)

/-! ## What a header scores -/

/-- The first of some targets that lists a header. -/
def firstLister (targets : List CompileTarget) (header : Text) : Option CompileTarget :=
  targets.find? fun t => t.dependencies.contains header

/-- The file that a header names, taken from the directory of the first target that lists
it. -/
def fileNamed (targets : List CompileTarget) (header : Text) : Text :=
  Path.absolutize (((firstLister targets header).map CompileTarget.directory).getD ['/']) header

/-- The score of a header: how often it is listed, and that times the changes of its file
in a weighted ranking, if the file was ever changed. -/
def score? (changes : Option ChangeCounts) (targets : List CompileTarget) (header : Text) :
    Option Nat :=
  match changes with
  | none => some ((listed targets).count header)
  | some counts => (counts.get? (fileNamed targets header)).map fun count =>
      count * (listed targets).count header

/-- The scored headers, in first-listed order. -/
def scored (changes : Option ChangeCounts) (targets : List CompileTarget) : List RankEntry :=
  (listed targets).eraseDups.filterMap fun header =>
    (score? changes targets header).map (RankEntry.mk header)

theorem head?_under (targets : List CompileTarget) (header : Text) :
    (under (listings targets) header).head? = firstLister targets header := by
  rw [HeaderIndex.under_listings]
  induction targets with
  | nil => rfl
  | cons t rest ih =>
    rw [List.flatMap_cons, firstLister, List.find?_cons, List.head?_append]
    cases hlists : t.dependencies.contains header with
    | true =>
      have hcount := List.count_pos_iff.mpr (List.contains_iff_mem.mp hlists)
      rw [List.head?_replicate, if_neg (by omega)]
      rfl
    | false =>
      have hcount : t.dependencies.count header = 0 := by
        rw [List.count_eq_zero, ← List.contains_iff_mem, hlists]
        exact Bool.false_ne_true
      rw [hcount, ih]
      rfl

theorem targets_length (targets : List CompileTarget) (header : Text) :
    (under (listings targets) header).length = (listed targets).count header := by
  rw [HeaderIndex.length_under, HeaderIndex.header_listings]

theorem candidates_weighted (counts : ChangeCounts) (targets : List CompileTarget) :
    candidates (ofTargets targets) (some counts) = scored (some counts) targets := by
  rw [candidates, (HeaderIndex.records_ofTargets targets).items_eq, tabulate,
    HeaderIndex.header_listings, List.filterMap_map, scored]
  congr 1
  funext header
  simp [weighted?, score?, fileOf, fileNamed, head?_under, targets_length, Function.comp_def]

/-- Without change counts, the entries of an index are scored in first-listed order. -/
theorem map_plain_items (targets : List CompileTarget) :
    (ofTargets targets).items.map plain = scored none targets := by
  rw [(HeaderIndex.records_ofTargets targets).items_eq, tabulate, HeaderIndex.header_listings,
    List.map_map, scored, ← List.filterMap_eq_map]
  congr 1
  funext header
  simp [plain, score?, targets_length]

/-- The candidates of an index are the headers that its targets list, with their
scores. -/
theorem candidates_perm (changes : Option ChangeCounts) (targets : List CompileTarget) :
    (candidates (ofTargets targets) changes).Perm (scored changes targets) := by
  cases changes with
  | some counts => rw [candidates_weighted]
  | none =>
    have hsorted : ((ofTargets targets).sortedItems.map plain).Perm
        ((ofTargets targets).items.map plain) := (List.mergeSort_perm _ _).map _
    rw [← map_plain_items]
    exact hsorted

/-! ## Rankings -/

theorem order_perm (entries : List RankEntry) : (order entries).Perm entries :=
  List.mergeSort_perm _ _

theorem order_sorted (entries : List RankEntry) :
    (order entries).Pairwise fun a b => b.score ≤ a.score :=
  byFalling_sorted RankEntry.score entries

/-- Entries in any order have one list of falling scores. -/
theorem scores_order_congr {es fs : List RankEntry} (h : es.Perm fs) :
    (order es).map RankEntry.score = (order fs).map RankEntry.score := by
  have hsorted (entries : List RankEntry) :
      ((order entries).map RankEntry.score).Pairwise fun a b => b ≤ a :=
    List.pairwise_map.mpr (order_sorted entries)
  have hperm : (order es).Perm (order fs) := (order_perm es).trans (h.trans (order_perm fs).symm)
  exact List.Perm.eq_of_pairwise (fun _ _ _ _ hab hba => Nat.le_antisymm hba hab)
    (hsorted es) (hsorted fs) (hperm.map _)

/-- Above the last score of what is kept, nothing is cut off. -/
theorem mem_take_order_iff {entries : List RankEntry} {n : Nat} {last e : RankEntry}
    (hlast : ((order entries).take n).getLast? = some last) (habove : last.score < e.score) :
    e ∈ (order entries).take n ↔ e ∈ entries := by
  have hsorted := order_sorted entries
  rw [← List.take_append_drop n (order entries), List.pairwise_append] at hsorted
  constructor
  · intro he
    exact (order_perm entries).subset (List.mem_of_mem_take he)
  · intro he
    have he := (order_perm entries).mem_iff.mpr he
    rw [← List.take_append_drop n (order entries), List.mem_append] at he
    rcases he with he | he
    · exact he
    · have := hsorted.2.2 last (List.mem_of_getLast? hlast) e he
      omega

theorem fits_iff {entries : List RankEntry} :
    fits entries = true ↔ ∀ e ∈ entries, e.score < Text.wordBound := by
  simp only [fits, List.all_eq_true, decide_eq_true_eq]

/-- There is a ranking exactly if all scores are words, and it is the front of the
candidates in order. -/
theorem rank_eq_some_iff {index : HeaderIndex} {changes : Option ChangeCounts} {n : Nat}
    {ranking : List RankEntry} :
    rank index changes n = some ranking ↔
      (∀ e ∈ candidates index changes, e.score < Text.wordBound) ∧
        ranking = (order (candidates index changes)).take n := by
  rw [← fits_iff]
  show (if fits _ = true then some _ else none) = some ranking ↔ _
  split
  · rename_i hfits
    rw [Option.some.injEq, eq_comm, and_iff_right hfits]
  · rename_i hfits
    exact iff_of_false (fun h => by cases h) fun h => hfits h.1

theorem rank_eq_none_iff {index : HeaderIndex} {changes : Option ChangeCounts} {n : Nat} :
    rank index changes n = none ↔ ¬∀ e ∈ candidates index changes, e.score < Text.wordBound := by
  rw [Option.eq_none_iff_forall_ne_some]
  simp only [ne_eq, rank_eq_some_iff, not_and]
  exact ⟨fun h hfits => h _ hfits rfl, fun h ranking hfits => absurd hfits h⟩

/-! ## Targets in another order -/

/-- Any two targets that list a header, each from its own directory, mean the same
file. -/
def ResolveAlike (targets : List CompileTarget) : Prop :=
  ∀ t ∈ targets, ∀ u ∈ targets, ∀ header ∈ t.dependencies, header ∈ u.dependencies →
    Path.same (Path.absolutize t.directory header) (Path.absolutize u.directory header) = true

theorem resolveAlike_of_directory {targets : List CompileTarget}
    (h : ∀ header ∈ listed targets, Path.isAbsolute header = true ∨
      ∃ directory, ∀ t ∈ targets, header ∈ t.dependencies → t.directory = directory) :
    ResolveAlike targets := by
  intro t ht u hu header htl hul
  apply Path.same_normalize.mpr
  show Path.absolutize t.directory header = Path.absolutize u.directory header
  rcases h header (List.mem_flatMap.mpr ⟨t, ht, htl⟩) with habsolute | ⟨directory, hdirectory⟩
  · rw [Path.absolutize, Path.absolutize, Path.join, Path.join, if_pos habsolute, if_pos habsolute]
  · rw [hdirectory t ht htl, hdirectory u hu hul]

theorem mem_of_firstLister {targets : List CompileTarget} {header : Text} {t : CompileTarget}
    (h : firstLister targets header = some t) : t ∈ targets ∧ header ∈ t.dependencies := by
  have hlists := List.find?_some h
  exact ⟨List.mem_of_find?_eq_some h, List.contains_iff_mem.mp hlists⟩

theorem exists_firstLister {targets : List CompileTarget} {header : Text}
    (h : header ∈ listed targets) : ∃ t, firstLister targets header = some t := by
  obtain ⟨t, ht, hlists⟩ := List.mem_flatMap.mp h
  rw [← Option.isSome_iff_exists, firstLister, List.find?_isSome]
  exact ⟨t, ht, List.contains_iff_mem.mpr hlists⟩

variable {ts us : List CompileTarget} {changes : Option ChangeCounts}

theorem fileNamed_of_perm (h : ts.Perm us) (halike : ResolveAlike ts) {header : Text}
    (hlisted : header ∈ listed ts) : fileNamed ts header = fileNamed us header := by
  obtain ⟨t, ht⟩ := exists_firstLister hlisted
  obtain ⟨u, hu⟩ := exists_firstLister ((h.flatMap_right _).mem_iff.mp hlisted)
  obtain ⟨htmem, htl⟩ := mem_of_firstLister ht
  obtain ⟨humem, hul⟩ := mem_of_firstLister hu
  have hsame := halike t htmem u (h.mem_iff.mpr humem) header htl hul
  rw [fileNamed, fileNamed, ht, hu]
  exact Path.same_normalize.mp hsame

theorem score?_of_perm (h : ts.Perm us) (halike : changes.isSome = true → ResolveAlike ts)
    {header : Text} (hlisted : header ∈ listed ts) :
    score? changes ts header = score? changes us header := by
  have hcount : (listed ts).count header = (listed us).count header :=
    (h.flatMap_right _).count_eq header
  cases changes with
  | none => rw [score?, score?, hcount]
  | some counts =>
    rw [score?, score?]
    simp only [hcount, fileNamed_of_perm h (halike rfl) hlisted]

/-- The same targets give the same candidates. -/
theorem candidates_of_perm (h : ts.Perm us) (halike : changes.isSome = true → ResolveAlike ts) :
    (candidates (ofTargets ts) changes).Perm (candidates (ofTargets us) changes) := by
  have hheaders : (listed ts).eraseDups.Perm (listed us).eraseDups := by
    rw [List.perm_ext_iff_of_nodup (HeaderIndex.nodup_eraseDups _) (HeaderIndex.nodup_eraseDups _)]
    intro header
    rw [List.mem_eraseDups, List.mem_eraseDups]
    exact (h.flatMap_right _).mem_iff
  have hscored : (scored changes ts).Perm (scored changes us) := by
    refine (List.Perm.of_eq ?_).trans (hheaders.filterMap _)
    apply List.filterMap_congr
    intro header hheader
    rw [score?_of_perm h halike (List.mem_eraseDups.mp hheader)]
  exact (candidates_perm changes ts).trans (hscored.trans (candidates_perm changes us).symm)

theorem length_candidates_le (changes : Option ChangeCounts) (targets : List CompileTarget) :
    (candidates (ofTargets targets) changes).length ≤ (ofTargets targets).size := by
  rw [(candidates_perm changes targets).length_eq, HeaderIndex.size_ofTargets]
  exact List.length_filterMap_le _ _

/-- Candidates in another order have a ranking as well, with the same scores, the same
entries above the last of them and, if none is cut off, the same entries. -/
theorem take_order_of_perm {es fs : List RankEntry} (h : es.Perm fs) (n : Nat) :
    ((order es).take n).map RankEntry.score = ((order fs).take n).map RankEntry.score ∧
    (∀ last ∈ ((order es).take n).getLast?, ∀ e, last.score < e.score →
      (e ∈ (order es).take n ↔ e ∈ (order fs).take n)) ∧
    (es.length ≤ n → ((order es).take n).Perm ((order fs).take n)) := by
  have hscores : ((order es).take n).map RankEntry.score =
      ((order fs).take n).map RankEntry.score := by
    rw [List.map_take, List.map_take, scores_order_congr h]
  refine ⟨hscores, fun last hlast e habove => ?_, fun hn => ?_⟩
  · -- the last scores are the same, those of the last entries kept
    have hlasts := congrArg List.getLast? hscores
    rw [List.getLast?_map, List.getLast?_map, hlast] at hlasts
    obtain ⟨last', hlast', hscore⟩ := Option.map_eq_some_iff.mp hlasts.symm
    rw [mem_take_order_iff hlast habove, mem_take_order_iff hlast' (by omega)]
    exact h.mem_iff
  · have hes := (order_perm es).length_eq
    have hfs := (order_perm fs).length_eq
    have hlength := h.length_eq
    rw [List.take_of_length_le (by omega), List.take_of_length_le (by omega)]
    exact (order_perm es).trans (h.trans (order_perm fs).symm)

/-- **A ranking does not depend on the order in which targets are added.** The scores are
the same in both orders, and so are the entries above the last score and, with none cut
off, all entries. A weighted ranking needs targets that agree on the file that a header
names, as they do on absolute headers and from one directory. -/
theorem ranks_of_perm (h : ts.Perm us) :
    ((∀ header ∈ listed ts, Path.isAbsolute header = true ∨
        ∃ directory, ∀ t ∈ ts, header ∈ t.dependencies → t.directory = directory) →
      ResolveAlike ts) ∧
    ∀ (changes : Option ChangeCounts) (n : Nat), (changes.isSome = true → ResolveAlike ts) →
      (rank (ofTargets ts) changes n = none ↔ rank (ofTargets us) changes n = none) ∧
      ((∀ e ∈ candidates (ofTargets ts) changes, e.score < Text.wordBound) →
        ∃ xs ys, rank (ofTargets ts) changes n = some xs ∧
          rank (ofTargets us) changes n = some ys ∧
          xs.map RankEntry.score = ys.map RankEntry.score ∧
          (∀ last ∈ xs.getLast?, ∀ e, last.score < e.score → (e ∈ xs ↔ e ∈ ys)) ∧
          ((ofTargets ts).size ≤ n → xs.Perm ys)) := by
  refine ⟨resolveAlike_of_directory, fun changes n halike => ?_⟩
  have hperm := candidates_of_perm h halike
  have hfits : (∀ e ∈ candidates (ofTargets ts) changes, e.score < Text.wordBound) ↔
      ∀ e ∈ candidates (ofTargets us) changes, e.score < Text.wordBound := by
    simp only [hperm.mem_iff]
  obtain ⟨hscores, habove, hall⟩ := take_order_of_perm hperm n
  refine ⟨?_, fun hwords => ⟨_, _, rank_eq_some_iff.mpr ⟨hwords, rfl⟩,
    rank_eq_some_iff.mpr ⟨hfits.mp hwords, rfl⟩, hscores, habove, fun hn => hall ?_⟩⟩
  · rw [rank_eq_none_iff, rank_eq_none_iff, hfits]
  · exact (length_candidates_le changes ts).trans hn

/-- Two targets that list two headers each, in different orders. -/
def crossed : List CompileTarget :=
  [⟨['x'], ['/', 's'], ['o'], [['a'], ['/', 'b']]⟩, ⟨['y'], ['/', 's'], ['p'], [['/', 'b'], ['a']]⟩]

/-- One change of `/s/a` and one of `/b`. -/
def oneEach : ChangeCounts := ⟨[⟨['/', 's', '/', 'a'], 1⟩, ⟨['/', 'b'], 1⟩]⟩

/-- Which header comes first depends on the order of the targets, and so does which of
them is kept where there is room for one. -/
theorem ranks_of_perm_crossed :
    crossed.Perm crossed.reverse ∧
    ∃ xs ys, rank (ofTargets crossed) (some oneEach) 1 = some xs ∧
      rank (ofTargets crossed.reverse) (some oneEach) 1 = some ys ∧
      xs.map RankEntry.score = ys.map RankEntry.score ∧
      xs = [⟨['a'], 2⟩] ∧ ys = [⟨['/', 'b'], 2⟩] := by
  have hperm : crossed.Perm crossed.reverse := (List.reverse_perm crossed).symm
  have hone : ∀ t ∈ crossed, t.directory = ['/', 's'] := by decide
  have hscored : scored (some oneEach) crossed = [⟨['a'], 2⟩, ⟨['/', 'b'], 2⟩] := by decide
  have hscored' : scored (some oneEach) crossed.reverse = [⟨['/', 'b'], 2⟩, ⟨['a'], 2⟩] := by decide
  obtain ⟨hdirectory, hranks⟩ := ranks_of_perm hperm
  have halike : ResolveAlike crossed :=
    hdirectory fun header _ => .inr ⟨['/', 's'], fun t ht _ => hone t ht⟩
  have hwords : ∀ e ∈ candidates (ofTargets crossed) (some oneEach), e.score < Text.wordBound := by
    rw [candidates_weighted, hscored]
    decide
  obtain ⟨xs, ys, hxs, hys, hscores, _⟩ := (hranks (some oneEach) 1 fun _ => halike).2 hwords
  refine ⟨hperm, xs, ys, hxs, hys, hscores, ?_, ?_⟩
  · rw [rank_eq_some_iff, candidates_weighted, hscored] at hxs
    rw [hxs.2, order, List.mergeSort_of_pairwise (by decide)]
    rfl
  · rw [rank_eq_some_iff, candidates_weighted, hscored'] at hys
    rw [hys.2, order, List.mergeSort_of_pairwise (by decide)]
    rfl

end Ranking

end LoudHeaders
