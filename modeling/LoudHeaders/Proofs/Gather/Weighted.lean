import LoudHeaders.Proofs.Gather.Failure
import LoudHeaders.Proofs.Git.Counts
import LoudHeaders.Proofs.Path.Absolute
import LoudHeaders.Proofs.Ranking.Order

/-
  What a weighted ranking holds.

  It joins two lists that know nothing of each other. Changes are counted for paths of the
  repository below its working tree; headers are listed as the compilers spell them. What
  ties them is where they lead: a header, taken from the directory of the first target
  that lists it, names a path if it leads there by its text (`Names`). In a plain working
  tree this is what the look-up of its count compares (`names_iff`), whatever the spelling.

    1. `weighs_of_rank`: with counts of paths of a tree only, a ranking with nothing cut
       off holds the headers that name a counted path, each once and with the score that
       the path and the listings make (`Weighs`).
    2. `ranks_counted_headers`: the counts and the targets of a run that succeeds are such
       that 1. holds of its ranking.

  The count of a path is what the walk along the history found for it, not a number of
  commits.
-/

namespace LoudHeaders

namespace Git

theorem Tree.isPlain_join {base p : Text} (hbase : Path.IsPlain base) (hp : IsPath p) :
    Path.IsPlain (Path.join base p) := by
  refine ⟨(Path.isAbsolute_join base p).mpr (.inl hbase.isAbsolute), fun hup => ?_⟩
  rcases Path.mem_pieces_join hup with hup | hup
  · exact hbase.no_up hup
  · exact (hp _ hup).ne_up rfl

/-- With no commit to compare, nothing is counted. -/
theorem History.counts_along_zero {s : Store} {n : Nat} {part : List Commit} (workingTree : Text)
    (h : s.Within n (some 0) part) : (along workingTree ⟨.empty, 0⟩ part).counts = .empty := by
  have hsteps : Store.steps part = 0 := by
    rcases h.extent with hsteps | ⟨_, hfewer⟩
    · exact (Option.some.inj hsteps).symm
    · exact absurd (hfewer 0 rfl) (Nat.not_lt_zero _)
  rw [← length_comparisons, List.length_eq_zero_iff] at hsteps
  rw [along, hsteps]
  rfl

end Git

namespace Ranking

open HeaderIndex (listed ofTargets)

variable {targets : List CompileTarget} {counts : ChangeCounts} {workingTree header : Text}

theorem mem_scored_iff {changes : Option ChangeCounts} {score : Nat} :
    ⟨header, score⟩ ∈ scored changes targets ↔
      header ∈ listed targets ∧ score? changes targets header = some score := by
  simp only [scored, List.mem_filterMap, Option.map_eq_some_iff, RankEntry.mk.injEq,
    List.mem_eraseDups]
  constructor
  · rintro ⟨h, hlisted, s, hscore, rfl, rfl⟩
    exact ⟨hlisted, hscore⟩
  · rintro ⟨hlisted, hscore⟩
    exact ⟨header, hlisted, score, hscore, rfl, rfl⟩

/-- Each header is scored once. -/
theorem nodup_scored (changes : Option ChangeCounts) (targets : List CompileTarget) :
    ((scored changes targets).map RankEntry.path).Nodup := by
  rw [scored, List.map_filterMap]
  refine List.Nodup.filterMap ?_ (HeaderIndex.nodup_eraseDups _)
  intro h k header hh hk
  -- the entry of a header has the header for its path
  have path_eq {g : Text} (hg : header ∈ ((score? changes targets g).map (RankEntry.mk g)).map
      RankEntry.path) : g = header := by
    rw [Option.map_map] at hg
    obtain ⟨_, _, rfl⟩ := Option.map_eq_some_iff.mp hg
    rfl
  rw [path_eq hh, path_eq hk]

/-- A header names a path: taken from the directory of the first target that lists it, it
leads there. A relative header of a relative directory names none. -/
def Names (targets : List CompileTarget) (header path : Text) : Prop :=
  ∃ t, firstLister targets header = some t ∧
    (Path.isAbsolute t.directory = true ∨ Path.isAbsolute header = true) ∧
    Path.walk (Path.walk [] t.directory) header = Path.walk [] path

theorem names_iff {path : Text} (hpath : Path.IsPlain path) :
    Names targets header path ↔
      header ∈ listed targets ∧ Path.same path (fileNamed targets header) = true := by
  constructor
  · rintro ⟨t, ht, hnames⟩
    obtain ⟨hmem, hlists⟩ := mem_of_firstLister ht
    refine ⟨List.mem_flatMap.mpr ⟨t, hmem, hlists⟩, ?_⟩
    rw [fileNamed, ht]
    exact (Path.same_absolutize_iff hpath).mpr hnames
  · rintro ⟨hlisted, hsame⟩
    obtain ⟨t, ht⟩ := exists_firstLister hlisted
    rw [fileNamed, ht] at hsame
    exact ⟨t, ht, (Path.same_absolutize_iff hpath).mp hsame⟩

/-- A ranking holds what counts of paths below a working tree make of the headers of some
targets. -/
structure Weighs (counts : ChangeCounts) (workingTree : Text) (targets : List CompileTarget)
    (ranking : List RankEntry) : Prop where
  /-- A header is there exactly if it names a counted path. It then scores the count of
  the path as often as it was listed. -/
  mem_iff : ∀ header score, ⟨header, score⟩ ∈ ranking ↔
    ∃ p count, Git.Tree.IsPath p ∧ counts.get? (Path.join workingTree p) = some count ∧
      Names targets header (Path.join workingTree p) ∧
      score = count * (listed targets).count header
  /-- No header is there twice. -/
  nodup : (ranking.map RankEntry.path).Nodup
  /-- No score is zero. -/
  pos : ∀ e ∈ ranking, 1 ≤ e.score

/-- Without a count, nothing is ranked. -/
theorem Weighs.eq_nil {ranking : List RankEntry}
    (h : Weighs .empty workingTree targets ranking) : ranking = [] := by
  rw [List.eq_nil_iff_forall_not_mem]
  intro e he
  obtain ⟨_, _, _, hcount, _⟩ := (h.mem_iff e.path e.score).mp he
  cases hcount

/-- All counts are of paths of a tree, below the working tree, and none is zero. -/
def CountsBelow (workingTree : Text) (counts : ChangeCounts) : Prop :=
  ∀ path count, counts.get? path = some count → 1 ≤ count ∧
    ∃ p, Git.Tree.IsPath p ∧ Path.same (Path.join workingTree p) path = true

theorem mem_scored_weighted_iff (hcounts : CountsBelow workingTree counts)
    (hplain : Path.IsPlain workingTree) {score : Nat} :
    ⟨header, score⟩ ∈ scored (some counts) targets ↔
      ∃ p count, Git.Tree.IsPath p ∧ counts.get? (Path.join workingTree p) = some count ∧
        Names targets header (Path.join workingTree p) ∧
        score = count * (listed targets).count header := by
  rw [mem_scored_iff, score?, Option.map_eq_some_iff]
  constructor
  · rintro ⟨hlisted, count, hcount, rfl⟩
    obtain ⟨_, p, hp, hsame⟩ := hcounts _ _ hcount
    refine ⟨p, count, hp, ?_, (names_iff (Git.Tree.isPlain_join hplain hp)).mpr ⟨hlisted, hsame⟩,
      rfl⟩
    rw [ChangeCounts.get?_congr hsame, hcount]
  · rintro ⟨p, count, hp, hcount, hnames, rfl⟩
    obtain ⟨hlisted, hsame⟩ := (names_iff (Git.Tree.isPlain_join hplain hp)).mp hnames
    refine ⟨hlisted, count, ?_, rfl⟩
    rw [← ChangeCounts.get?_congr hsame, hcount]

/-- Counts of paths below a plain working tree weigh as said where no header is cut off. -/
theorem weighs_of_rank (hcounts : CountsBelow workingTree counts)
    (hplain : Path.IsPlain workingTree) {n : Nat} {ranking : List RankEntry}
    (h : rank (ofTargets targets) (some counts) n = some ranking)
    (hn : (ofTargets targets).size ≤ n) : Weighs counts workingTree targets ranking := by
  have hperm : ranking.Perm (scored (some counts) targets) := by
    have hlength := (length_candidates_le (some counts) targets).trans hn
    rw [← (order_perm _).length_eq] at hlength
    rw [(rank_eq_some_iff.mp h).2, List.take_of_length_le hlength, candidates_weighted]
    exact order_perm _
  refine ⟨fun header score => ?_, ?_, ?_⟩
  · rw [hperm.mem_iff]
    exact mem_scored_weighted_iff hcounts hplain
  · exact (hperm.map RankEntry.path).nodup_iff.mpr (nodup_scored _ _)
  · rintro ⟨header, score⟩ he
    obtain ⟨hlisted, hscore⟩ := mem_scored_iff.mp (hperm.mem_iff.mp he)
    obtain ⟨count, hcount, rfl⟩ := Option.map_eq_some_iff.mp hscore
    have hlistings := List.count_pos_iff.mpr hlisted
    exact Nat.mul_pos (hcounts _ _ hcount).1 hlistings

end Ranking

namespace Gather

open BuildInputs (Answers targetInputs)
open CompileCommand (answered outcome select)
open HeaderIndex (listed)
open Ranking (Weighs)

/-! ## Two spellings of one file -/

namespace Respelled

/-- A build tool that needs the source file `a`, and a compiler that lists a header twice,
once in another spelling and beside a header that was never changed. -/
def runner : Runner := fun argv _ =>
  match argv with
  | [_, _] => .ok ['1', '.', '1', '1']
  | ['n'] :: _ => .ok ['a']
  | _ => .ok ['o', ':', ' ', 'a', ' ', '.', '.', '/', 'a', ' ', 'a', ' ', 'b']

def world : World := ⟨fun _ => .ok threeCommands, Git.Restless.find, runner⟩

def target : CompileTarget :=
  ⟨['a'], ['/'], ['o'], [['a'], ['.', '.', '/', 'a'], ['a'], ['b']]⟩

def statistics : Git.Statistics :=
  .along ['/'] (some 2) (Git.Store.cut (some 2) Git.Restless.line)

/-- Three changes of the header make six, for two listings. -/
def ranking : List RankEntry := [⟨['a'], 6⟩, ⟨['.', '.', '/', 'a'], 3⟩]

theorem isPath_b : Git.Tree.IsPath ['b'] := by
  intro piece hpiece
  obtain rfl := List.mem_singleton.mp hpiece
  exact ⟨by decide, by decide, by decide, by decide⟩

theorem scored_eq : Ranking.scored (some statistics.counts) [target] = ranking := by
  have ha : statistics.counts.get? ['/', 'a'] = some 3 :=
    Git.Restless.count (some 2)
  have hb : statistics.counts.get? ['/', 'b'] = none :=
    Git.Restless.count_at (some 2) isPath_b
  have hheaders : (listed [target]).eraseDups = [['a'], ['.', '.', '/', 'a'], ['b']] := by decide
  have hfiles : [['a'], ['.', '.', '/', 'a'], ['b']].map (Ranking.fileNamed [target]) =
      [['/', 'a'], ['/', 'a'], ['/', 'b']] := by decide
  simp only [List.map_cons, List.cons.injEq] at hfiles
  obtain ⟨hplain, hspelled, hother, _⟩ := hfiles
  rw [Ranking.scored, hheaders]
  simp only [List.filterMap_cons, Ranking.score?, hplain, hspelled, hother, ha, hb]
  rfl

theorem rank_eq : Ranking.rank (.ofTargets [target]) (some statistics.counts) 3 = some ranking := by
  rw [Ranking.rank_eq_some_iff, Ranking.candidates_weighted, scored_eq]
  refine ⟨by decide, ?_⟩
  rw [Ranking.order, List.mergeSort_of_pairwise (by decide)]
  rfl

theorem value : ∃ report, report.index.size ≤ 3 ∧
    (loudestHeaders world (.upTo .info) rootOptions (some ⟨['/'], 2⟩) 3).run.value =
      .ok (report, ranking) := by
  have hanswers : Answers runner rootOptions.binary rootOptions.buildDirectory
      rootOptions.targets ['a'] := ⟨⟨_, rfl, by decide⟩, rfl⟩
  let commands : List CompileCommand :=
    [⟨['a'], ['/'], ['x']⟩, ⟨['b'], ['/'], ['y']⟩, ⟨['c'], ['/'], ['z']⟩]
  have hloads : Loads world rootOptions commands := ⟨threeCommands, rfl, rfl⟩
  have hends := loudestHeaders_ends (n := 3)
    (changes_some (w := ⟨['/'], 2⟩) (Git.Restless.value (some 2))) hloads hanswers
  have hkept : select commands (BuildInputs.pathsOf rootOptions.buildDirectory ['a']) =
      [⟨['a'], ['/'], ['x']⟩] := by decide
  rw [hkept] at hends
  refine ⟨_, ?_, hends.value_eq.trans (ranked_eq_ok_iff.mpr ⟨rfl, rank_eq⟩)⟩
  show (HeaderIndex.ofTargets [target]).size ≤ 3
  rw [HeaderIndex.size_ofTargets]
  decide

end Respelled

/-! ## Runs -/

variable {world : World} {verbosity : Verbosity} {options : GatherOptions} {w : Weighting}
  {n : Nat} {report : GatherReport} {ranking : List RankEntry}

/-- What the scores of a weighted run are made of: the changes found in a repository with
this working tree, and the targets of the selected commands that have one. -/
structure Joins (world : World) (verbosity : Verbosity) (options : GatherOptions) (w : Weighting)
    (report : GatherReport) (workingTree : Text) (counts : ChangeCounts)
    (targets : List CompileTarget) : Prop where
  repository : ∃ r, world.findRepository w.repository = .ok r ∧ r.workingTree = some workingTree
  changes : ∃ found, (Git.gatherChanges verbosity world.findRepository w.repository
      (some w.commits)).run.value = .ok found ∧ found.counts = counts
  recorded : ∃ commands inputs, Loads world options commands ∧
    (targetInputs world.runner options.binary options.buildDirectory options.targets).run.value =
      .ok inputs ∧
    ((select commands inputs).filter (answered world.runner)).map (outcome world.runner) =
      targets.map .ok
  index : report.index = .ofTargets targets

/-- A weighted run that succeeds ranks by the changes it found and the targets it
recorded. -/
theorem joins_of_value
    (h : (loudestHeaders world verbosity options (some w) n).run.value = .ok (report, ranking)) :
    ∃ part workingTree counts targets,
      Git.Covers world.findRepository w.repository (some w.commits) workingTree part ∧
      counts = (Git.History.along workingTree ⟨.empty, 0⟩ part).counts ∧
      Joins world verbosity options w report workingTree counts targets ∧
      Ranking.rank (.ofTargets targets) (some counts) n = some ranking := by
  obtain ⟨found, hfound⟩ := passes_of_value_eq_ok h .history w rfl
  obtain ⟨commands, hloads⟩ := passes_of_value_eq_ok h .database
  obtain ⟨output, houtput⟩ := passes_of_value_eq_ok h .inputs
  have hanswers : Answers world.runner options.binary options.buildDirectory options.targets
      output := ⟨passes_of_value_eq_ok h .version, houtput⟩
  have hvalue := (loudestHeaders_ends (n := n) (changes_some hfound) hloads hanswers).value_eq
  obtain ⟨rfl, hrank⟩ := ranked_eq_ok_iff.mp (hvalue.symm.trans h)
  obtain ⟨_, _, _, targets, htargets, hindex, _⟩ := accounts_reportOn world.runner commands
    (select commands (BuildInputs.pathsOf options.buildDirectory output))
  obtain ⟨workingTree, part, hcovers, _, rfl⟩ := Git.gatherChanges_eq_ok_iff.mp hfound
  have ⟨r, _, hfind, hstands, _⟩ := hcovers
  rw [hindex] at hrank
  exact ⟨part, workingTree, _, targets, hcovers, rfl,
    ⟨⟨r, hfind, hstands.workingTree⟩, ⟨_, hfound, rfl⟩,
      ⟨commands, _, hloads, (BuildInputs.targetInputs_ends hanswers).value_eq, htargets⟩, hindex⟩,
    hrank⟩

/-- **A weighted ranking holds the headers that name a changed path of the repository.**
If a run succeeds and cuts no header off, then its ranking is what the changes it found
below the working tree make of the headers of its targets. Without commits to look at, it
is empty. -/
theorem ranks_counted_headers
    (hsound : ∀ r, world.findRepository w.repository = .ok r → r.objects.store.WellFormed)
    (hplain : ∀ r, world.findRepository w.repository = .ok r →
      ∀ workingTree ∈ r.workingTree, Path.IsPlain workingTree)
    (h : (loudestHeaders world verbosity options (some w) n).run.value = .ok (report, ranking))
    (hn : report.index.size ≤ n) :
    ∃ workingTree counts targets,
      Joins world verbosity options w report workingTree counts targets ∧
      Weighs counts workingTree targets ranking ∧
      (w.commits = 0 → ranking = []) := by
  obtain ⟨part, workingTree, counts, targets, hcovers, hcounts, hjoins, hrank⟩ := joins_of_value h
  have ⟨r, m, hfind, hstands, hwithin, _⟩ := hcovers
  have hpart : ∀ c ∈ part, c.entries.WellFormed := fun c hc =>
    hsound r hfind c (hwithin.line.subset_commits hc)
  have hbelow : Ranking.CountsBelow workingTree counts := by
    intro path count hpath
    rw [hcounts] at hpath
    exact Git.History.exists_of_get?_along hpart hpath
  have hweighs : Weighs counts workingTree targets ranking :=
    Ranking.weighs_of_rank hbelow (hplain r hfind _ hstands.workingTree) hrank (hjoins.index ▸ hn)
  refine ⟨workingTree, counts, targets, hjoins, hweighs, fun hzero => ?_⟩
  rw [hzero] at hwithin
  rw [hcounts, Git.History.counts_along_zero workingTree hwithin] at hweighs
  exact hweighs.eq_nil

/-- The header in two spellings is ranked twice, and the one without a change is not. -/
theorem ranks_counted_headers_respelled :
    ∃ report ranking, report.index.size ≤ 3 ∧
      (loudestHeaders Respelled.world (.upTo .info) rootOptions (some ⟨['/'], 2⟩) 3).run.value =
        .ok (report, ranking) ∧
      ranking = [⟨['a'], 6⟩, ⟨['.', '.', '/', 'a'], 3⟩] ∧
      ∃ workingTree counts targets,
        Joins Respelled.world (.upTo .info) rootOptions ⟨['/'], 2⟩ report workingTree counts
          targets ∧
        Weighs counts workingTree targets ranking := by
  obtain ⟨report, hsize, hvalue⟩ := Respelled.value
  have hrepository {r : Git.Repository} (hr : Git.Restless.find ['/'] = .ok r) :
      r = Git.Restless.repository := (Except.ok.inj hr).symm
  have hsound : ∀ r, Git.Restless.find ['/'] = .ok r → r.objects.store.WellFormed := by
    intro r hr
    rw [hrepository hr]
    exact Git.Restless.wellFormed
  have hplain : ∀ r, Git.Restless.find ['/'] = .ok r →
      ∀ workingTree ∈ r.workingTree, Path.IsPlain workingTree := by
    intro r hr workingTree htree
    rw [hrepository hr] at htree
    obtain rfl := Option.some.inj htree
    exact ⟨rfl, by decide⟩
  obtain ⟨workingTree, counts, targets, hjoins, hweighs, _⟩ :=
    ranks_counted_headers (w := ⟨['/'], 2⟩) hsound hplain hvalue hsize
  exact ⟨report, _, hsize, hvalue, rfl, workingTree, counts, targets, hjoins, hweighs⟩

end Gather

end LoudHeaders
