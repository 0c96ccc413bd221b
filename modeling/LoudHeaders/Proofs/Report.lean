import Mathlib.Data.Bool.AllAny
import Mathlib.Data.List.Forall2
import LoudHeaders.Proofs.Gather.Failure
import LoudHeaders.Proofs.Gather.Pool
import LoudHeaders.Proofs.Gather.Weighted
import LoudHeaders.Proofs.MakeRule
import LoudHeaders.Proofs.Ranking.Stable
import LoudHeaders.Proofs.Text.Numeral

/-
  Rankings read back from their printed lines.

  Paths are printed as they are, so a line can be taken apart again only because of what
  a path can be. Every path in a ranking is a header that some compiler listed, and what
  is read of a make rule are words without a blank (`isWord_of_rank`). So
    1. the line of an entry tells the entry: its path up to the first space, its score in
       the only number behind that (`tells_line`);
    2. a ranking is read back from its lines (`readsBack_print`), also where it was
       gathered by several workers (`readsBack_of_reachable`);
    3. this holds of whatever the program prints in text form, and different rankings are
       printed differently (`prints_readable`).
-/

namespace LoudHeaders

namespace Report

open MakeRule (IsWord)

/-! ## Lines -/

/-- The numbers in a text: what its longest stretches of decimal digits stand for. -/
def numbers (s : Text) : List Nat := (Text.runs (fun c => !c.isDigit) s).map Text.digitsValue

/-- The line tells the entry. -/
structure Tells (meaning : Meaning) (line : Text) (e : RankEntry) : Prop where
  /-- In front of the first space stands the path, -/
  path : line.takeWhile (· != ' ') = e.path
  /-- and behind it the wording, which is fixed but for the score. -/
  wording : line.dropWhile (· != ' ') = meaning.lead ++ Text.ofNat e.score ++ meaning.tail
  /-- The score is the only number there. -/
  score : numbers (line.dropWhile (· != ' ')) = [e.score]
  /-- The path is not empty and holds no blank of any kind. -/
  ne_nil : e.path ≠ []
  no_blank : ∀ c ∈ e.path, Text.isBlank c = false

/-- The output has one line for each entry of the ranking, in its order, and each line
tells its entry. -/
def ReadsBack (meaning : Meaning) (output : Text) (ranking : List RankEntry) : Prop :=
  ∃ lines, Text.pieces (· == '\n') output = lines ++ [[]] ∧
    List.Forall₂ (Tells meaning) lines ranking

variable {meaning : Meaning} {e : RankEntry} {ranking : List RankEntry}

theorem isBlank_of_isWord {w : Text} (h : IsWord w) : ∀ c ∈ w, Text.isBlank c = false := by
  intro c hc
  exact (Bool.or_eq_false_iff.mp (h.no_filler c hc)).1

/-- A character that is blank stands in no word. -/
theorem ne_of_isWord {w : Text} (h : IsWord w) {blank : Char} (hblank : Text.isBlank blank = true) :
    ∀ c ∈ w, c ≠ blank := by
  rintro c hc rfl
  rw [isBlank_of_isWord h c hc] at hblank
  cases hblank

theorem numbers_wording (meaning : Meaning) (n : Nat) :
    numbers (meaning.lead ++ Text.ofNat n ++ meaning.tail) = [n] := by
  have hlead : ∀ c ∈ meaning.lead, (!c.isDigit) = true :=
    List.all_eq_true.mp (by cases meaning <;> decide)
  have htail : ∀ c ∈ meaning.tail, (!c.isDigit) = true :=
    List.all_eq_true.mp (by cases meaning <;> decide)
  have hnumeral : Text.Numeral n (Text.ofNat n) := ⟨0, rfl⟩
  have hdigits : ∀ c ∈ Text.ofNat n, (!c.isDigit) = false := fun c hc => by
    rw [hnumeral.isDigit c hc]
    rfl
  have hruns : Text.runs (fun c => !c.isDigit) (meaning.lead ++ Text.ofNat n ++ meaning.tail) =
      [Text.ofNat n] := by
    rw [List.append_assoc, Text.runs_all_append hlead,
      Text.runs_append _ fun c hc => htail c (List.mem_of_mem_head? hc),
      Text.runs_of_none hnumeral.ne_nil hdigits, Text.runs_of_all htail, List.append_nil]
  rw [numbers, hruns, List.map_singleton, Text.digitsValue_ofNat]

/-- The line of an entry whose path is a word tells the entry. -/
theorem tells_line (h : IsWord e.path) : Tells meaning (line meaning e) e := by
  have hpath : ∀ c ∈ e.path, (c != ' ') = true := fun c hc =>
    bne_iff_ne.mpr (ne_of_isWord h (by decide) c hc)
  have hline : line meaning e =
      e.path ++ (meaning.lead ++ Text.ofNat e.score ++ meaning.tail) := by
    simp only [line, List.append_assoc]
  -- the wording starts with a space
  obtain ⟨more, hlead⟩ : ∃ more, meaning.lead = ' ' :: more := by
    cases meaning <;> exact ⟨_, rfl⟩
  have hwording : (line meaning e).dropWhile (· != ' ') =
      meaning.lead ++ Text.ofNat e.score ++ meaning.tail := by
    rw [hline, List.dropWhile_append_of_pos hpath, hlead]
    rfl
  refine ⟨?_, hwording, ?_, h.ne_nil, isBlank_of_isWord h⟩
  · rw [hline, List.takeWhile_append_of_pos hpath, hlead]
    exact List.append_nil _
  · rw [hwording, numbers_wording]

/-- A line tells one entry. -/
theorem rightUnique_tells : Relator.RightUnique (Tells meaning) := by
  rintro line ⟨p, n⟩ ⟨q, m⟩ h h'
  have hpath : p = q := h.path.symm.trans h'.path
  have hscore : [n] = [m] := h.score.symm.trans h'.score
  rw [RankEntry.mk.injEq]
  exact ⟨hpath, (List.cons.inj hscore).1⟩

theorem ReadsBack.unique {output : Text} {ranking' : List RankEntry}
    (h : ReadsBack meaning output ranking) (h' : ReadsBack meaning output ranking') :
    ranking = ranking' := by
  obtain ⟨lines, hlines, hranking⟩ := h
  obtain ⟨lines', hlines', hranking'⟩ := h'
  obtain rfl : lines = lines' := List.append_cancel_right (hlines.symm.trans hlines')
  exact List.right_unique_forall₂' rightUnique_tells hranking hranking'

theorem newline_notMem_line (h : IsWord e.path) : ∀ c ∈ line meaning e, (c == '\n') = false := by
  have hlead : ∀ c ∈ meaning.lead, c ≠ '\n' :=
    List.all_iff_forall_prop.mp (by cases meaning <;> decide)
  have htail : ∀ c ∈ meaning.tail, c ≠ '\n' :=
    List.all_iff_forall_prop.mp (by cases meaning <;> decide)
  have hnumeral : Text.Numeral e.score (Text.ofNat e.score) := ⟨0, rfl⟩
  have hscore : ∀ c ∈ Text.ofNat e.score, c ≠ '\n' := by
    rintro c hc rfl
    exact absurd (hnumeral.isDigit _ hc) (by decide)
  intro c hc
  rw [beq_eq_false_iff_ne]
  simp only [line, List.mem_append] at hc
  rcases hc with ((hc | hc) | hc) | hc
  · exact ne_of_isWord h (by decide) c hc
  · exact hlead c hc
  · exact hscore c hc
  · exact htail c hc

/-- **A ranking of words is read back from its printed lines.** -/
theorem readsBack_print (h : ∀ e ∈ ranking, IsWord e.path) :
    ReadsBack meaning (print .text meaning ranking) ranking := by
  refine ⟨ranking.map (line meaning), ?_, ?_⟩
  · show Text.pieces (· == '\n') (textForm meaning ranking) = _
    induction ranking with
    | nil => rfl
    | cons e rest ih =>
      obtain ⟨he, hrest⟩ := List.forall_mem_cons.mp h
      rw [textForm, List.flatMap_cons, List.append_assoc, List.singleton_append,
        Text.pieces_append_sep (by decide), Text.pieces_of_none (newline_notMem_line he)]
      exact congrArg (line meaning e :: ·) (ih hrest)
  · rw [List.forall₂_map_left_iff, List.forall₂_same]
    intro e he
    exact tells_line (h e he)

end Report

/-! ## Paths -/

open MakeRule (IsWord)
open HeaderIndex (listed ofTargets)
open Report (Meaning ReadsBack readsBack_print)

theorem CompileCommand.isWord_of_outcome {run : Runner} {c : CompileCommand} {t : CompileTarget}
    (h : c.outcome run = .ok t) : ∀ d ∈ t.dependencies, IsWord d := by
  unfold outcome targetOf at h
  split at h
  · cases h
  · split at h
    · cases h
    · rename_i rule hrule
      obtain rfl := Except.ok.inj h
      exact MakeRule.isWord_of_parse? hrule

/-- Whatever compilers print, the headers they list are words. -/
theorem Progress.isWord_of_listed {run : Runner} {rs : List Outcome}
    (h : ∀ r ∈ rs, ∃ c : CompileCommand, r = c.outcome run) :
    ∀ header ∈ listed (recorded rs), IsWord header := by
  intro header hheader
  obtain ⟨t, ht, hlists⟩ := List.mem_flatMap.mp hheader
  obtain ⟨r, hr, hrt⟩ := List.mem_filterMap.mp ht
  obtain ⟨c, rfl⟩ := h r hr
  cases hc : c.outcome run with
  | error e =>
    rw [hc] at hrt
    cases hrt
  | ok t' =>
    rw [hc] at hrt
    obtain rfl := Option.some.inj hrt
    exact CompileCommand.isWord_of_outcome hc header hlists

/-- The paths in a ranking are listed headers. -/
theorem Ranking.isWord_of_rank {targets : List CompileTarget} {changes : Option ChangeCounts}
    {n : Nat} {ranking : List RankEntry} (hlisted : ∀ header ∈ listed targets, IsWord header)
    (h : rank (ofTargets targets) changes n = some ranking) : ∀ e ∈ ranking, IsWord e.path := by
  intro e he
  rw [(rank_eq_some_iff.mp h).2] at he
  have hcandidate := (order_perm _).subset (List.mem_of_mem_take he)
  have hscored := (candidates_perm changes targets).subset hcandidate
  exact hlisted e.path (mem_scored_iff.mp hscored).1

namespace Report

variable {changes : Option ChangeCounts} {n : Nat} {ranking : List RankEntry}

/-- A ranking of what commands gave is read back, in whatever order they gave it. -/
theorem readsBack_after (run : Runner) {rs : List Outcome}
    (h : ∀ r ∈ rs, ∃ c : CompileCommand, r = c.outcome run)
    (hrank : Ranking.rank (Progress.after rs).index changes n = some ranking) (meaning : Meaning) :
    ReadsBack meaning (print .text meaning ranking) ranking := by
  rw [Progress.index_after] at hrank
  exact readsBack_print (Ranking.isWord_of_rank (Progress.isWord_of_listed h) hrank)

theorem readsBack_of_reachable {run : Runner} {workers : Nat} {selected : List CompileCommand}
    {s : Pool.State} (h : Pool.Reachable run workers selected s)
    (hrank : Ranking.rank s.progress.index changes n = some ranking) (meaning : Meaning) :
    ReadsBack meaning (print .text meaning ranking) ranking := by
  have hvalid := Pool.valid_of_reachable h
  obtain ⟨order, horder, hprogress⟩ := hvalid.progress
  rw [hprogress] at hrank
  refine readsBack_after run (fun r hr => ?_) hrank meaning
  obtain ⟨t, ht, houtcome⟩ := List.mem_filterMap.mp (horder.subset hr)
  have hfollows := hvalid.follows t ht
  rw [Pool.Task.outcome?_of_follows hfollows (by rw [houtcome]; rfl)] at houtcome
  exact ⟨t.command, (Option.some.inj houtcome).symm⟩

theorem readsBack_of_value {world : World} {verbosity : Verbosity} {options : GatherOptions}
    {weighting : Option Weighting} {report : GatherReport}
    (h : (Gather.loudestHeaders world verbosity options weighting n).run.value =
      .ok (report, ranking)) (meaning : Meaning) :
    ReadsBack meaning (print .text meaning ranking) ranking := by
  obtain ⟨counts, commands, output, hcounts, hloads, hanswers⟩ :=
    Gather.answers_of_passes (Gather.passes_of_value_eq_ok h)
  have hvalue := (Gather.loudestHeaders_ends (n := n) hcounts hloads hanswers).value_eq
  obtain ⟨-, hrank⟩ := Gather.ranked_eq_ok_iff.mp (hvalue.symm.trans h)
  refine readsBack_after world.runner (fun r hr => ?_) hrank meaning
  obtain ⟨c, _, rfl⟩ := List.mem_map.mp hr
  exact ⟨c, rfl⟩

/-! ## The program -/

/-- What the scores count, in a weighted ranking or in one that is not. -/
def meaningOf (weighted : Bool) : Meaning := if weighted then .recompilations else .targets

/-- A run that gathers headers, weighted or not, is to print this ranking as text. -/
def Ranks (world : World) (setting : CommandLine.Setting) (weighted : Bool)
    (ranking : List RankEntry) : Prop :=
  ∃ shown a report,
    LogFilter.verbosity? setting.topicName setting.logFilter = some shown ∧
    Arguments.parse setting.environment setting.arguments = .ok (.gatherDeps a) ∧
    a.format = .text ∧ a.numCommits.isSome = weighted ∧
    let options := CommandLine.gatherOptions setting.directory setting.processors a
    (Gather.loudestHeaders world (shown .history) options (CommandLine.weighting options a)
      a.numFiles).run.value = .ok (report, ranking)

section Run

variable {world : World} {setting : CommandLine.Setting}

open Session (Ends) in
/-- A ranking that was found is printed. -/
theorem runDeps_ends {verbosity : Verbosity} {directory : Text} {processors : Nat}
    {a : DepsArguments} {calls : List Call} {report : GatherReport}
    (h : Ends (Gather.loudestHeaders world verbosity
      (CommandLine.gatherOptions directory processors a)
      (CommandLine.weighting (CommandLine.gatherOptions directory processors a) a) a.numFiles)
      calls (.ok (report, ranking))) :
    Ends (CommandLine.runDeps world verbosity directory processors a) calls
      (.ok (print a.format (meaningOf a.numCommits.isSome) ranking)) := by
  have hweighted (options : GatherOptions) :
      (CommandLine.weighting options a).isSome = a.numCommits.isSome := Option.isSome_map
  rw [← List.append_nil calls]
  unfold CommandLine.runDeps
  simp only [hweighted]
  -- what is logged in front and at the end has no part in the result
  split
  on_goal 1 => refine Ends.bind_silent (Ends.log _ _ _) ?_
  all_goals
    refine Ends.bind h ?_
    split
    · exact Ends.bind_silent (Ends.log _ _ _) (Ends.bind_silent (Ends.log _ _ _) (Ends.pure _))
    · exact Ends.bind_silent (Ends.log _ _ _) (Ends.pure _)

theorem run_of_parse {shown : Topic → Verbosity} {a : DepsArguments}
    (hshown : LogFilter.verbosity? setting.topicName setting.logFilter = some shown)
    (hparse : Arguments.parse setting.environment setting.arguments = .ok (.gatherDeps a)) :
    CommandLine.run world setting = CommandLine.conclude shown
      (CommandLine.runDeps world (shown .history) setting.directory setting.processors a).run := by
  simp only [CommandLine.run, hshown, hparse]
  rfl

theorem Ranks.run_eq {weighted : Bool} (h : Ranks world setting weighted ranking) :
    (CommandLine.run world setting).exitCode = 0 ∧
    (CommandLine.run world setting).output = print .text (meaningOf weighted) ranking := by
  obtain ⟨shown, a, report, hshown, hparse, hformat, rfl, hvalue⟩ := h
  have hends := runDeps_ends ⟨rfl, hvalue⟩
  rw [run_of_parse hshown hparse, CommandLine.conclude, hends.value_eq, hformat]
  exact ⟨rfl, rfl⟩

/-- A run that ends well has found a ranking. -/
theorem exists_ranks {a : DepsArguments}
    (hparse : Arguments.parse setting.environment setting.arguments = .ok (.gatherDeps a))
    (hformat : a.format = .text) (hexit : (CommandLine.run world setting).exitCode = 0) :
    ∃ ranking, Ranks world setting a.numCommits.isSome ranking := by
  cases hshown : LogFilter.verbosity? setting.topicName setting.logFilter with
  | none => simp [CommandLine.run, hshown] at hexit
  | some shown =>
    let options := CommandLine.gatherOptions setting.directory setting.processors a
    cases hvalue : (Gather.loudestHeaders world (shown .history) options
        (CommandLine.weighting options a) a.numFiles).run.value with
    | ok result => exact ⟨result.2, shown, a, result.1, hshown, hparse, hformat, rfl, hvalue⟩
    | error failure =>
      have hends : Session.Ends (CommandLine.runDeps world (shown .history) setting.directory
          setting.processors a) _ (.error failure) := Gather.runDeps_error ⟨rfl, hvalue⟩
      rw [run_of_parse hshown hparse, CommandLine.conclude, hends.value_eq] at hexit
      cases failure <;> simp at hexit

end Run

/-! ## A compiler that lists one header -/

namespace Lone

/-- A build tool `/n` that needs `a`, and a compiler that lists one header for it. -/
def runner (header : Text) : Runner := fun argv _ =>
  match argv with
  | [_, _] => .ok ['1', '.', '1', '1']
  | ['/', 'n'] :: _ => .ok ['a']
  | _ => .ok (['o'] ++ ':' :: ([' '] ++ header))

/-- A database of one command, written as a list. -/
def world (header : Text) : World where
  readText := fun _ =>
    .ok ['[', '[', '"', 'a', '"', ',', '"', '/', '"', ',', '"', 'x', '"', ']', ']']
  findRepository := Git.singleCommit 0
  runner := runner header

/-- The program is started in the root directory. -/
def setting : CommandLine.Setting where
  arguments := ["gather-deps".toList, "-b".toList, ['n'], ['/'], ['t']]
  environment := []
  logFilter := none
  topicName := fun _ => []
  directory := ['/']
  processors := 1

def arguments : DepsArguments :=
  ⟨some ['n'], 10, none, none, none, none, .text, false, ['/'], [['t']]⟩

def target (header : Text) : CompileTarget := ⟨['a'], ['/'], ['o'], [header]⟩

/-- One header of some targets is ranked by their number. -/
theorem rank_eq {header : Text} {targets : List CompileTarget}
    (hitems : (ofTargets targets).items = [⟨header, targets⟩])
    (hwords : targets.length < Text.wordBound) :
    Ranking.rank (ofTargets targets) none 10 = some [⟨header, targets.length⟩] := by
  refine Ranking.rank_plain_iff.mpr ⟨?_, ?_⟩
  · rw [hitems]
    intro e he
    rw [List.mem_singleton.mp he]
    exact hwords
  · rw [HeaderIndex.sortedItems, hitems, List.mergeSort_singleton]
    rfl

theorem ranks {header : Text} (h : IsWord header) :
    Ranks (world header) setting false [⟨header, 1⟩] := by
  let c : CompileCommand := ⟨['a'], ['/'], ['x']⟩
  have hrule : MakeRule.parse? (['o'] ++ ':' :: ([' '] ++ header)) = some ⟨['o'], [header]⟩ := by
    have hstretches : MakeRule.stretches ([' '] ++ header) = [header] := by
      rw [MakeRule.stretches_gap_append (by decide), MakeRule.stretches_of_isWord h]
    rw [MakeRule.parse?_eq (by decide), hstretches]
    rfl
  have houtcome : c.outcome (runner header) = .ok (target header) := by
    show c.targetOf (.ok (['o'] ++ ':' :: ([' '] ++ header))) = _
    simp only [CompileCommand.targetOf, hrule]
    rfl
  let options := CommandLine.gatherOptions ['/'] 1 arguments
  have hanswers : BuildInputs.Answers (runner header) options.binary options.buildDirectory
      options.targets ['a'] := ⟨⟨_, rfl, by decide⟩, rfl⟩
  have hloads : Gather.Loads (world header) options [c] := ⟨_, rfl, rfl⟩
  have hends := @Gather.loudestHeaders_ends (world header) (.upTo .info) options none 10 none [c]
    ['a'] (Session.Ends.pure none) hloads hanswers
  have hkept :
      CompileCommand.select [c] (BuildInputs.pathsOf options.buildDirectory ['a']) = [c] := by
    decide
  rw [hkept] at hends
  have hrank : Ranking.rank (Gather.reportOn (runner header) [c] [c]).index none 10 =
      some [⟨header, 1⟩] := by
    have hindex : (Gather.reportOn (runner header) [c] [c]).index = ofTargets [target header] := by
      show (Progress.after [c.outcome (runner header)]).index = _
      rw [houtcome, Progress.index_after]
      rfl
    have hitems : (ofTargets [target header]).items = [⟨header, [target header]⟩] := by
      rw [(HeaderIndex.records_ofTargets _).items_eq]
      simp [HeaderIndex.tabulate, HeaderIndex.listings, HeaderIndex.under, target,
        List.eraseDups_cons]
    rw [hindex]
    exact rank_eq hitems (show 1 < Text.wordBound by decide)
  exact ⟨fun _ => .upTo .info, arguments, _, rfl, rfl, rfl, rfl,
    hends.value_eq.trans (Gather.ranked_eq_ok_iff.mpr ⟨rfl, hrank⟩)⟩

end Lone

/-! ## Reading the output -/

/-- **What is printed as text can be read back.** A run that gathers headers and ends well
has found a ranking. Its output has one line for each entry, which tells the path and the
score, so that runs of one kind with different rankings have different outputs. The lines
can be read back as well where several workers handled the commands. -/
theorem prints_readable :
    (∀ (world : World) (setting : CommandLine.Setting) (a : DepsArguments),
      Arguments.parse setting.environment setting.arguments = .ok (.gatherDeps a) →
      a.format = .text → (CommandLine.run world setting).exitCode = 0 →
      ∃ ranking, Ranks world setting a.numCommits.isSome ranking) ∧
    (∀ world setting weighted ranking, Ranks world setting weighted ranking →
      (CommandLine.run world setting).exitCode = 0 ∧
      ReadsBack (meaningOf weighted) (CommandLine.run world setting).output ranking) ∧
    (∀ world world' setting setting' weighted ranking ranking',
      Ranks world setting weighted ranking → Ranks world' setting' weighted ranking' →
      ranking ≠ ranking' →
      (CommandLine.run world setting).output ≠ (CommandLine.run world' setting').output) ∧
    ∀ run workers selected s, Pool.Reachable run workers selected s →
      ∀ changes n ranking, Ranking.rank s.progress.index changes n = some ranking →
      ∀ meaning, ReadsBack meaning (print .text meaning ranking) ranking := by
  have hreads {world : World} {setting : CommandLine.Setting} {weighted : Bool}
      {ranking : List RankEntry} (h : Ranks world setting weighted ranking) :
      ReadsBack (meaningOf weighted) (CommandLine.run world setting).output ranking := by
    rw [h.run_eq.2]
    obtain ⟨_, _, _, _, _, _, _, hvalue⟩ := h
    exact readsBack_of_value hvalue _
  refine ⟨fun world setting a hparse hformat hexit => exists_ranks hparse hformat hexit,
    fun world setting weighted ranking h => ⟨h.run_eq.1, hreads h⟩,
    fun world world' setting setting' weighted ranking ranking' h h' hne heq => ?_,
    fun run workers selected s h changes n ranking hrank meaning =>
      readsBack_of_reachable h hrank meaning⟩
  have hsame := hreads h
  rw [heq] at hsame
  exact hne (hsame.unique (hreads h'))

/-- Two compilers that list different headers, one after the other; and two that list one
header, with a third that fails, called for and finished in reverse order. -/
theorem prints_readable_lone :
    (CommandLine.run (Lone.world "x.h".toList) Lone.setting).exitCode = 0 ∧
    ReadsBack .targets (CommandLine.run (Lone.world "x.h".toList) Lone.setting).output
      [⟨"x.h".toList, 1⟩] ∧
    (∃ ranking, Ranks (Lone.world "x.h".toList) Lone.setting false ranking) ∧
    (CommandLine.run (Lone.world "x.h".toList) Lone.setting).output ≠
      (CommandLine.run (Lone.world "y.h".toList) Lone.setting).output ∧
    ReadsBack .targets (print .text .targets [⟨['h'], 2⟩]) [⟨['h'], 2⟩] := by
  obtain ⟨hfound, hread, hdiffer, hpool⟩ := prints_readable
  have hx : Ranks (Lone.world "x.h".toList) Lone.setting false [⟨"x.h".toList, 1⟩] :=
    Lone.ranks (by decide)
  have hy : Ranks (Lone.world "y.h".toList) Lone.setting false [⟨"y.h".toList, 1⟩] :=
    Lone.ranks (by decide)
  obtain ⟨hexit, hlines⟩ := hread _ _ _ _ hx
  have hreachable := Pool.reachable_reversed ⟨['a'], ['/'], ['x']⟩ ⟨['b'], ['/'], ['z']⟩
    ⟨['c'], ['/'], ['y']⟩ Pool.sharedHeader
  let targets : List CompileTarget :=
    [⟨['c'], ['/'], ['y'], [['h']]⟩, ⟨['a'], ['/'], ['x'], [['h']]⟩]
  have hitems : (ofTargets targets).items = [⟨['h'], targets⟩] := by
    rw [(HeaderIndex.records_ofTargets targets).items_eq]
    decide
  have hrank : Ranking.rank (ofTargets targets) none 10 = some [⟨['h'], 2⟩] :=
    Lone.rank_eq hitems (by decide)
  exact ⟨hexit, hlines, hfound _ Lone.setting Lone.arguments rfl rfl hexit,
    hdiffer _ _ _ _ _ _ _ hx hy (by decide), hpool _ _ _ _ hreachable none 10 _ hrank .targets⟩

end Report

end LoudHeaders
