import Mathlib.Logic.Relation
import LoudHeaders.Proofs.Gather.Account
import LoudHeaders.Proofs.HeaderIndex

/-
  Commands handled by a pool of workers.

  A selected command waits until a worker is free, is answered by its compiler, and is
  finished by one step that takes its outcome up. The steps of different commands come
  in any order (`Step`), with at most as many commands answered and not finished as
  there are workers; nothing is said about which command is next. This file

  1. shows that in every state that can be reached the outcomes of the finished
     commands, taken up in some order, give the progress there is, and that each
     command has been called for at most once (`Valid`, `valid_of_reachable`);
  2. derives that nothing is lost or counted twice on the way, and that at the end the
     count of failures, the headers and the targets under each header are those of
     handling the commands one after the other (`schedule_agrees`);
  3. shows that handling them one after the other is itself a schedule, for any
     number of workers (`steps_isSchedule`), so that the report of a run is that of
     every schedule of the commands it selects (`reports_schedule`).

  The order of the entries and of the targets under a header does depend on the
  schedule.
-/

namespace LoudHeaders

namespace Pool

open CompileCommand (dependencyCall outcome)
open Relation (ReflTransGen)

/-- How far a command has come. -/
inductive Stage where
  | pending
  | answered (answer : Except RunError Text)
  | finished (outcome : Outcome)

/-- A selected command and how far it has come. -/
structure Task where
  command : CompileCommand
  stage : Stage

namespace Task

/-- A command that waits. -/
def pending (c : CompileCommand) : Task := ⟨c, .pending⟩

/-- A command that is finished with its outcome. -/
def done (run : Runner) (c : CompileCommand) : Task := ⟨c, .finished (outcome run c)⟩

/-- Whether a worker holds the command. -/
def isBusy (t : Task) : Bool :=
  match t.stage with
  | .answered _ => true
  | _ => false

/-- Whether the command has been called for. -/
def isStarted (t : Task) : Bool :=
  match t.stage with
  | .pending => false
  | _ => true

/-- The outcome that has been taken up. -/
def outcome? (t : Task) : Option Outcome :=
  match t.stage with
  | .finished r => some r
  | _ => none

/-- The stage is one that the runner's answer leads to. -/
def Follows (run : Runner) (t : Task) : Prop :=
  match t.stage with
  | .pending => True
  | .answered answer =>
    answer = run (dependencyCall t.command).argv (dependencyCall t.command).cwd
  | .finished r => r = outcome run t.command

end Task

/-- The calls for the started ones of commands that stand at a place and behind it. -/
def callsFrom (place : Nat) (tasks : List Task) : List (Nat × Call) :=
  ((tasks.zipIdx place).filter fun t => t.1.isStarted).map fun t =>
    (t.2, dependencyCall t.1.command)

/-- The selected commands in the order of the database, the progress so far, and the
calls so far, each with the place of the command it was made for. -/
structure State where
  tasks : List Task
  progress : Progress
  calls : List (Nat × Call)

/-- All commands wait. -/
def start (selected : List CompileCommand) : State :=
  ⟨selected.map Task.pending, .start, []⟩

/-- A free worker calls the compiler for a command that waits; or a command with an
answer is finished, and its outcome is taken up at once. -/
inductive Step (run : Runner) (workers : Nat) : State → State → Prop where
  | answer (before after : List Task) (c : CompileCommand) (p : Progress)
      (calls : List (Nat × Call)) (free : (before ++ after).countP Task.isBusy < workers) :
    Step run workers ⟨before ++ ⟨c, .pending⟩ :: after, p, calls⟩
      ⟨before ++ ⟨c, .answered (run (dependencyCall c).argv (dependencyCall c).cwd)⟩ :: after, p,
        calls ++ [(before.length, dependencyCall c)]⟩
  | finish (before after : List Task) (c : CompileCommand) (answer : Except RunError Text)
      (p : Progress) (calls : List (Nat × Call)) :
    Step run workers ⟨before ++ ⟨c, .answered answer⟩ :: after, p, calls⟩
      ⟨before ++ ⟨c, .finished (c.targetOf answer)⟩ :: after, p.finish (c.targetOf answer), calls⟩

/-- What a schedule leads to from the start. -/
def Reachable (run : Runner) (workers : Nat) (selected : List CompileCommand) (s : State) : Prop :=
  ReflTransGen (Step run workers) (start selected) s

namespace State

/-- The outcomes of the finished commands, in the order of the database. -/
def outcomes (s : State) : List Outcome := s.tasks.filterMap Task.outcome?

/-- The targets recorded so far. -/
def recorded (s : State) : List CompileTarget := Progress.recorded s.outcomes

/-- Every command is finished. -/
def Complete (s : State) : Prop := ∀ t ∈ s.tasks, t.outcome?.isSome = true

/-- The calls for the commands that do not wait any more, in the order of the
database. -/
def started (s : State) : List (Nat × Call) := callsFrom 0 s.tasks

end State

/-- What every schedule keeps: the commands are those selected, with stages that their
answers lead to; the progress is that of the outcomes in some order; and the calls
are those of the started commands. -/
structure Valid (run : Runner) (selected : List CompileCommand) (s : State) : Prop where
  commands : s.tasks.map Task.command = selected
  follows : ∀ t ∈ s.tasks, t.Follows run
  progress : ∃ order : List Outcome, order.Perm s.outcomes ∧ s.progress = .after order
  calls : s.calls.Perm s.started

/-! ## What every schedule keeps -/

theorem outcomes_middle (before after : List Task) (t : Task) (p : Progress)
    (calls : List (Nat × Call)) :
    State.outcomes ⟨before ++ t :: after, p, calls⟩ =
      before.filterMap Task.outcome? ++ (t.outcome?.toList ++ after.filterMap Task.outcome?) := by
  unfold State.outcomes
  rw [List.filterMap_append]
  cases h : t.outcome? with
  | none => rw [List.filterMap_cons_none h]; rfl
  | some r => rw [List.filterMap_cons_some h]; rfl

theorem started_middle (before after : List Task) (t : Task) (p : Progress)
    (calls : List (Nat × Call)) :
    State.started ⟨before ++ t :: after, p, calls⟩ =
      callsFrom 0 before ++
        ((if t.isStarted then [(before.length, dependencyCall t.command)] else []) ++
          callsFrom (before.length + 1) after) := by
  unfold State.started callsFrom
  rw [List.zipIdx_append, List.zipIdx_cons, List.filter_append, List.map_append, Nat.zero_add]
  cases h : t.isStarted with
  | false => simp only [List.filter_cons, h]; rfl
  | true => simp only [List.filter_cons, h]; rfl

/-- One more item at the end, for one more in the middle. -/
theorem concat_perm {α : Type} {l front back : List α} (h : l.Perm (front ++ back)) (a : α) :
    (l ++ [a]).Perm (front ++ a :: back) :=
  calc (l ++ [a]).Perm (a :: l) := List.perm_append_singleton a l
    List.Perm _ (a :: (front ++ back)) := h.cons a
    List.Perm _ (front ++ a :: back) := List.perm_middle.symm

theorem valid_start (run : Runner) (selected : List CompileCommand) :
    Valid run selected (start selected) := by
  have hpending : ∀ t ∈ (start selected).tasks, t.stage = .pending := by
    intro t ht
    obtain ⟨c, _, rfl⟩ := List.mem_map.mp ht
    rfl
  have hnone : (start selected).outcomes = [] := by
    apply List.filterMap_eq_nil_iff.mpr
    intro t ht
    rw [Task.outcome?, hpending t ht]
  have hstarted : (start selected).started = [] := by
    apply List.map_eq_nil_iff.mpr
    apply List.filter_eq_nil_iff.mpr
    intro t ht
    rw [Task.isStarted, hpending t.1 (List.fst_mem_of_mem_zipIdx ht)]
    exact Bool.false_ne_true
  refine ⟨?_, ?_, ⟨[], ?_, rfl⟩, ?_⟩
  · show (selected.map Task.pending).map Task.command = selected
    rw [List.map_map]
    exact List.map_id _
  · intro t ht
    rw [Task.Follows, hpending t ht]
    trivial
  · rw [hnone]
  · rw [hstarted]
    exact List.Perm.nil

/-- A step keeps what every schedule keeps. -/
theorem valid_step {run : Runner} {workers : Nat} {selected : List CompileCommand} {s s' : State}
    (h : Valid run selected s) (hstep : Step run workers s s') : Valid run selected s' := by
  obtain ⟨hcommands, hfollows, ⟨order, horder, hprogress⟩, hcalls⟩ := h
  cases hstep with
  | answer before after c p calls free =>
    -- nothing is finished by an answer, so the same order will do
    rw [List.map_append, List.map_cons] at hcommands
    rw [List.forall_mem_append, List.forall_mem_cons] at hfollows
    rw [outcomes_middle] at horder
    refine ⟨?_, ?_, ⟨order, ?_, hprogress⟩, ?_⟩
    · rw [List.map_append, List.map_cons]
      exact hcommands
    · rw [List.forall_mem_append, List.forall_mem_cons]
      exact ⟨hfollows.1, rfl, hfollows.2.2⟩
    · rw [outcomes_middle]
      exact horder
    · rw [started_middle] at hcalls ⊢
      exact concat_perm hcalls _
  | finish before after c answer p calls =>
    -- the outcome is the last to be taken up, wherever its command stands
    rw [List.map_append, List.map_cons] at hcommands
    rw [List.forall_mem_append, List.forall_mem_cons] at hfollows
    have hanswer : answer = run (dependencyCall c).argv (dependencyCall c).cwd := hfollows.2.1
    rw [outcomes_middle] at horder
    refine ⟨?_, ?_, ⟨order ++ [c.targetOf answer], ?_, ?_⟩, ?_⟩
    · rw [List.map_append, List.map_cons]
      exact hcommands
    · rw [List.forall_mem_append, List.forall_mem_cons]
      exact ⟨hfollows.1, congrArg c.targetOf hanswer, hfollows.2.2⟩
    · rw [outcomes_middle]
      exact concat_perm horder _
    · show p.finish (c.targetOf answer) = _
      rw [show p = .after order from hprogress, Progress.after, Progress.after, List.foldl_append]
      rfl
    · rw [started_middle] at hcalls ⊢
      exact hcalls

theorem valid_of_reachable {run : Runner} {workers : Nat} {selected : List CompileCommand}
    {s : State} (h : Reachable run workers selected s) : Valid run selected s := by
  induction h with
  | refl => exact valid_start run selected
  | tail _ hstep ih => exact valid_step ih hstep

/-! ## Complete schedules -/

theorem recorded_perm {rs qs : List Outcome} (h : rs.Perm qs) :
    (Progress.recorded rs).Perm (Progress.recorded qs) := h.filterMap _

theorem Task.outcome?_of_follows {run : Runner} {t : Task} (h : t.Follows run)
    (hdone : t.outcome?.isSome = true) : t.outcome? = some (outcome run t.command) := by
  obtain ⟨c, stage⟩ := t
  cases stage with
  | pending => cases hdone
  | answered answer => cases hdone
  | finished r => exact congrArg some h

theorem Task.isStarted_of_outcome {t : Task} (hdone : t.outcome?.isSome = true) :
    t.isStarted = true := by
  obtain ⟨c, stage⟩ := t
  cases stage with
  | pending => cases hdone
  | answered answer => rfl
  | finished r => rfl

variable {run : Runner} {workers : Nat} {selected : List CompileCommand} {s : State}

theorem outcomes_of_complete (h : Valid run selected s) (hc : s.Complete) :
    s.outcomes = selected.map (outcome run) := by
  have hmap : s.outcomes = s.tasks.map fun t => outcome run t.command := by
    apply List.filterMap_eq_map_iff_forall_eq_some.mpr
    intro t ht
    exact Task.outcome?_of_follows (h.follows t ht) (hc t ht)
  rw [hmap, ← h.commands, List.map_map]
  rfl

theorem started_of_complete (h : Valid run selected s) (hc : s.Complete) :
    s.started = selected.zipIdx.map fun c => (c.2, dependencyCall c.1) := by
  have hall : s.tasks.zipIdx.filter (fun t => t.1.isStarted) = s.tasks.zipIdx := by
    apply List.filter_eq_self.mpr
    intro t ht
    exact Task.isStarted_of_outcome (hc t.1 (List.fst_mem_of_mem_zipIdx ht))
  rw [State.started, callsFrom, hall, ← h.commands, List.zipIdx_map, List.map_map]
  rfl

theorem steps_eq_after (run : Runner) (selected : List CompileCommand) :
    (Gather.steps run .start selected).value = .after (selected.map (outcome run)) :=
  Gather.steps_value run .start selected

/-- When all commands are finished, the outcomes are those of the sequential run in some
order. -/
theorem agrees_of_complete (h : Valid run selected s) (hc : s.Complete) :
    s.progress.failed = (Gather.steps run .start selected).value.failed ∧
    s.progress.index.Agrees (Gather.steps run .start selected).value.index ∧
    s.calls.Perm (selected.zipIdx.map fun c => (c.2, dependencyCall c.1)) := by
  obtain ⟨order, horder, hprogress⟩ := h.progress
  have hall : order.Perm (selected.map (outcome run)) := by
    rw [← outcomes_of_complete h hc]
    exact horder
  rw [steps_eq_after, hprogress]
  refine ⟨?_, ?_, ?_⟩
  · rw [Progress.failed_after, Progress.failed_after]
    exact hall.countP_eq _
  · rw [Progress.index_after, Progress.index_after]
    exact HeaderIndex.agrees_of_perm (recorded_perm hall)
  · rw [← started_of_complete h hc]
    exact h.calls

/-- **Every schedule ends where the commands one after the other end.** In every state
that can be reached, with any number of workers, no more is recorded and counted than
was selected, the index is that of the recorded targets in some order, and it holds
one target for each of their dependencies. When all commands are finished, the number
of failures, the headers and the targets under each header are those of the sequential
run, and the compiler has been called once for each command. -/
theorem schedule_agrees (h : Reachable run workers selected s) :
    s.recorded.length + s.progress.failed ≤ selected.length ∧
    (∃ targets : List CompileTarget, targets.Perm s.recorded ∧
      s.progress.index = .ofTargets targets) ∧
    (s.progress.index.items.map fun e => e.targets.length).sum =
      (s.recorded.map fun t => t.dependencies.length).sum ∧
    (s.Complete →
      s.progress.failed = (Gather.steps run .start selected).value.failed ∧
      s.progress.index.Agrees (Gather.steps run .start selected).value.index ∧
      s.calls.Perm (selected.zipIdx.map fun c => (c.2, dependencyCall c.1))) := by
  have hvalid := valid_of_reachable h
  obtain ⟨order, horder, hprogress⟩ := hvalid.progress
  have hrecorded : (Progress.recorded order).Perm s.recorded := recorded_perm horder
  have hindex : s.progress.index = .ofTargets (Progress.recorded order) := by
    rw [hprogress, Progress.index_after]
  refine ⟨?_, ⟨_, hrecorded, hindex⟩, ?_, agrees_of_complete hvalid⟩
  · calc s.recorded.length + s.progress.failed
        = (Progress.recorded order).length + (Progress.after order).failed := by
          rw [hrecorded.length_eq, hprogress]
      _ = order.length := Progress.recorded_add_failed order
      _ = s.outcomes.length := horder.length_eq
      _ ≤ s.tasks.length := List.length_filterMap_le _ _
      _ = selected.length := by rw [← hvalid.commands, List.length_map]
  · rw [hindex, HeaderIndex.sum_targets]
    exact (hrecorded.map _).sum_nat

/-- Nothing is left to do where every command is finished with its outcome. -/
theorem complete_done (run : Runner) (selected : List CompileCommand) (p : Progress)
    (calls : List (Nat × Call)) : State.Complete ⟨selected.map (Task.done run), p, calls⟩ := by
  intro t ht
  obtain ⟨c, _, rfl⟩ := List.mem_map.mp ht
  rfl

/-- Three commands that two workers have called for and have finished in reverse order.
The first was called for before the second was finished. -/
def reversed (a b c : CompileCommand) (run : Runner) : State where
  tasks := [Task.done run a, Task.done run b, Task.done run c]
  progress := .after [outcome run c, outcome run b, outcome run a]
  calls := [(2, dependencyCall c), (1, dependencyCall b), (0, dependencyCall a)]

theorem reachable_reversed (a b c : CompileCommand) (run : Runner) :
    Reachable run 2 [a, b, c] (reversed a b c run) := by
  have hlast : ReflTransGen (Step run 2) (start [a, b, c]) _ :=
    ReflTransGen.single
      (Step.answer [Task.pending a, Task.pending b] [] c .start [] Nat.zero_lt_two)
  have hboth := hlast.tail (Step.answer [Task.pending a] [_] b _ _ Nat.one_lt_two)
  -- one worker is free again, and the second command is still held
  have hfree := hboth.tail (Step.finish [Task.pending a, _] [] c _ _ _)
  have hfirst := hfree.tail (Step.answer [] [_, _] a _ _ Nat.one_lt_two)
  have hsecond := hfirst.tail (Step.finish [_] [_] b _ _ _)
  exact hsecond.tail (Step.finish [] [_, _] a _ _ _)

/-- A compiler `z` that fails, and others that report one header, for targets of their
own. -/
def sharedHeader : Runner := fun argv _ =>
  match argv with
  | ['z'] :: _ => .error (.failed ['z'] [] [])
  | _ => .ok (argv.headD [] ++ [':', ' ', 'h'])

theorem schedule_agrees_reversed :
    let a : CompileCommand := ⟨['a'], ['/'], ['x']⟩
    let b : CompileCommand := ⟨['b'], ['/', 'd'], ['z']⟩
    let c : CompileCommand := ⟨['c'], ['/', 'e'], ['y']⟩
    let s := reversed a b c sharedHeader
    let sequential := (Gather.steps sharedHeader .start [a, b, c]).value
    let targetA : CompileTarget := ⟨['a'], ['/'], ['x'], [['h']]⟩
    let targetC : CompileTarget := ⟨['c'], ['/', 'e'], ['y'], [['h']]⟩
    Reachable sharedHeader 2 [a, b, c] s ∧ s.Complete ∧ s.recorded = [targetA, targetC] ∧
    s.progress.failed = 1 ∧ sequential.failed = 1 ∧
    s.progress.index.items = [⟨['h'], [targetC, targetA]⟩] ∧
    sequential.index.items = [⟨['h'], [targetA, targetC]⟩] ∧
    s.progress.index.Agrees sequential.index ∧
    s.calls.Perm [
      (0, ⟨[['x'], "-MM".toList, "-MF".toList, ['-']], some ['/']⟩),
      (1, ⟨[['z'], "-MM".toList, "-MF".toList, ['-']], some ['/', 'd']⟩),
      (2, ⟨[['y'], "-MM".toList, "-MF".toList, ['-']], some ['/', 'e']⟩)] := by
  intro a b c s sequential targetA targetC
  have h : Reachable sharedHeader 2 [a, b, c] s := reachable_reversed a b c sharedHeader
  have hcomplete : s.Complete := complete_done sharedHeader [a, b, c] _ _
  have hitems : s.progress.index.items = [⟨['h'], [targetC, targetA]⟩] := by
    have := (HeaderIndex.records_ofTargets [targetC, targetA]).items_eq
    exact this.trans (by decide)
  have hsequential : sequential.index.items = [⟨['h'], [targetA, targetC]⟩] := by
    have := (HeaderIndex.records_ofTargets [targetA, targetC]).items_eq
    exact this.trans (by decide)
  obtain ⟨_, _, _, hend⟩ := schedule_agrees h
  obtain ⟨hfailed, hindex, hcalls⟩ := hend hcomplete
  exact ⟨h, hcomplete, rfl, hfailed, rfl, hitems, hsequential, hindex, hcalls⟩

/-! ## One command after the other -/

/-- From a state in which no worker is busy, the commands that wait can be handled one
after the other. -/
theorem reaches_done (hworkers : 0 < workers) (before : List Task)
    (hfree : before.countP Task.isBusy = 0) (rest : List CompileCommand) (p : Progress)
    (calls : List (Nat × Call)) :
    ReflTransGen (Step run workers) ⟨before ++ rest.map Task.pending, p, calls⟩
      ⟨before ++ rest.map (Task.done run), (rest.map (outcome run)).foldl Progress.finish p,
        calls ++ (rest.zipIdx before.length).map fun c => (c.2, dependencyCall c.1)⟩ := by
  induction rest generalizing before p calls with
  | nil =>
    show ReflTransGen (Step run workers) ⟨before ++ [], p, calls⟩ ⟨before ++ [], p, calls ++ []⟩
    rw [List.append_nil calls]
  | cons c rest ih =>
    -- no worker is busy, so the next command can be called for at once
    have hidle : (before ++ rest.map Task.pending).countP Task.isBusy < workers := by
      have hrest : (rest.map Task.pending).countP Task.isBusy = 0 := by
        rw [List.countP_eq_zero]
        intro t ht
        obtain ⟨d, _, rfl⟩ := List.mem_map.mp ht
        exact Bool.false_ne_true
      rw [List.countP_append, hfree, hrest]
      exact hworkers
    have hanswer : Step run workers ⟨before ++ (c :: rest).map Task.pending, p, calls⟩ _ :=
      Step.answer before (rest.map Task.pending) c p calls hidle
    have hfinish := (ReflTransGen.single hanswer).tail
      (Step.finish before (rest.map Task.pending) c _ p _)
    have hfree' : (before ++ [Task.done run c]).countP Task.isBusy = 0 := by
      rw [List.countP_append, hfree]
      rfl
    have hrest := ih (before ++ [Task.done run c]) hfree' (p.finish (outcome run c))
      (calls ++ [(before.length, dependencyCall c)])
    rw [List.append_assoc, List.append_assoc, List.append_assoc, List.length_append] at hrest
    exact hfinish.trans hrest

/-- Handling the commands one after the other is a schedule, whatever the number of
workers. -/
theorem steps_isSchedule (hworkers : 0 < workers) :
    Reachable run workers selected
      ⟨selected.map (Task.done run), (Gather.steps run .start selected).value,
        selected.zipIdx.map fun c => (c.2, dependencyCall c.1)⟩ := by
  rw [steps_eq_after]
  exact reaches_done hworkers [] rfl selected .start []

/-- **The report of a run is that of every schedule of its commands.** With a build tool
that answers, a run handles the commands it selects one after the other. That is one of
the schedules of any number of workers, such as `options.jobs` of them, and whichever they
follow, at the end they have counted the failures that are reported, they have found the
headers that are reported with the same targets, and they have made the same calls. -/
theorem reports_schedule {options : GatherOptions} {output : Text}
    (h : BuildInputs.Answers run options.binary options.buildDirectory options.targets output)
    (hworkers : 0 < workers) (commands : List CompileCommand) :
    let kept := CompileCommand.select commands (BuildInputs.pathsOf options.buildDirectory output)
    let report := Gather.reportOn run commands kept
    Gather.Gathers run options commands (Gather.queries options ++ kept.map dependencyCall)
      report ∧
    (∃ s, Reachable run workers kept s ∧ s.Complete ∧
      s.progress = ⟨report.index, report.failed⟩ ∧
      s.calls.map Prod.snd = kept.map dependencyCall) ∧
    ∀ s, Reachable run workers kept s → s.Complete →
      s.progress.failed = report.failed ∧ s.progress.index.Agrees report.index ∧
      (s.calls.map Prod.snd).Perm (kept.map dependencyCall) := by
  intro kept report
  have hvalue : (Gather.steps run .start kept).value = ⟨report.index, report.failed⟩ :=
    steps_eq_after run kept
  have hcalls : (kept.zipIdx.map fun c => (c.2, dependencyCall c.1)).map Prod.snd =
      kept.map dependencyCall :=
    calc (kept.zipIdx.map fun c => (c.2, dependencyCall c.1)).map Prod.snd
        = kept.zipIdx.map (dependencyCall ∘ Prod.fst) := List.map_map
      _ = (kept.zipIdx.map Prod.fst).map dependencyCall := List.map_map.symm
      _ = kept.map dependencyCall := by rw [List.zipIdx_map_fst]
  refine ⟨Gather.gathers_of_ends (Gather.fromCommands_ends h commands),
    ⟨_, steps_isSchedule hworkers, complete_done _ _ _ _, hvalue, hcalls⟩, fun s hs hc => ?_⟩
  obtain ⟨hfailed, hindex, hperm⟩ := agrees_of_complete (valid_of_reachable hs) hc
  rw [hvalue] at hfailed hindex
  refine ⟨hfailed, hindex, ?_⟩
  rw [← hcalls]
  exact hperm.map Prod.snd

end Pool

end LoudHeaders
