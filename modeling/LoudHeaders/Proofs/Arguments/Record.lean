import LoudHeaders.Proofs.Arguments.Line

/-
  Records written as command lines.

  A record is written by giving values to its options; what is left out has its default
  there (`Writes`).
    1. The environment adds the values of options that were not given, and leaves the
       others alone (`asks_environment`).
    2. The request is the record in which the options have their values, and those that
       have none are left at what they are without being given (`request_eq`).

  So a record is read back from every command line that writes it, and the environment
  stands for options that could have been written (`parse_written`).
-/

namespace LoudHeaders

namespace Arguments

/-! ## The environment -/

/-- The text the environment holds for an option. -/
def environmentText? (environment : List (Text × Text)) (o : OptionName) : Option Text :=
  o.environmentKey?.bind fun key =>
    (environment.find? fun entry => entry.1 == key).map (·.2)

/-- What the environment offers for an option: nothing, or a value of its kind. -/
inductive Offers (environment : List (Text × Text)) (o : OptionName) : Option Value → Prop
  | nothing (h : environmentText? environment o = none) : Offers environment o none
  | value {raw : Text} {v : Value} (h : environmentText? environment o = some raw)
      (hspells : Spells raw v) (hkind : o.kind? = v.kind?) : Offers environment o (some v)

namespace State

theorem ask_of_given {s : State} {o : OptionName} {v : Value} (h : s.get? o = some v)
    (environment : List (Text × Text)) : s.ask environment o = .ok s :=
  if_pos (by simp [h])

theorem ask_of_offers {environment : List (Text × Text)} {s : State} {o : OptionName}
    {offer : Option Value} (hnone : s.get? o = none) (h : Offers environment o offer) :
    s.ask environment o =
      .ok { s with values := s.values ++ (offer.map (Prod.mk o)).toList } := by
  have hnot : ¬(s.get? o).isSome = true := by simp [hnone]
  rw [ask, if_neg hnot]
  cases h with
  | nothing h =>
    have hsame : ({ s with values := s.values ++ [] } : State) = s := by simp
    show _ = Except.ok { s with values := s.values ++ [] }
    rw [hsame]
    cases hkey : o.environmentKey? with
    | none => rfl
    | some key =>
      simp only [environmentText?, hkey, Option.bind_some, Option.map_eq_none_iff] at h
      simp only [h]
  | @value raw v h hspells hkind =>
    rw [environmentText?, Option.bind_eq_some_iff] at h
    obtain ⟨key, hkey, hfound⟩ := h
    obtain ⟨entry, hentry, rfl⟩ := Option.map_eq_some_iff.mp hfound
    simp only [hkey, hentry]
    exact give_eq (get?_eq_none_iff.mp hnone) hspells hkind

/-- Asking for an option gives it the value that is offered, unless it has one. -/
theorem get?_ask {environment : List (Text × Text)} {s : State} {o : OptionName}
    {offer : Option Value} (h : s.get? o = none → Offers environment o offer) :
    ∃ s', s.ask environment o = .ok s' ∧ s'.positionals = s.positionals ∧
      ∀ p, s'.get? p = if p = o then (s.get? o).or offer else s.get? p := by
  cases hs : s.get? o with
  | some v =>
    refine ⟨s, ask_of_given hs environment, rfl, fun p => ?_⟩
    split
    · next hp => rw [hp, hs, Option.some_or]
    · rfl
  | none =>
    refine ⟨_, ask_of_offers hs (h hs), rfl, fun p => ?_⟩
    rw [Option.none_or]
    cases offer with
    | none =>
      show get? { s with values := s.values ++ [] } p = _
      rw [List.append_nil]
      split
      · next hp => rw [hp, hs]
      · rfl
    | some v => exact get?_concat hs p

/-- **The environment adds what was not given.** -/
theorem asks_environment {environment : List (Text × Text)} {offer : OptionName → Option Value}
    (names : List OptionName) {s : State}
    (h : ∀ o, s.get? o = none → Offers environment o (offer o)) :
    ∃ s', names.foldlM (ask environment) s = .ok s' ∧ s'.positionals = s.positionals ∧
      ∀ o, s'.get? o = if o ∈ names then (s.get? o).or (offer o) else s.get? o := by
  induction names generalizing s with
  | nil => exact ⟨s, rfl, rfl, fun o => by simp⟩
  | cons name names ih =>
    obtain ⟨mid, hmid, hplaces, hget⟩ := get?_ask (h name)
    have hoffers : ∀ o, mid.get? o = none → Offers environment o (offer o) := by
      intro o ho
      rw [hget] at ho
      split at ho
      · next hname =>
        subst hname
        exact h o (Option.or_eq_none_iff.mp ho).1
      · exact h o ho
    obtain ⟨s', hrun, hplaces', hget'⟩ := ih hoffers
    refine ⟨s', ?_, hplaces'.trans hplaces, fun o => ?_⟩
    · rw [List.foldlM_cons, hmid]
      exact hrun
    · rw [hget', hget]
      by_cases hname : o = name
      · subst hname
        cases s.get? o <;> cases offer o <;> simp
      · simp [hname]

/-! ## The request -/

theorem number?_eq {s : State} {o : OptionName} {n : Option Nat}
    (h : s.get? o = n.map .number) : s.number? o = n := by
  rw [number?, h]
  cases n <;> rfl

theorem path?_eq {s : State} {o : OptionName} {p : Option Text}
    (h : s.get? o = p.map .path) : s.path? o = p := by
  rw [path?, h]
  cases p <;> rfl

theorem numFiles_eq {s : State} {n : Nat}
    (h : (s.get? .numFiles).or (defaultOf .numFiles) = some (.number n)) :
    (s.number? .numFiles).getD defaultNumFiles = n := by
  rw [number?]
  cases hvalue : s.get? .numFiles with
  | none =>
    rw [hvalue] at h
    cases h
    rfl
  | some v =>
    rw [hvalue] at h
    cases h
    rfl

theorem formatOf_eq {s : State} {f : Format}
    (h : (s.get? .format).or (defaultOf .format) = some (.format f)) : s.formatOf = f := by
  rw [formatOf]
  cases hvalue : s.get? .format with
  | none =>
    rw [hvalue] at h
    cases h
    rfl
  | some v =>
    rw [hvalue] at h
    cases h
    rfl

/-- **The request is the record in which the options have their values.** -/
theorem request_eq {s : State} {a : DepsArguments}
    (hplaces : s.positionals = a.buildDir :: a.targets)
    (hvalues : ∀ o, (s.get? o).or (defaultOf o) = valueOf a o) :
    s.request .gatherDeps = .ok (.gatherDeps a) := by
  -- an option without a default has the value it was given
  have hgiven : ∀ o, defaultOf o = none → s.get? o = valueOf a o := fun o ho => by
    rw [← hvalues o, ho, Option.or_none]
  have hprogress : (s.get? .noProgress).isSome = a.noProgress := by
    rw [hgiven .noProgress rfl, valueOf]
    cases a.noProgress <;> rfl
  simp only [request, hplaces, numFiles_eq (hvalues .numFiles), formatOf_eq (hvalues .format),
    path?_eq (hgiven .ninjaBinary rfl), number?_eq (hgiven .numCommits rfl),
    path?_eq (hgiven .repo rfl), path?_eq (hgiven .compileCommands rfl),
    number?_eq (hgiven .jobs rfl), hprogress]

end State

/-! ## Records read back -/

/-- The arguments write the record. Every option is given once at most, with its value in
the record, and what is not given has its default there. -/
structure Writes (a : DepsArguments) (vs : List (OptionName × Value))
    (arguments : List Text) : Prop where
  written : Written vs (a.buildDir :: a.targets) arguments
  named : a.buildDir ≠ []
  once : (vs.map Prod.fst).Nodup
  given : ∀ o v, (o, v) ∈ vs → valueOf a o = some v
  left_out : ∀ o, o ∉ vs.map Prod.fst → valueOf a o = defaultOf o

/-- The record with what the environment offers for options that have no value in it. -/
def filled (a : DepsArguments) (ninja : Option Text) (jobs : Option Nat) : DepsArguments :=
  { a with ninjaBinary := a.ninjaBinary.or ninja, jobs := a.jobs.or jobs }

theorem filled_none (a : DepsArguments) : filled a none none = a := by
  simp only [filled, Option.or_none]

/-- What is offered for an option. -/
def offered (ninja : Option Text) (jobs : Option Nat) : OptionName → Option Value
  | .ninjaBinary => ninja.map .path
  | .jobs => jobs.map .number
  | _ => none

/-- The values offered for options that are not given. -/
def added (vs : List (OptionName × Value)) (ninja : Option Text) (jobs : Option Nat) :
    List (OptionName × Value) :=
  CommandName.gatherDeps.options.filterMap fun o =>
    if o ∈ vs.map Prod.fst then none else (offered ninja jobs o).map (Prod.mk o)

/-- The environment offers these values for the options that have none in the record. -/
structure Supplies (environment : List (Text × Text)) (a : DepsArguments)
    (ninja : Option Text) (jobs : Option Nat) : Prop where
  ninjaBinary : a.ninjaBinary = none → Offers environment .ninjaBinary (ninja.map .path)
  jobs : a.jobs = none → Offers environment .jobs (jobs.map .number)

theorem or_offered {a : DepsArguments} {o : OptionName} {given : Option Value}
    (ninja : Option Text) (jobs : Option Nat) (h : given.or (defaultOf o) = valueOf a o) :
    (given.or (offered ninja jobs o)).or (defaultOf o) = valueOf (filled a ninja jobs) o := by
  cases o
  case ninjaBinary | jobs =>
    -- the two options that can be offered have no default
    obtain rfl : given = _ := Option.or_none.symm.trans h
    exact Option.or_none.trans (Option.map_or ..).symm
  all_goals exact (congrArg (Option.or · _) Option.or_none).trans h

theorem mem_options_of_offered {ninja : Option Text} {jobs : Option Nat} {o : OptionName}
    {v : Value} (h : offered ninja jobs o = some v) : o ∈ CommandName.gatherDeps.options := by
  cases o
  case maxCommits => cases h
  all_goals decide

theorem mem_added {vs : List (OptionName × Value)} {ninja : Option Text} {jobs : Option Nat}
    {o : OptionName} {v : Value} :
    (o, v) ∈ added vs ninja jobs ↔ o ∉ vs.map Prod.fst ∧ offered ninja jobs o = some v := by
  rw [added, List.mem_filterMap]
  constructor
  · rintro ⟨p, _, hp⟩
    split at hp
    · cases hp
    · next hnot =>
      obtain ⟨w, hw, hpair⟩ := Option.map_eq_some_iff.mp hp
      cases hpair
      exact ⟨hnot, hw⟩
  · rintro ⟨hnot, hoffer⟩
    refine ⟨o, mem_options_of_offered hoffer, ?_⟩
    rw [if_neg hnot, hoffer]
    rfl

theorem nodup_added (vs : List (OptionName × Value)) (ninja : Option Text) (jobs : Option Nat) :
    ((added vs ninja jobs).map Prod.fst).Nodup := by
  have hnames : CommandName.gatherDeps.options.Nodup := by decide
  have hname : ∀ (o : OptionName) (entry : OptionName × Value),
      (if o ∈ vs.map Prod.fst then none else (offered ninja jobs o).map (Prod.mk o)) = some entry →
        entry.1 = o := by
    intro o entry h
    split at h
    · cases h
    · obtain ⟨_, _, rfl⟩ := Option.map_eq_some_iff.mp h
      rfl
  rw [List.Nodup, List.pairwise_map]
  refine List.Pairwise.filterMap _ (fun o p hne entry hentry other hother => ?_) hnames
  rwa [hname o entry hentry, hname p other hother]

namespace Writes

variable {a : DepsArguments} {vs : List (OptionName × Value)} {arguments : List Text}

/-- The values that are read are the values in the record, up to the defaults. -/
theorem get?_or_default (h : Writes a vs arguments) (places : List Text) (o : OptionName) :
    (State.get? ⟨vs, places, none, false⟩ o).or (defaultOf o) = valueOf a o := by
  by_cases ho : o ∈ vs.map Prod.fst
  · obtain ⟨⟨o, v⟩, hmem, rfl⟩ := List.mem_map.mp ho
    rw [State.get?_of_mem h.once hmem, Option.some_or, h.given o v hmem]
  · rw [State.get?_eq_none_iff.mpr ho, Option.none_or, h.left_out o ho]

/-- What the environment offers makes the options it is offered for given. -/
theorem offers (h : Writes a vs arguments) {environment : List (Text × Text)}
    {ninja : Option Text} {jobs : Option Nat} (henv : Supplies environment a ninja jobs)
    (places : List Text) (o : OptionName)
    (ho : State.get? ⟨vs, places, none, false⟩ o = none) :
    Offers environment o (offered ninja jobs o) := by
  have hvalue := h.get?_or_default places o
  rw [ho, Option.none_or] at hvalue
  cases o
  case ninjaBinary => exact henv.ninjaBinary (Option.map_eq_none_iff.mp hvalue.symm)
  case jobs => exact henv.jobs (Option.map_eq_none_iff.mp hvalue.symm)
  all_goals exact .nothing rfl

theorem parse_eq (h : Writes a vs arguments) {environment : List (Text × Text)}
    {ninja : Option Text} {jobs : Option Nat} (henv : Supplies environment a ninja jobs) :
    parse environment (CommandName.gatherDeps.text :: arguments) =
      .ok (.gatherDeps (filled a ninja jobs)) := by
  obtain ⟨s, hrun, hreads⟩ :
      ∃ s, arguments.foldlM (State.step .gatherDeps) ⟨[], [], none, false⟩ = .ok s ∧
        s.Reads vs (a.buildDir :: a.targets) :=
    State.reads_written h.written (State.reads_settled [] []) h.once h.given
      (by simpa using h.named)
  obtain ⟨s', hask, hplaces, hget⟩ := State.asks_environment CommandName.gatherDeps.options
    (fun o ho => h.offers henv (a.buildDir :: a.targets) o ho)
  have hvalues : ∀ o, (s'.get? o).or (defaultOf o) = valueOf (filled a ninja jobs) o := by
    intro o
    rw [← or_offered ninja jobs (h.get?_or_default (a.buildDir :: a.targets) o), hget]
    split
    · rfl
    · next ho =>
      have hoffer : offered ninja jobs o = none :=
        Option.eq_none_iff_forall_ne_some.mpr fun v hv => ho (mem_options_of_offered hv)
      rw [hoffer, Option.or_none]
  show parseCommand environment .gatherDeps arguments = _
  rw [parseCommand, State.start, hrun]
  show (do let s ← s.settle; _) = _
  rw [hreads.settle]
  show (do let s ← CommandName.gatherDeps.options.foldlM (State.ask environment) _; _) = _
  rw [hask]
  exact State.request_eq hplaces hvalues

theorem parse_bare (h : Writes a vs arguments) :
    parse [] (CommandName.gatherDeps.text :: arguments) = .ok (.gatherDeps a) := by
  have henv : Supplies [] a none none := ⟨fun _ => .nothing rfl, fun _ => .nothing rfl⟩
  rw [h.parse_eq henv, filled_none]

/-- A command line that gives the values that are offered as well writes the record with
these values. -/
theorem filled (h : Writes a vs arguments) {ninja : Option Text} {jobs : Option Nat}
    {vs' : List (OptionName × Value)} {arguments' : List Text}
    (hperm : vs'.Perm (vs ++ added vs ninja jobs))
    (hwritten : Written vs' (a.buildDir :: a.targets) arguments') :
    Writes (Arguments.filled a ninja jobs) vs' arguments' := by
  have hmem : ∀ o v, (o, v) ∈ vs' ↔ (o, v) ∈ vs ∨ (o, v) ∈ added vs ninja jobs := fun o v => by
    rw [hperm.mem_iff, List.mem_append]
  have hvalue : ∀ o, _ := fun o => or_offered ninja jobs (h.get?_or_default [] o)
  refine ⟨hwritten, h.named, ?_, ?_, ?_⟩
  · rw [(hperm.map Prod.fst).nodup_iff, List.map_append]
    refine List.nodup_append.mpr ⟨h.once, nodup_added .., fun o ho p hadded => ?_⟩
    obtain ⟨⟨p, v⟩, hv, rfl⟩ := List.mem_map.mp hadded
    rintro rfl
    exact (mem_added.mp hv).1 ho
  · intro o v hv
    rw [← hvalue]
    rcases (hmem o v).mp hv with hv | hv
    · rw [State.get?_of_mem h.once hv]
      rfl
    · rw [State.get?_eq_none_iff.mpr (mem_added.mp hv).1, (mem_added.mp hv).2]
      rfl
  · intro o ho
    have hnot : o ∉ vs.map Prod.fst := fun hin => by
      obtain ⟨⟨o, v⟩, hv, rfl⟩ := List.mem_map.mp hin
      exact ho (List.mem_map_of_mem ((hmem o v).mpr (.inl hv)))
    have hoffer : offered ninja jobs o = none := by
      rw [Option.eq_none_iff_forall_ne_some]
      intro v hv
      exact ho (List.mem_map_of_mem ((hmem o v).mpr (.inr (mem_added.mpr ⟨hnot, hv⟩))))
    rw [← hvalue, State.get?_eq_none_iff.mpr hnot, hoffer]
    rfl

end Writes

/-- **A record is read back from every command line that writes it.** -/
theorem parse_written {a : DepsArguments} {vs : List (OptionName × Value)}
    {arguments : List Text} (h : Writes a vs arguments) :
    parse [] (CommandName.gatherDeps.text :: arguments) = .ok (.gatherDeps a) ∧
      ∀ {environment : List (Text × Text)} {ninja : Option Text} {jobs : Option Nat},
        Supplies environment a ninja jobs →
          parse environment (CommandName.gatherDeps.text :: arguments) =
              .ok (.gatherDeps (filled a ninja jobs)) ∧
            ∀ {vs' : List (OptionName × Value)} {arguments' : List Text},
              vs'.Perm (vs ++ added vs ninja jobs) →
                Written vs' (a.buildDir :: a.targets) arguments' →
                  parse [] (CommandName.gatherDeps.text :: arguments') =
                    .ok (.gatherDeps (filled a ninja jobs)) := by
  exact ⟨h.parse_bare, fun henv => ⟨h.parse_eq henv, fun hperm hwritten =>
    (h.filled hperm hwritten).parse_bare⟩⟩

/-- A record in which some options have values. -/
def mixed : DepsArguments where
  ninjaBinary := none
  numFiles := 10
  numCommits := some 18446744073709551615
  repo := some "r".toList
  compileCommands := some "-c.json".toList
  jobs := some 4
  format := .json
  noProgress := true
  buildDir := "out".toList
  targets := ["a".toList, "b".toList]

/-- The values it is written with; one option is left out. -/
def mixedValues : List (OptionName × Value) :=
  [(.noProgress, .flag), (.numCommits, .number 18446744073709551615), (.repo, .path "r".toList),
    (.jobs, .number 4), (.format, .format .json), (.compileCommands, .path "-c.json".toList)]

/-- It is written with options on all sides of the positional arguments. -/
def mixedLine : List Text :=
  ["--no-progress", "-c", "18446744073709551615", "out", "--repo=r", "a", "-j", "004", "--format",
    "json", "b", "--compile-commands=-c.json"].map String.toList

/-- The environment has values for two options, one of which is given. -/
def mixedEnvironment : List (Text × Text) :=
  [("HPP_RAY_JOBS".toList, "7".toList), ("HPP_RAY_NINJA".toList, "n2".toList)]

theorem parse_written_mixed :
    Writes mixed mixedValues mixedLine ∧
      Supplies mixedEnvironment mixed (some "n2".toList) (some 7) ∧
      parse [] (CommandName.gatherDeps.text :: mixedLine) = .ok (.gatherDeps mixed) ∧
      parse mixedEnvironment (CommandName.gatherDeps.text :: mixedLine) =
        .ok (.gatherDeps { mixed with ninjaBinary := some "n2".toList }) ∧
      parse [] (CommandName.gatherDeps.text :: "-b".toList :: "n2".toList :: mixedLine) =
        .ok (.gatherDeps { mixed with ninjaBinary := some "n2".toList }) := by
  have hwritten : Written mixedValues (mixed.buildDir :: mixed.targets) mixedLine :=
    .option .flag <|
    .option (.letter rfl (.number ⟨0, by decide⟩ (by decide)) (by decide)) <|
    .positional (by decide) <|
    .option (.joined (.path (by decide))) <|
    .positional (by decide) <|
    .option (.letter rfl (.number ⟨2, by decide⟩ (by decide)) (by decide)) <|
    .option (.apart .json (by decide)) <|
    .positional (by decide) <|
    .option (.joined (.path (by decide))) .nil
  have hgiven : ∀ entry ∈ mixedValues, valueOf mixed entry.1 = some entry.2 := by decide
  have hwrites : Writes mixed mixedValues mixedLine :=
    ⟨hwritten, by decide, by decide, fun o v hv => hgiven (o, v) hv, by rintro (_ | _) <;> decide⟩
  have henv : Supplies mixedEnvironment mixed (some "n2".toList) (some 7) :=
    ⟨fun _ => .value rfl (.path (by decide)) rfl, fun h => by cases h⟩
  obtain ⟨hbare, hoffered⟩ := parse_written hwrites
  obtain ⟨hfilled, hadded⟩ := hoffered henv
  have hletter : Gives .ninjaBinary ["-b".toList, "n2".toList] (.path "n2".toList) :=
    .letter rfl (.path (by decide)) (by decide)
  exact ⟨hwrites, henv, hbare, hfilled, hadded (by decide) (.option hletter hwritten)⟩

end Arguments

end LoudHeaders
