import LoudHeaders.Error

/-
  Computations that leave a trace.

  A `Traced` value comes with the events on the way to it, in order: the
  programs that were called and the lines that were logged. Chaining two
  computations appends their events, so what a run did is a list that can be
  reasoned about. A `Session` may also fail; the events before the failure stay.
-/

namespace LoudHeaders

/-- What a log line is about. -/
inductive Topic where
  | program
  | history
  | gathering
  | inputs
  | dependencies
  | calls
  deriving DecidableEq, Repr

/-- How important a log line is. -/
inductive Level where
  | error
  | warn
  | info
  | debug
  | trace
  deriving DecidableEq, Repr

namespace Level

/-- The name of a level. -/
def name : Level → Text
  | .error => "ERROR".toList
  | .warn => "WARN".toList
  | .info => "INFO".toList
  | .debug => "DEBUG".toList
  | .trace => "TRACE".toList

/-- The levels by severity, the most severe first. -/
def rank : Level → Nat
  | .error => 1
  | .warn => 2
  | .info => 3
  | .debug => 4
  | .trace => 5

end Level

/-- The least severe level that is logged, as its rank; nothing is at zero. -/
structure Verbosity where
  rank : Nat
  deriving DecidableEq, Repr

namespace Verbosity

/-- No line at all. -/
def silent : Verbosity := ⟨0⟩

/-- Lines of this level and all more severe ones. -/
def upTo (level : Level) : Verbosity := ⟨level.rank⟩

/-- Every line. -/
def full : Verbosity := upTo .trace

/-- Whether lines of a level are logged. -/
def shows (v : Verbosity) (level : Level) : Bool := level.rank ≤ v.rank

end Verbosity

/-- A call of an external program. -/
structure Call where
  argv : List Text
  cwd : Option Text
  deriving DecidableEq, Repr

/-- A log line. -/
structure LogLine where
  topic : Topic
  level : Level
  message : Text
  deriving DecidableEq, Repr

/-- One thing that happened during a run. -/
inductive Event where
  | called (call : Call)
  | logged (line : LogLine)
  deriving DecidableEq, Repr

namespace Event

/-- The call an event is, if it is one. -/
def call? : Event → Option Call
  | .called call => some call
  | .logged _ => none

/-- The log line an event is, if it is one. -/
def line? : Event → Option LogLine
  | .called _ => none
  | .logged line => some line

/-- The log line about a call. -/
def callLine (call : Call) : LogLine :=
  let place : Text :=
    match call.cwd with
    | none => "None".toList
    | some directory => "Some(".toList ++ Text.quoted directory ++ ")".toList
  ⟨.calls, .trace, "running ".toList ++ Text.quotedList call.argv ++ " in ".toList ++ place⟩

/-- The log line an event leaves where calls are logged too. A call without a
program is refused before it is logged. -/
def toLine? : Event → Option LogLine
  | .called call => if call.argv.isEmpty then none else some (callLine call)
  | .logged line => some line

end Event

/-- A value and the events on the way to it. -/
structure Traced (α : Type) where
  events : List Event
  value : α

namespace Traced

/-- A value without events. -/
def pure {α : Type} (a : α) : Traced α := ⟨[], a⟩

/-- The second computation after the first, its events behind the first's. -/
def bind {α β : Type} (x : Traced α) (f : α → Traced β) : Traced β :=
  let y := f x.value
  ⟨x.events ++ y.events, y.value⟩

instance : Monad Traced where
  pure := Traced.pure
  bind := Traced.bind

/-- The calls among the events. -/
def calls {α : Type} (x : Traced α) : List Call := x.events.filterMap Event.call?

/-- The log lines among the events. -/
def log {α : Type} (x : Traced α) : List LogLine := x.events.filterMap Event.line?

@[simp] theorem events_pure {α : Type} (a : α) : (Pure.pure a : Traced α).events = [] := rfl

@[simp] theorem value_pure {α : Type} (a : α) : (Pure.pure a : Traced α).value = a := rfl

@[simp] theorem events_bind {α β : Type} (x : Traced α) (f : α → Traced β) :
    (x >>= f).events = x.events ++ (f x.value).events := rfl

@[simp] theorem value_bind {α β : Type} (x : Traced α) (f : α → Traced β) :
    (x >>= f).value = (f x.value).value := rfl

@[simp] theorem calls_bind {α β : Type} (x : Traced α) (f : α → Traced β) :
    (x >>= f).calls = x.calls ++ (f x.value).calls := List.filterMap_append

instance : LawfulMonad Traced :=
  LawfulMonad.mk' Traced
    (fun x => by cases x; simp [Functor.map, Traced.bind, Traced.pure])
    (fun a f => by simp [Bind.bind, Traced.bind, Pure.pure, Traced.pure])
    (fun x f g => by simp [Bind.bind, Traced.bind])

end Traced

/-- A traced computation that may fail. -/
abbrev Session (α : Type) : Type := ExceptT Failure Traced α

namespace Session

/-- Logs one line. -/
def log (topic : Topic) (level : Level) (message : Text) : Session Unit :=
  ExceptT.lift ⟨[.logged ⟨topic, level, message⟩], ()⟩

/-- Ends the run with an error. -/
def fail {α : Type} (cause : Error) : Session α := throw (.error cause)

/-- The value, or the error that `wrap` makes of what went wrong instead. -/
def ofExcept {ε α : Type} (wrap : ε → Error) : Except ε α → Session α
  | .ok a => pure a
  | .error e => fail (wrap e)

/-- A traced computation that cannot fail, as part of a session. -/
def lift {α : Type} (x : Traced α) : Session α := ExceptT.lift x

end Session

/-- What answers the calls of external programs: the output of a successful
run, or why there is none. Answers depend on the arguments and the working
directory alone. -/
abbrev Runner : Type := List Text → Option Text → Except RunError Text

/-- A call of a program, recorded. -/
def Runner.call (run : Runner) (argv : List Text) (cwd : Option Text) :
    Traced (Except RunError Text) :=
  ⟨[.called ⟨argv, cwd⟩], run argv cwd⟩

end LoudHeaders
