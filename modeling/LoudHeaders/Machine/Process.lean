import LoudHeaders.Text.Basic

/-
  Processes that have ended.

  A process ends with a status of its own or by a signal, and leaves the bytes
  it wrote to its two outputs.
-/

namespace LoudHeaders

namespace Machine

/-- How a process ended. -/
inductive Status where
  | exited (code : Nat)
  | signalled (signal : Nat)
  deriving DecidableEq, Repr

namespace Status

/-- The names of signals. -/
def signalNames : List (Nat × Text) :=
  [(1, "SIGHUP".toList), (2, "SIGINT".toList), (3, "SIGQUIT".toList), (4, "SIGILL".toList),
    (5, "SIGTRAP".toList), (6, "SIGABRT".toList), (7, "SIGBUS".toList), (8, "SIGFPE".toList),
    (9, "SIGKILL".toList), (10, "SIGUSR1".toList), (11, "SIGSEGV".toList),
    (12, "SIGUSR2".toList), (13, "SIGPIPE".toList), (14, "SIGALRM".toList),
    (15, "SIGTERM".toList), (16, "SIGSTKFLT".toList), (17, "SIGCHLD".toList),
    (18, "SIGCONT".toList), (19, "SIGSTOP".toList), (20, "SIGTSTP".toList),
    (21, "SIGTTIN".toList), (22, "SIGTTOU".toList), (23, "SIGURG".toList),
    (24, "SIGXCPU".toList), (25, "SIGXFSZ".toList), (26, "SIGVTALRM".toList),
    (27, "SIGPROF".toList), (28, "SIGWINCH".toList), (29, "SIGIO".toList), (30, "SIGPWR".toList),
    (31, "SIGSYS".toList)]

/-- The name of a signal in brackets, if it has one. -/
def signalName (signal : Nat) : Text :=
  match signalNames.find? fun entry => entry.1 == signal with
  | some entry => " (".toList ++ entry.2 ++ ")".toList
  | none => []

/-- How a status that a process ended with is described. -/
def exitText (code : Int) : Text := "exit status: ".toList ++ Text.ofInt code

/-- How the end of a process is described. -/
def text : Status → Text
  | .exited code => exitText code
  | .signalled signal => "signal: ".toList ++ Text.ofNat signal ++ signalName signal

end Status

/-- A process that has ended, with what it wrote. -/
structure Finished where
  status : Status
  output : List UInt8
  error : List UInt8
  deriving DecidableEq, Repr

end Machine

end LoudHeaders
