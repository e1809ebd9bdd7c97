/-
CaptureSplit.ExitStatus — how a program ended.
-/

namespace CaptureSplit

/-- A program exits with a code or is ended by a signal. -/
inductive ExitStatus where
  | exited (code : Nat)
  | signalled (signal : Nat)
  deriving DecidableEq

namespace ExitStatus

/-- Only the exit code zero means success. -/
def isSuccess (status : ExitStatus) : Bool := status = .exited 0

/-- The names of the signals, from signal 1 on. -/
def signalNames : List String :=
  ["SIGHUP", "SIGINT", "SIGQUIT", "SIGILL", "SIGTRAP", "SIGABRT", "SIGBUS",
   "SIGFPE", "SIGKILL", "SIGUSR1", "SIGSEGV", "SIGUSR2", "SIGPIPE", "SIGALRM",
   "SIGTERM", "SIGSTKFLT", "SIGCHLD", "SIGCONT", "SIGSTOP", "SIGTSTP",
   "SIGTTIN", "SIGTTOU", "SIGURG", "SIGXCPU", "SIGXFSZ", "SIGVTALRM",
   "SIGPROF", "SIGWINCH", "SIGIO", "SIGPWR", "SIGSYS"]

/-- The name of a signal, if it has one. -/
def signalName? (signal : Nat) : Option String :=
  if signal = 0 then none else signalNames[signal - 1]?

/-- The wording of a status; a signal without a name goes by its number. -/
def message : ExitStatus → String
  | .exited code => s!"exit status: {code}"
  | .signalled signal =>
    match signalName? signal with
    | some name => s!"signal: {signal} ({name})"
    | none => s!"signal: {signal}"

end ExitStatus
end CaptureSplit
