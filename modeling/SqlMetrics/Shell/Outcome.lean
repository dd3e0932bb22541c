import SqlMetrics.Text.Utf8

/-!
# Outcomes of shell commands

What a caller learns of a command it has run: that it could not be started, or how it ended and what
it wrote to its two output streams.
-/

namespace SqlMetrics.Shell

/-- The names of the signals, by number. -/
def signalName : Nat → String
  | 1 => "SIGHUP"
  | 2 => "SIGINT"
  | 3 => "SIGQUIT"
  | 4 => "SIGILL"
  | 5 => "SIGTRAP"
  | 6 => "SIGABRT"
  | 7 => "SIGBUS"
  | 8 => "SIGFPE"
  | 9 => "SIGKILL"
  | 10 => "SIGUSR1"
  | 11 => "SIGSEGV"
  | 12 => "SIGUSR2"
  | 13 => "SIGPIPE"
  | 14 => "SIGALRM"
  | 15 => "SIGTERM"
  | 16 => "SIGSTKFLT"
  | 17 => "SIGCHLD"
  | 18 => "SIGCONT"
  | 19 => "SIGSTOP"
  | 20 => "SIGTSTP"
  | 21 => "SIGTTIN"
  | 22 => "SIGTTOU"
  | 23 => "SIGURG"
  | 24 => "SIGXCPU"
  | 25 => "SIGXFSZ"
  | 26 => "SIGVTALRM"
  | 27 => "SIGPROF"
  | 28 => "SIGWINCH"
  | 29 => "SIGIO"
  | 30 => "SIGPWR"
  | 31 => "SIGSYS"
  | _ => ""

/-- How a process ended. -/
inductive ExitStatus where
  | code (n : Nat)
  | signal (n : Nat) (coreDumped : Bool)
deriving DecidableEq, Repr

namespace ExitStatus

/-- Whether the process ended well. -/
def success : ExitStatus → Bool
  | .code n => n == 0
  | .signal _ _ => false

/-- The text of the status. -/
def message : ExitStatus → String
  | .code n => "exit status: " ++ toString n
  | .signal n coreDumped =>
    let name := signalName n
    "signal: " ++ toString n ++ (if name.isEmpty then "" else " (" ++ name ++ ")") ++
      (if coreDumped then " (core dumped)" else "")

end ExitStatus

/-- Why a command could not be started. -/
inductive StartFailure where
  /-- The command has a null character, which no argument of a process can hold. -/
  | nulByte
  /-- The command is longer than an argument of a process may be. -/
  | tooLong
  /-- The system refuses to start the process. -/
  | refused (reason : String)
deriving DecidableEq, Repr

/-- The text of the failure. -/
def StartFailure.message : StartFailure → String
  | .nulByte => "nul byte found in provided data"
  | .tooLong => "Argument list too long (os error 7)"
  | .refused reason => reason

/-- The outcome of a command. -/
inductive Outcome where
  | notStarted (failure : StartFailure)
  | ended (status : ExitStatus) (stdout stderr : Bytes)
deriving DecidableEq, Repr

end SqlMetrics.Shell
