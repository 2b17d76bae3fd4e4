/-! # Signals

The names of the signals that can end a process, by number. -/

namespace CommandRelay.Signal

/-- The signal that ends a process whatever it does. -/
def kill : Nat := 9

/-- The names of the signals, from number one on. -/
def names : List String :=
  ["SIGHUP", "SIGINT", "SIGQUIT", "SIGILL", "SIGTRAP", "SIGABRT", "SIGBUS", "SIGFPE", "SIGKILL",
    "SIGUSR1", "SIGSEGV", "SIGUSR2", "SIGPIPE", "SIGALRM", "SIGTERM", "SIGSTKFLT", "SIGCHLD",
    "SIGCONT", "SIGSTOP", "SIGTSTP", "SIGTTIN", "SIGTTOU", "SIGURG", "SIGXCPU", "SIGXFSZ",
    "SIGVTALRM", "SIGPROF", "SIGWINCH", "SIGIO", "SIGPWR", "SIGSYS"]

/-- The name of a signal, or its number if it has none. -/
def name (number : Nat) : String :=
  if number = 0 then "0"
  else if number = 34 then "SIGRTMIN"
  else if number = 64 then "SIGRTMAX"
  else names.getD (number - 1) (toString number)

/-- The number of a signal, with or without the common start of the names. -/
def number? (name : String) : Option Nat :=
  (names.findIdx? fun n => n = name ∨ n = "SIG" ++ name).map (· + 1)

end CommandRelay.Signal
