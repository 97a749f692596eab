/-! How the surroundings of the program answer it: the ways in which a file
operation fails, and the ways in which another program ends. -/
namespace ArithAsm

/-- Why an operation outside the program failed. -/
inductive IoError where
  | notFound
  | argumentTooLong
  | permissionDenied
  | notDirectory
  | isDirectory
  | noSpace
  | nameTooLong
  /-- A path with a zero byte names no file. -/
  | zeroByteInName
  /-- An argument with a zero byte cannot be passed on. -/
  | zeroByteInArgument
  /-- A destination took fewer bytes than it was given. -/
  | shortWrite
  | other (text : String)
deriving DecidableEq, Repr

/-- What is said about the failure. -/
def IoError.message : IoError → String
  | notFound => "No such file or directory (os error 2)"
  | argumentTooLong => "Argument list too long (os error 7)"
  | permissionDenied => "Permission denied (os error 13)"
  | notDirectory => "Not a directory (os error 20)"
  | isDirectory => "Is a directory (os error 21)"
  | noSpace => "No space left on device (os error 28)"
  | nameTooLong => "File name too long (os error 36)"
  | zeroByteInName => "file name contained an unexpected NUL byte"
  | zeroByteInArgument => "nul byte found in provided data"
  | shortWrite => "failed to write whole buffer"
  | other text => text

/-- How a program that was started came to its end. -/
inductive Status where
  | exited (code : UInt8)
  | killed (signal : Nat)
deriving DecidableEq, Repr

/-- The names of the signals numbered from one. -/
def signalNames : List String :=
  ["SIGHUP", "SIGINT", "SIGQUIT", "SIGILL", "SIGTRAP", "SIGABRT", "SIGBUS", "SIGFPE", "SIGKILL",
   "SIGUSR1", "SIGSEGV", "SIGUSR2", "SIGPIPE", "SIGALRM", "SIGTERM", "SIGSTKFLT", "SIGCHLD",
   "SIGCONT", "SIGSTOP", "SIGTSTP", "SIGTTIN", "SIGTTOU", "SIGURG", "SIGXCPU", "SIGXFSZ",
   "SIGVTALRM", "SIGPROF", "SIGWINCH", "SIGIO", "SIGPWR", "SIGSYS"]

namespace Status

/-- The signals that a program outlives unless it has asked otherwise: the empty
one, and those that only bring news or wake it. -/
def harmlessSignals : List Nat := [0, 17, 18, 23, 28]

/-- How a program ends that may send itself a signal and then exits with `code`. -/
def after (signal : Option Nat) (code : UInt8) : Status :=
  match signal with
  | none => exited code
  | some signal => if signal ∈ harmlessSignals then exited code else killed signal

/-- Only an exit with code zero counts as success. -/
def isSuccess : Status → Bool
  | exited code => code == 0
  | killed _ => false

/-- What is said about the end; a signal without a name goes by its number. -/
def text : Status → String
  | exited code => s!"exit status: {code.toNat}"
  | killed signal =>
    match (none :: signalNames.map some)[signal]? with
    | some (some name) => s!"signal: {signal} ({name})"
    | _ => s!"signal: {signal}"

end Status
end ArithAsm
