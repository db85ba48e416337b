import BootMedia.Process.Termination

namespace BootMedia.Signal

def last : Nat := 64

def firstFree : Nat := 34

def fixedNames : List String :=
  ["EXIT", "HUP", "INT", "QUIT", "ILL", "TRAP", "ABRT", "BUS", "FPE", "KILL", "USR1", "SEGV",
   "USR2", "PIPE", "ALRM", "TERM", "16", "CHLD", "CONT", "STOP", "TSTP", "TTIN", "TTOU", "URG",
   "XCPU", "XFSZ", "VTALRM", "PROF", "WINCH", "IO", "PWR", "SYS", "32", "33"]

def name (n : Nat) : String :=
  match fixedNames[n]? with
  | some name => name
  | none =>
    if n = firstFree then "RTMIN"
    else if n = last then "RTMAX"
    else if n < 50 then "RTMIN+" ++ toString (n - firstFree)
    else "RTMAX-" ++ toString (last - n)

def meanings : List String :=
  ["Unknown signal 0", "Hangup", "Interrupt", "Quit", "Illegal instruction",
   "Trace/breakpoint trap", "Aborted", "Bus error", "Floating point exception", "Killed",
   "User defined signal 1", "Segmentation fault", "User defined signal 2", "Broken pipe",
   "Alarm clock", "Terminated", "Stack fault", "Child exited", "Continued", "Stopped (signal)",
   "Stopped", "Stopped (tty input)", "Stopped (tty output)", "Urgent I/O condition",
   "CPU time limit exceeded", "File size limit exceeded", "Virtual timer expired",
   "Profiling timer expired", "Window changed", "I/O possible", "Power failure",
   "Bad system call"]

def meaning (n : Nat) : String :=
  match meanings[n]? with
  | some text => text
  | none =>
    if n < firstFree then "Unknown signal " ++ toString n
    else "Real-time signal " ++ toString (n - firstFree)

/-- Signals that do not end a process that has made no arrangements: those that are ignored or stop
a process, and no signal at all. -/
def harmless : List Nat := [0, 17, 18, 19, 20, 21, 22, 23, 28]

def inevitable : List Nat := [9, 19]

def interrupt : Nat := 2

def brokenPipe : Nat := 13

def termination : Nat := 15

def ofText? (text : String) : Option Nat :=
  match if text.toList.all Char.isDigit then text.toNat? else none with
  | some n => if n ≤ last then some n else none
  | none => (List.range (last + 1)).find? fun n ↦ name n == text.toUpper

end BootMedia.Signal
