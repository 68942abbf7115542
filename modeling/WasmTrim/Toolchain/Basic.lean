import WasmTrim.FileTree.View

/-!
# Toolchains

What turns modules from binary into text and back, and makes them smaller. A tool reads a file and
writes another one; it may fail, and it may have a state of its own.
-/

namespace WasmTrim

/-- How a program ended. -/
inductive ExitStatus where
  /-- It ended by itself, with a code. -/
  | code (code : Nat)
  /-- A signal ended it. -/
  | signal (number : Nat)
  deriving Repr, DecidableEq, Inhabited

namespace ExitStatus

/-- The names of signals, from the first on. -/
def signalNames : List String :=
  ["HUP", "INT", "QUIT", "ILL", "TRAP", "ABRT", "BUS", "FPE", "KILL", "USR1", "SEGV", "USR2",
    "PIPE", "ALRM", "TERM", "STKFLT", "CHLD", "CONT", "STOP", "TSTP", "TTIN", "TTOU", "URG", "XCPU",
    "XFSZ", "VTALRM", "PROF", "WINCH", "IO", "PWR", "SYS"]

/-- How a program ended, in words. -/
def describe : ExitStatus → String
  | .code n => s!"exit status: {n}"
  | .signal n =>
    match if n = 0 then none else signalNames[n - 1]? with
    | some name => s!"signal: {n} (SIG{name})"
    | none => s!"signal: {n}"

end ExitStatus

/-- Why a tool fails. -/
inductive ToolError where
  /-- The program is not where it should be. -/
  | notFound (tool path : String)
  /-- The program cannot be started. -/
  | launch (tool : String) (cause : FileError)
  /-- The program ended without success. -/
  | failed (tool : String) (status : ExitStatus)
  /-- Something else. -/
  | other (reason : String)
  deriving Repr, DecidableEq, Inhabited

/-- The report of a failure. -/
def ToolError.message : ToolError → String
  | .notFound tool path => s!"{tool} not found at {path}"
  | .launch tool cause => s!"failed to launch {tool}: {cause.message}"
  | .failed tool status => s!"{tool} failed with {status.describe}"
  | .other reason => reason

/-- What a run of a tool does to its own state and to the files. -/
abbrev ToolRun (σ : Type) := σ → FileTree → Except ToolError Unit × σ × FileTree

/-- Tools whose state is a `σ`. Each reads the first of two paths and writes the second. -/
structure Toolchain (σ : Type) where
  /-- Writes the text of a binary module. -/
  disassemble (input output : String) : ToolRun σ
  /-- Writes the binary of a text, with the names of functions or without. -/
  assemble (input output : String) (names : Bool) : ToolRun σ
  /-- Writes a small binary of a text, with the names of functions or without. -/
  optimize (input output : String) (names : Bool) : ToolRun σ

end WasmTrim
