import WasmTrim.Compression.Data
import WasmTrim.EntryPoints.Basic
import WasmTrim.Host.State
import WasmTrim.Session.SourceCompilation
import WasmTrim.Sexpr.Parse
import WasmTrim.Toolchain.Basic

/-!
# Reports of builds

The stages of a build, how each of them can fail, and what a build that went through has done.
-/

namespace WasmTrim

/-- The stages of a build, in their order. -/
inductive Stage where
  /-- The input is turned into text. -/
  | disassemble
  /-- The contract's sources are compiled, and a module that reports what runs is made. -/
  | instrument
  /-- That module is run. -/
  | trace
  /-- Functions that did not run are removed. -/
  | strip
  /-- The rest is made smaller. -/
  | reoptimize
  /-- The data is compressed. -/
  | compress
  /-- The finished module is run. -/
  | verify
  /-- The finished module is copied to its place. -/
  | publish
  deriving Repr, DecidableEq, Inhabited

/-- The name of a stage. -/
def Stage.name : Stage → String
  | .disassemble => "disassemble"
  | .instrument => "instrument"
  | .trace => "trace"
  | .strip => "strip"
  | .reoptimize => "reoptimize"
  | .compress => "compress"
  | .verify => "verify"
  | .publish => "publish"

/-- Why a stage fails. -/
inductive StageError where
  /-- A text is no module. -/
  | parse (cause : ParseError)
  /-- A file cannot be read or written. -/
  | file (path : String) (cause : FileError)
  /-- A directory cannot be searched for sources. -/
  | walk (path : String) (cause : FileTree.WalkError)
  /-- A file of entry points is not what it should be. -/
  | entryPoints (path : String)
  /-- A tool failed. -/
  | tool (cause : ToolError)
  /-- A session failed. -/
  | session (cause : SessionError)
  /-- The frozen image cannot be made. -/
  | pack (cause : PackError)
  /-- A source cannot be compiled. -/
  | compile (cause : CompileError)
  /-- The data cannot be compressed. -/
  | compress (cause : CompressError)
  deriving Repr, DecidableEq, Inhabited

/-- The report of a stage's failure. -/
def StageError.message : StageError → String
  | .parse cause => cause.message
  | .file path cause => s!"{path}: {cause.message}"
  | .walk path cause => s!"{path}: {cause.message}"
  | .entryPoints path => path
  | .tool cause => cause.message
  | .session cause => cause.message
  | .pack cause => cause.message
  | .compile cause => cause.message
  | .compress cause => cause.message

/-- The stage that failed, and why. -/
structure BuildError where
  /-- The stage. -/
  stage : Stage
  /-- The cause. -/
  cause : StageError
  deriving Repr, DecidableEq, Inhabited

/-- The report of a build's failure. -/
def BuildError.message (e : BuildError) : String :=
  s!"{e.stage.name} stage failed: {e.cause.message}"

/-- What a build has done. -/
structure BuildReport where
  /-- The entry points that were traced. -/
  entryPoints : EntryPoints
  /-- What was seen running. -/
  trace : TraceLog
  /-- The functions that were removed. -/
  removed : List String
  /-- The functions that were kept. -/
  retained : List String
  /-- The frozen modules that were packed. -/
  packed : List String
  /-- How far the data was compressed, if it was. -/
  compression : Option Compression.Report
  /-- Where the finished module is. -/
  output : String
  deriving DecidableEq, Inhabited

end WasmTrim
