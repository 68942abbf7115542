import WasmTrim.Build.Platform
import WasmTrim.Build.Report
import WasmTrim.EntryPoints.Shims
import WasmTrim.Instrument
import WasmTrim.Module.File
import WasmTrim.Options
import WasmTrim.Session.Tracing
import WasmTrim.Strip.Removal

/-!
# Builds

A build makes a small module from a runtime and the sources of a contract. The runtime is turned
into text, the sources are compiled by it, and a module that reports what runs is made and run with
every entry point. What did not run is removed; the rest is made smaller, compressed, tried once
more, and copied to its place.

The stages run strictly in order, and each one's files stay in the build directory, so a build that
fails leaves what it had done until then. The place of the finished module is written last.

## Implementation notes

`Platform.build` works on any platform. A stage is a step on the files and the platform that may
fail. What it has done to them by then stays, as does what its sessions have noted.
-/

namespace WasmTrim

namespace BuildFile

/-- The text of the runtime. -/
def disassembled : String := "python.wat"

/-- The text of the module that reports what runs. -/
def instrumentedText : String := "python-instrumented.wat"

/-- The module that reports what runs. -/
def instrumented : String := "python-instrumented.wasm"

/-- The text of the module without what did not run. -/
def strippedText : String := "python-modified.wat"

/-- The module without what did not run, made smaller. -/
def optimized : String := "python-optimized.wasm"

/-- The text of that module. -/
def optimizedText : String := "python-optimized.wat"

/-- The text of the module with compressed data. -/
def compressedText : String := "python-compressed.wat"

/-- The module with compressed data. -/
def compressed : String := "python-compressed.wasm"

end BuildFile

/-- What a build works on. -/
structure BuildState (σ : Type) where
  /-- The files. -/
  files : FileTree
  /-- The state of the tools, the disk and the engine. -/
  tools : σ
  /-- The lines that sessions have noted, in their order. -/
  notes : List Note := []

/-- Steps of a build. -/
abbrev Building (σ : Type) := ExceptT StageError (StateM (BuildState σ))

/-- Finds the entry points in a source. -/
abbrev Scanner := String → EntryPoints

namespace Building

variable {σ : Type} (platform : Platform σ)

/-- Fails with a cause, or goes on with a value. -/
def ofExcept (cause : ε → StageError) : Except ε α → Building σ α
  | .ok a => return a
  | .error e => throw (cause e)

/-- Does something to the files, for which the platform may fail. -/
def change (cause : ε → StageError) (run : σ → FileTree → Except ε Unit × σ × FileTree) :
    Building σ Unit := fun s =>
  let (outcome, tools, files) := run s.tools s.files
  (outcome.mapError cause, { s with tools, files })

/-- What can be read now. -/
def look : Building σ FileView := fun s =>
  let (view, tools) := platform.disk.view s.tools s.files
  (.ok view, { s with tools })

/-- Reads from the file at a path. -/
def read (path : String) (get : FileView → String → Except FileError α) : Building σ α := do
  ofExcept (.file path) (get (← look platform) path)

/-- Makes a directory and the ones that lead to it. -/
def makeDirectories (path : String) : Building σ Unit :=
  change (.file path) (platform.disk.makeDirectories path)

/-- Writes a file; `blamed` is named if that fails. -/
def write (path blamed : String) (bytes : ByteArray) : Building σ Unit :=
  change (.file blamed) (platform.disk.write path bytes)

/-- Runs a tool. -/
def useTool (run : ToolRun σ) : Building σ Unit :=
  change .tool run

/-- Keeps lines that were noted. -/
def note (notes : List Note) : Building σ Unit :=
  modify fun s => { s with notes := s.notes ++ notes }

/-- Reads a module. -/
def readModule (path : String) : Building σ Sexpr := do
  ofExcept .parse ((← look platform).readModule path)

/-- Writes a module. -/
def writeModule (path : String) (module : Sexpr) : Building σ Unit :=
  write platform path path module.fileBytes

/-- What comes of starting a session of a binary module now. -/
def launch (bytes : ByteArray) : Building σ (Except SessionError Session × History) := fun s =>
  let (made, tools) := platform.engine bytes s.tools
  (.ok made, { s with tools })

/-- Starts a session of a binary module. -/
def start (bytes : ByteArray) : Building σ Session := do
  let (outcome, history) ← launch platform bytes
  note history.notes
  ofExcept .session outcome

/-- Does something in a session. -/
def inSession (cause : ε → StageError) (session : Session)
    (act : Session → Except ε α × Session) : Building σ (α × Session) := do
  let (outcome, next) := act session
  note (next.notesSince session)
  return (← ofExcept cause outcome, next)

/-- Adds the compiled modules to a store. -/
def collect (options : Options) (filter : Option (List String)) (store : FrozenStore) :
    Building σ FrozenStore := do
  let view ← look platform
  match store.collectFrom platform.entries? view filter options.stdlibZip options.userLibDir with
  | (store, none) => return store
  | (_, some e) => throw (.pack e)

/-- Turns the input into text; answers the module and the bytes of the input. -/
def disassemble (options : Options) : Building σ (Sexpr × ByteArray) := do
  makeDirectories platform options.buildDir
  let text := options.buildPath BuildFile.disassembled
  useTool (platform.tools.disassemble options.input text)
  let module ← readModule platform text
  return (module, ← read platform options.input FileView.read)

/-- The entry points that the options name. -/
def namedEntryPoints (options : Options) : Building σ EntryPoints := do
  let named := EntryPoints.ofNames options.contractExports
  match options.entryPointsFile with
  | none => return named
  | some path =>
    let text ← read platform path FileView.readText
    match EntryPoints.parseWith? platform.readObject? text with
    | some listed => return named.extend listed
    | none => throw (.entryPoints path)

/-- The contract's sources, as paths in the library. -/
def sources (library : String) : Building σ (List String) := do
  let found := (← look platform).filesBelow library "py"
  match found.failure with
  | none => return found.paths
  | some cause => throw (.walk library cause)

/-- Compiles one source beside itself; answers the session for the next one. -/
def compileSource (path : String) (source : String) (store : FrozenStore) (session : Session) :
    Building σ Session := do
  let file := ((Path.names path).getLast?).getD path
  let (code, session) ← inSession .compile session fun s => s.compile store source file
  let target := Path.withExtension path "pyc"
  write platform target target code
  let ((), session) ← inSession .session session Session.reset
  return session

/-- Compiles sources, given by their paths in the library, and adds the entry points that are found
in them. -/
def compileSources (library : String) (scanner : Option Scanner) (store : FrozenStore)
    (entries : EntryPoints) (session : Session) : List String → Building σ EntryPoints
  | [] => return entries
  | relative :: rest => do
    let path := Path.join library relative
    let source ← read platform path FileView.readText
    let entries := match scanner with
      | some scan => entries.extend ((scan source).qualified (EntryPoint.moduleName relative))
      | none => entries
    let session ← compileSource platform path source store session
    compileSources library scanner store entries session rest

/-- Compiles the contract's sources and answers its entry points: those that are named, or those
that are found in the sources where none is. -/
def compileContracts (options : Options) (scanner : Option Scanner) (runtime : ByteArray) :
    Building σ EntryPoints := do
  let named ← namedEntryPoints platform options
  let relatives ← sources platform options.userLibDir
  if relatives.isEmpty then return named
  let store ← collect platform options none .empty
  let session ← start platform runtime
  let scanner := if named.isEmpty then scanner else none
  compileSources platform options.userLibDir scanner store named session relatives

/-- Makes the module that reports what runs. -/
def instrument (options : Options) (module : Sexpr) (entries : EntryPoints) : Building σ Unit := do
  let store ← collect platform options none .empty
  let (shimmed, store) := module.addShims entries store
  let module ← ofExcept .pack (store.embedIn shimmed.instrument)
  let text := options.buildPath BuildFile.instrumentedText
  writeModule platform text module
  useTool (platform.tools.assemble text (options.buildPath BuildFile.instrumented) true)

/-- Runs a module with every entry point. -/
def trace (path : String) (entries : EntryPoints) : Building σ TraceLog := do
  let session ← start platform (← read platform path FileView.read)
  let (log, _) ← inSession .session session fun s => s.trace entries
  return log

/-- Writes the lists of functions that were removed and kept. -/
def writeManifests (options : Options) (stripped : Stripped) : Building σ Unit := do
  let writeNames := fun name names =>
    write platform (options.buildPath name) options.buildDir (manifest names).toUTF8
  writeNames removedManifest stripped.removed
  writeNames retainedManifest stripped.retained

/-- Removes what did not run; answers what was removed and the paths of the packed modules. -/
def strip (options : Options) (module : Sexpr) (entries : EntryPoints) (log : TraceLog) :
    Building σ (Stripped × List String) := do
  let policy : StripPolicy :=
    { mode := options.functionOpt
      called := log.called
      extraPinned := options.pinnedFunctions
      loadedBuiltins := log.builtinModules }
  let (stripped, store) := module.strip policy .empty
  writeManifests platform options stripped
  let filter := if options.moduleOpt then some log.frozenModules else none
  let store ← collect platform options filter store
  let (shimmed, store) := stripped.module.addShims entries store
  let module ← ofExcept .pack (store.embedIn shimmed)
  writeModule platform (options.buildPath BuildFile.strippedText) module
  return (stripped, store.modules.toList.map (·.path))

/-- Makes the module smaller and turns it into text. -/
def reoptimize (options : Options) : Building σ Sexpr := do
  let binary := options.buildPath BuildFile.optimized
  let text := options.buildPath BuildFile.optimizedText
  let stripped := options.buildPath BuildFile.strippedText
  useTool (platform.tools.optimize stripped binary options.debugInfo)
  useTool (platform.tools.disassemble binary text)
  readModule platform text

/-- Compresses the data of a module. -/
def compress (options : Options) (module : Sexpr) : Building σ Compression.Report := do
  let (module, report) ← ofExcept .compress (module.compressDataWith platform.encode)
  let text := options.buildPath BuildFile.compressedText
  writeModule platform text module
  useTool (platform.tools.assemble text (options.buildPath BuildFile.compressed) options.debugInfo)
  return report

/-- Copies the finished module to its place. -/
def publish (options : Options) (finished : String) : Building σ Unit :=
  change (.file options.output) (platform.disk.copy finished options.output)

/-- Steps that may fail at a stage. -/
def atStage (stage : Stage) (steps : Building σ α) :
    ExceptT BuildError (StateM (BuildState σ)) α := fun s =>
  let (outcome, s) := steps s
  (outcome.mapError fun cause => ⟨stage, cause⟩, s)

end Building

open Building in
/-- Makes a small module. -/
def Platform.build {σ : Type} (platform : Platform σ) (options : Options)
    (scanner : Option Scanner) : ExceptT BuildError (StateM (BuildState σ)) BuildReport := do
  let (module, runtime) ← atStage .disassemble (disassemble platform options)
  let entries ← atStage .instrument (compileContracts platform options scanner runtime)
  atStage .instrument (instrument platform options module entries)
  let log ← atStage .trace (trace platform (options.buildPath BuildFile.instrumented) entries)
  let (stripped, packed) ← atStage .strip (strip platform options module entries log)
  let smaller ← atStage .reoptimize (reoptimize platform options)
  let compression ←
    if options.compression then some <$> atStage .compress (compress platform options smaller)
    else pure none
  let finished := options.buildPath
    (if options.compression then BuildFile.compressed else BuildFile.optimized)
  if options.verify then
    let _ ← atStage .verify (trace platform finished entries)
  atStage .publish (publish platform options finished)
  return {
    entryPoints := entries
    trace := log
    removed := stripped.removed
    retained := stripped.retained
    packed
    compression
    output := options.output }

/-- Makes a small module with some tools. -/
def build {σ : Type} (options : Options) (tools : Toolchain σ) (scanner : Option Scanner) :
    ExceptT BuildError (StateM (BuildState σ)) BuildReport :=
  (Platform.ofTools tools).build options scanner

end WasmTrim
