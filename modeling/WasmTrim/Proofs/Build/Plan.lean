import Mathlib.Data.Nat.Basic
import Mathlib.Order.Basic
import WasmTrim.Build.Basic
import WasmTrim.Proofs.Build.Platform
import WasmTrim.Proofs.Plan

/-!
# What a build is going to do

`Options.plan` has the steps of a build in their order, each with the stage that is named if it
fails and with all that it works on: a session is started of the bytes that were read before, what
is packed are the modules that were collected, and so on. `BuildAction.run` tells what each step
comes to, and `BuildAction.writes` to which paths it writes.

`Options.artifacts` are the paths that a build writes to before it publishes.
-/

namespace WasmTrim

open Plan (act)

variable {σ : Type}

instance : Preorder Stage := Preorder.lift Stage.ctorIdx

instance : DecidableLE Stage := fun a b =>
  inferInstanceAs (Decidable (a.ctorIdx ≤ b.ctorIdx))

/-! ### Steps -/

/-- What a step of a build does. The index says what it answers. -/
inductive BuildAction : Type → Type where
  /-- Makes a directory and the ones that lead to it. -/
  | makeDirectories (path : String) : BuildAction Unit
  /-- Runs a tool. -/
  | use (tool : Tool) (input output : String) : BuildAction Unit
  /-- Reads a file. -/
  | read (path : String) : BuildAction ByteArray
  /-- Reads a text file. -/
  | readText (path : String) : BuildAction String
  /-- Reads a module. -/
  | readModule (path : String) : BuildAction Sexpr
  /-- Finds entry points in the text of a file. -/
  | parseEntryPoints (path text : String) : BuildAction EntryPoints
  /-- Looks for the contract's sources. -/
  | listSources (directory : String) : BuildAction (List String)
  /-- Adds the compiled modules of an archive and of a directory to a store. -/
  | collect (filter : Option (List String)) (archive : Option String) (directory : String)
    (store : FrozenStore) : BuildAction FrozenStore
  /-- Puts the image of a store into a module. -/
  | embed (store : FrozenStore) (module : Sexpr) : BuildAction Sexpr
  /-- Starts a session. -/
  | start (bytes : ByteArray) : BuildAction Session
  /-- Compiles a source in a session. -/
  | compile (store : FrozenStore) (source file : String) (session : Session) :
    BuildAction (ByteArray × Session)
  /-- Resets a session. -/
  | reset (session : Session) : BuildAction (Unit × Session)
  /-- Calls entry points in a session. -/
  | trace (entries : EntryPoints) (session : Session) : BuildAction (TraceLog × Session)
  /-- Compresses the data of a module. -/
  | compressData (module : Sexpr) : BuildAction (Sexpr × Compression.Report)
  /-- Writes a file; `blamed` is named if that fails. -/
  | write (path blamed : String) (bytes : ByteArray) : BuildAction Unit
  /-- Copies a file. -/
  | copy (source destination : String) : BuildAction Unit

namespace BuildState

variable {α ε : Type} (s : BuildState σ)

/-- What comes of a change of the files. -/
def changed (cause : ε → StageError) (run : σ → FileTree → Except ε Unit × σ × FileTree) :
    Except StageError Unit × BuildState σ :=
  ((run s.tools s.files).1.mapError cause,
    { s with tools := (run s.tools s.files).2.1, files := (run s.tools s.files).2.2 })

/-- What comes of looking at what can be read. -/
def seen (platform : Platform σ) (get : FileView → Except StageError α) :
    Except StageError α × BuildState σ :=
  (get (platform.disk.view s.tools s.files).1,
    { s with tools := (platform.disk.view s.tools s.files).2 })

/-- The state after lines were noted. -/
def noting (notes : List Note) : BuildState σ :=
  { s with notes := s.notes ++ notes }

/-- What comes of starting a session. -/
def started (platform : Platform σ) (bytes : ByteArray) :
    Except StageError Session × BuildState σ :=
  ((platform.engine bytes s.tools).1.1.mapError .session,
    noting { s with tools := (platform.engine bytes s.tools).2 }
      (platform.engine bytes s.tools).1.2.notes)

/-- What comes of what was done in a session. -/
def ranIn (cause : ε → StageError) (session : Session) (done : Except ε α × Session) :
    Except StageError (α × Session) × BuildState σ :=
  ((done.1.mapError cause).map fun a => (a, done.2), s.noting (done.2.notesSince session))

end BuildState

namespace BuildAction

/-- What a step comes to: what it answers or why it fails, and what the build works on
afterwards. -/
def run (platform : Platform σ) ⦃α : Type⦄ : BuildAction α → Building σ α
  | makeDirectories path => fun s => s.changed (.file path) (platform.disk.makeDirectories path)
  | use tool input output => fun s => s.changed .tool (tool.run platform.tools input output)
  | read path => fun s => s.seen platform fun view => (view.read path).mapError (.file path)
  | readText path => fun s => s.seen platform fun view => (view.readText path).mapError (.file path)
  | readModule path => fun s => s.seen platform fun view => (view.readModule path).mapError .parse
  | parseEntryPoints path text => fun s =>
    (match EntryPoints.parseWith? platform.readObject? text with
      | some entries => .ok entries
      | none => .error (.entryPoints path), s)
  | listSources directory => fun s => s.seen platform fun view =>
    match view.filesBelow directory "py" with
    | ⟨paths, none⟩ => .ok paths
    | ⟨_, some cause⟩ => .error (.walk directory cause)
  | collect filter archive directory store => fun s => s.seen platform fun view =>
    match store.collectFrom platform.entries? view filter archive directory with
    | (store, none) => .ok store
    | (_, some cause) => .error (.pack cause)
  | embed store module => fun s => ((store.embedIn module).mapError .pack, s)
  | start bytes => fun s => s.started platform bytes
  | compile store source file session => fun s =>
    s.ranIn .compile session (session.compile store source file)
  | reset session => fun s => s.ranIn .session session session.reset
  | trace entries session => fun s => s.ranIn .session session (session.trace entries)
  | compressData module => fun s =>
    ((module.compressDataWith platform.encode).mapError .compress, s)
  | write path blamed bytes => fun s => s.changed (.file blamed) (platform.disk.write path bytes)
  | copy source destination => fun s =>
    s.changed (.file destination) (platform.disk.copy source destination)

/-- The paths that a step writes to. -/
@[simp] def writes {α : Type} : BuildAction α → List String
  | makeDirectories path => FileTree.directoriesTo path
  | use _ _ output => [output]
  | write path _ _ => [path]
  | copy _ destination => [destination]
  | _ => []

end BuildAction

/-- A step of a build, and the stage that it belongs to. -/
structure BuildStep (α : Type) where
  /-- The stage. -/
  stage : Stage
  /-- What the step does. -/
  action : BuildAction α

/-- What a step comes to. If it fails, its stage is named. -/
def BuildStep.run (platform : Platform σ) ⦃α : Type⦄ (step : BuildStep α) :
    Stateful BuildError (BuildState σ) α := fun s =>
  ((step.action.run platform s).1.mapError fun cause => ⟨step.stage, cause⟩,
    (step.action.run platform s).2)

/-- Steps that belong to a stage. -/
def Plan.during {α : Type} (plan : Plan BuildAction α) (stage : Stage) : Plan BuildStep α :=
  plan.map fun _ action => ⟨stage, action⟩

/-! ### The plan of a build -/

namespace Options

variable (o : Options)

/-- The finished module. -/
def finished : String :=
  o.buildPath (if o.compression then BuildFile.compressed else BuildFile.optimized)

/-- A source of the library, given by its path there. -/
def source (relative : String) : String :=
  Path.join o.userLibDir relative

/-- Where a source is compiled to. -/
def compiled (relative : String) : String :=
  Path.withExtension (o.source relative) "pyc"

/-- What decides which functions are kept. -/
def policy (log : TraceLog) : StripPolicy where
  mode := o.functionOpt
  called := log.called
  extraPinned := o.pinnedFunctions
  loadedBuiltins := log.builtinModules

/-- The compiled modules of the archive and the library are added to a store. -/
def collecting (filter : Option (List String)) (store : FrozenStore) :
    Plan BuildAction FrozenStore :=
  act (.collect filter o.stdlibZip o.userLibDir store)

/-- A module is written as a text. -/
def writing (name : String) (module : Sexpr) : Plan BuildAction Unit :=
  act (.write (o.buildPath name) (o.buildPath name) module.fileBytes)

/-- The input is turned into text; the module and the bytes of the input are there then. -/
def disassembling : Plan BuildAction (Sexpr × ByteArray) := do
  act (.makeDirectories o.buildDir)
  act (.use .disassembler o.input (o.buildPath BuildFile.disassembled))
  let module ← act (.readModule (o.buildPath BuildFile.disassembled))
  let runtime ← act (.read o.input)
  return (module, runtime)

/-- Entry points are named by the options, and in a file if one is given. -/
def naming : Plan BuildAction EntryPoints :=
  match o.entryPointsFile with
  | none => return EntryPoints.ofNames o.contractExports
  | some path => do
    let text ← act (.readText path)
    let listed ← act (.parseEntryPoints path text)
    return (EntryPoints.ofNames o.contractExports).extend listed

/-- Sources are compiled beside themselves, one after another. If they are scanned, what is found in
them is added to the entry points. -/
def compilingAll (scanner : Option Scanner) (store : FrozenStore) (entries : EntryPoints)
    (session : Session) : List String → Plan BuildAction EntryPoints
  | [] => return entries
  | relative :: rest => do
    let path := o.source relative
    let source ← act (.readText path)
    let found := scanner.elim [] fun scan =>
      (scan source).qualified (EntryPoint.moduleName relative)
    let file := (Path.names path).getLast?.getD path
    let (code, compiler) ← act (.compile store source file session)
    act (.write (o.compiled relative) (o.compiled relative) code)
    let ((), next) ← act (.reset compiler)
    compilingAll scanner store (entries.extend found) next rest

/-- The sources are compiled, if there are any, and scanned, if no entry points are named. -/
def compiling (scanner : Option Scanner) (runtime : ByteArray) (named : EntryPoints)
    (sources : List String) : Plan BuildAction EntryPoints :=
  match sources with
  | [] => return named
  | sources => do
    let store ← o.collecting none .empty
    let session ← act (.start runtime)
    o.compilingAll (if named.isEmpty then scanner else none) store named session sources

/-- The module that reports what runs is made. -/
def instrumenting (module : Sexpr) (entries : EntryPoints) : Plan BuildAction Unit := do
  let store ← o.collecting none .empty
  let (shimmed, store) := module.addShims entries store
  let packed ← act (.embed store shimmed.instrument)
  o.writing BuildFile.instrumentedText packed
  act (.use (.assembler true) (o.buildPath BuildFile.instrumentedText)
    (o.buildPath BuildFile.instrumented))

/-- A module is run with the entry points. -/
def tracing (path : String) (entries : EntryPoints) : Plan BuildAction TraceLog := do
  let bytes ← act (.read path)
  let session ← act (.start bytes)
  let (log, _) ← act (.trace entries session)
  return log

/-- What was removed and what was kept is written down. -/
def listing (stripped : Stripped) : Plan BuildAction Unit := do
  act (.write (o.buildPath removedManifest) o.buildDir (manifest stripped.removed).toUTF8)
  act (.write (o.buildPath retainedManifest) o.buildDir (manifest stripped.retained).toUTF8)

/-- What is kept is packed; the store that was packed is there then. -/
def packing (module : Sexpr) (entries : EntryPoints) (log : TraceLog) (store : FrozenStore) :
    Plan BuildAction FrozenStore := do
  let store ← o.collecting (if o.moduleOpt then some log.frozenModules else none) store
  let (shimmed, store) := module.addShims entries store
  let packed ← act (.embed store shimmed)
  o.writing BuildFile.strippedText packed
  return store

/-- The rest is made smaller. -/
def reoptimizing : Plan BuildAction Sexpr := do
  act (.use (.optimizer o.debugInfo) (o.buildPath BuildFile.strippedText)
    (o.buildPath BuildFile.optimized))
  act (.use .disassembler (o.buildPath BuildFile.optimized) (o.buildPath BuildFile.optimizedText))
  act (.readModule (o.buildPath BuildFile.optimizedText))

/-- The data is compressed, if that is wanted. -/
def compressing (module : Sexpr) : Plan BuildAction (Option Compression.Report) :=
  if o.compression then do
    let (compressed, report) ← act (.compressData module)
    o.writing BuildFile.compressedText compressed
    act (.use (.assembler o.debugInfo) (o.buildPath BuildFile.compressedText)
      (o.buildPath BuildFile.compressed))
    return some report
  else return none

/-- The finished module is run, if that is wanted. -/
def verifying (entries : EntryPoints) : Plan BuildAction Unit :=
  if o.verify then do
    let _ ← tracing o.finished entries
    return ()
  else return ()

/-- The finished module is copied to its place. -/
def publishing : Plan BuildAction Unit :=
  act (.copy o.finished o.output)

/-- What is there before anything is compiled. -/
structure Start where
  /-- The runtime. -/
  module : Sexpr
  /-- Its binary. -/
  runtime : ByteArray
  /-- The entry points that are named. -/
  named : EntryPoints
  /-- The sources, as paths in the library. -/
  sources : List String

/-- What is done before anything is compiled. -/
def starting : Plan BuildStep Start := do
  let (module, runtime) ← o.disassembling.during .disassemble
  let named ← o.naming.during .instrument
  let sources ← (act (.listSources o.userLibDir)).during .instrument
  return { module, runtime, named, sources }

/-- What is done before the manifests are written; the entry points and what was seen running are
there then. -/
def observing (scanner : Option Scanner) (start : Start) :
    Plan BuildStep (EntryPoints × TraceLog) := do
  let entries ← (o.compiling scanner start.runtime start.named start.sources).during .instrument
  (o.instrumenting start.module entries).during .instrument
  let log ← (tracing (o.buildPath BuildFile.instrumented) entries).during .trace
  return (entries, log)

/-- What is done once the manifests are there. -/
def finishing (entries : EntryPoints) (log : TraceLog) (stripped : Stripped) (store : FrozenStore) :
    Plan BuildStep BuildReport := do
  let packed ← (o.packing stripped.module entries log store).during .strip
  let smaller ← o.reoptimizing.during .reoptimize
  let compression ← (o.compressing smaller).during .compress
  (o.verifying entries).during .verify
  o.publishing.during .publish
  return {
    entryPoints := entries
    trace := log
    removed := stripped.removed
    retained := stripped.retained
    packed := packed.modules.toList.map (·.path)
    compression
    output := o.output }

/-- What is done once the sources are known. -/
def making (scanner : Option Scanner) (start : Start) : Plan BuildStep BuildReport := do
  let (entries, log) ← o.observing scanner start
  let (stripped, store) := start.module.strip (o.policy log) .empty
  (o.listing stripped).during .strip
  o.finishing entries log stripped store

/-- The steps of a build in their order. -/
def plan (scanner : Option Scanner) : Plan BuildStep BuildReport := do
  o.making scanner (← o.starting)

/-- The sources that a build finds. -/
def sources (platform : Platform σ) (s : BuildState σ) : List String :=
  match o.starting.run (BuildStep.run platform) s with
  | (.ok start, _) => start.sources
  | (.error _, _) => []

/-- The files in the build directory that are written once the manifests are there. -/
def laterFiles : List String :=
  [BuildFile.strippedText, BuildFile.optimized, BuildFile.optimizedText].map o.buildPath ++
    if o.compression then
      [BuildFile.compressedText, BuildFile.compressed].map o.buildPath
    else []

/-- The manifests, and the files that are written once they are there. -/
def manifestsAndLaterFiles : List String :=
  o.buildPath removedManifest :: o.buildPath retainedManifest :: o.laterFiles

/-- The paths that a build with some sources writes to before it publishes: its directories, its
files in the build directory, and the compiled sources. -/
def artifacts (sources : List String) : List String :=
  FileTree.directoriesTo o.buildDir ++
    [BuildFile.disassembled, BuildFile.instrumentedText, BuildFile.instrumented].map o.buildPath ++
    sources.map o.compiled ++ o.manifestsAndLaterFiles

end Options

end WasmTrim
