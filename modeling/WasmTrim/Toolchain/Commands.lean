import WasmTrim.Toolchain.Basic

/-!
# Tools as programs

The tools `wasm-dis`, `wasm-as` and `wasm-opt`: with which arguments each is run, where its program
is found, and how it can fail. A program is taken from one directory if that is given, and is looked
for by its name otherwise.
-/

namespace WasmTrim

/-- How programs are found and run. -/
structure Programs (σ : Type) where
  /-- The directories that a program is looked for in by its name. -/
  searchPath : List String := []
  /-- What a program does: its file's bytes, its name, and its arguments are given. -/
  execute (bytes : ByteArray) (name : String) (arguments : List String) :
    σ → FileTree → ExitStatus × σ × FileTree

namespace Programs

/-- The bytes of the program that a path leads to. -/
def load (tree : FileTree) (path : String) : Except FileError ByteArray :=
  match tree.lookUp path .reach with
  | .error e => .error e
  | .ok (.missing ..) => .error .notFound
  | .ok (.found _ (.file bytes true)) => .ok bytes
  | .ok (.found ..) => .error .permissionDenied

/-- The bytes of the first program of a name in some directories. That one of them may not be run is
reported if there is no other; else the latest failure is. -/
def search (tree : FileTree) (name : String) (denied : Bool) (latest : FileError) :
    List String → Except FileError ByteArray
  | [] => .error (if denied then .permissionDenied else latest)
  | directory :: rest =>
    match load tree (Path.join directory name) with
    | .ok bytes => .ok bytes
    | .error .permissionDenied => search tree name true latest rest
    | .error .notFound => search tree name denied .notFound rest
    | .error .notADirectory => search tree name denied .notADirectory rest
    | .error e => .error e

/-- The bytes of a program, by a path or by its name alone. -/
def find (searchPath : List String) (tree : FileTree) (program : String) :
    Except FileError ByteArray :=
  if program.toList.contains '/' then load tree program
  else search tree program false .notFound searchPath

end Programs

namespace Toolchain

/-- The features that every module may use. -/
def featureFlags : List String :=
  ["--enable-nontrapping-float-to-int", "--enable-sign-ext"]

/-- The argument that keeps the names of functions. -/
def namesFlag (names : Bool) : List String :=
  if names then ["-g"] else []

/-- The arguments for disassembling. -/
def disassembleArguments (input output : String) : List String :=
  [input, "-o", output]

/-- The arguments for assembling. -/
def assembleArguments (input output : String) (names : Bool) : List String :=
  namesFlag names ++ [input, "-o", output] ++ featureFlags

/-- The arguments for making a module smaller. -/
def optimizeArguments (input output : String) (names : Bool) : List String :=
  ["-Oz", input, "-o", output] ++ featureFlags ++ namesFlag names

/-- Where a tool's program is. -/
def program (directory : Option String) (tree : FileTree) (tool : String) :
    Except ToolError String :=
  match directory with
  | none => .ok tool
  | some directory =>
    let path := Path.join directory tool
    if tree.isFile path then .ok path else .error (.notFound tool path)

/-- Runs a tool. -/
def runTool (programs : Programs σ) (directory : Option String) (tool : String)
    (arguments : List String) : ToolRun σ := fun state tree =>
  match program directory tree tool with
  | .error e => (.error e, state, tree)
  | .ok path =>
    match Programs.find programs.searchPath tree path with
    | .error cause => (.error (.launch tool cause), state, tree)
    | .ok bytes =>
      let (status, state, tree) := programs.execute bytes tool arguments state tree
      (if status = .code 0 then .ok () else .error (.failed tool status), state, tree)

/-- The tools as programs. -/
def ofPrograms (programs : Programs σ) (directory : Option String) : Toolchain σ where
  disassemble input output :=
    runTool programs directory "wasm-dis" (disassembleArguments input output)
  assemble input output names :=
    runTool programs directory "wasm-as" (assembleArguments input output names)
  optimize input output names :=
    runTool programs directory "wasm-opt" (optimizeArguments input output names)

end Toolchain

end WasmTrim
