import WasmTrim.FileTree.View
import WasmTrim.Json.Parse
import WasmTrim.Strip.Policy

/-!
# Options of a build

What a build is told, with defaults for everything, and its form in JSON: an object with any of the
options as members, or an array with the first few of them in their order. Members that are no
option are ignored, and an option may not be given twice.
-/

namespace WasmTrim

/-- The settings of one build. -/
structure Options where
  /-- The directory that receives every intermediate file. -/
  buildDir : String := "build"
  /-- The module to start from. -/
  input : String := "python.wasm"
  /-- Where the finished module goes. -/
  output : String := "python-optimized.wasm"
  /-- Pack only those frozen modules that were seen loading. -/
  moduleOpt : Bool := true
  /-- Which functions go. -/
  functionOpt : RemovalMode := .aggressive
  /-- Compress the data segments. -/
  compression : Bool := true
  /-- Keep the names of functions. -/
  debugInfo : Bool := true
  /-- Functions that are kept besides the ones that always are. -/
  pinnedFunctions : List String := []
  /-- The directory of the contract's sources and their compiled modules. -/
  userLibDir : String := "lib"
  /-- The archive of the standard library's compiled modules. -/
  stdlibZip : Option String := none
  /-- Entry points, instead of those that scanning finds. -/
  contractExports : List String := []
  /-- A file of entry points with sample payloads, instead of those that scanning finds. -/
  entryPointsFile : Option String := none
  /-- Run every entry point against the finished module. -/
  verify : Bool := true
  /-- The directory of the tools, when they are not found by name. -/
  toolsDir : Option String := none
  deriving Repr, DecidableEq, Inhabited

/-- Why options cannot be read. -/
inductive ConfigError where
  /-- The file could not be read. -/
  | unreadable (path : String) (reason : String)
  /-- The text is no JSON form of options. -/
  | invalid (origin : String)
  deriving Repr, DecidableEq, Inhabited

namespace ConfigError

/-- The report of a failure. -/
def message : ConfigError → String
  | .unreadable path reason => s!"failed to read {path}: {reason}"
  | .invalid origin => s!"invalid configuration in {origin}"

end ConfigError

namespace Options

/-- The options by name. -/
inductive Field where
  | buildDir | input | output | moduleOpt | functionOpt | compression | debugInfo
  | pinnedFunctions | userLibDir | stdlibZip | contractExports | entryPointsFile | verify
  | toolsDir
  deriving Repr, DecidableEq

namespace Field

/-- The options in the order of their array form. -/
def all : List Field :=
  [buildDir, input, output, moduleOpt, functionOpt, compression, debugInfo, pinnedFunctions,
    userLibDir, stdlibZip, contractExports, entryPointsFile, verify, toolsDir]

/-- The key of an option. -/
def key : Field → String
  | buildDir => "build_dir"
  | input => "input"
  | output => "output"
  | moduleOpt => "module_opt"
  | functionOpt => "function_opt"
  | compression => "compression"
  | debugInfo => "debug_info"
  | pinnedFunctions => "pinned_functions"
  | userLibDir => "user_lib_dir"
  | stdlibZip => "stdlib_zip"
  | contractExports => "contract_exports"
  | entryPointsFile => "entry_points_file"
  | verify => "verify"
  | toolsDir => "tools_dir"

/-- The option that a key names. -/
def ofKey? (key : String) : Option Field :=
  all.find? (·.key == key)

/-- The mode that a JSON value denotes: its word, or an object that gives this word null. -/
def mode? : Json → Option RemovalMode
  | .string text => text.bind RemovalMode.ofName?
  | .object [(key, .null)] => key.bind RemovalMode.ofName?
  | _ => none

/-- A path that may be null. -/
def path? : Json → Option (Option String)
  | .null => some none
  | value => value.text?.map some

/-- Sets an option to what a JSON value denotes. -/
def set? (field : Field) (o : Options) (value : Json) : Option Options :=
  match field with
  | buildDir => value.text?.map fun v => { o with buildDir := v }
  | input => value.text?.map fun v => { o with input := v }
  | output => value.text?.map fun v => { o with output := v }
  | moduleOpt => value.bool?.map fun v => { o with moduleOpt := v }
  | functionOpt => (mode? value).map fun v => { o with functionOpt := v }
  | compression => value.bool?.map fun v => { o with compression := v }
  | debugInfo => value.bool?.map fun v => { o with debugInfo := v }
  | pinnedFunctions => value.texts?.map fun v => { o with pinnedFunctions := v }
  | userLibDir => value.text?.map fun v => { o with userLibDir := v }
  | stdlibZip => (path? value).map fun v => { o with stdlibZip := v }
  | contractExports => value.texts?.map fun v => { o with contractExports := v }
  | entryPointsFile => (path? value).map fun v => { o with entryPointsFile := v }
  | verify => value.bool?.map fun v => { o with verify := v }
  | toolsDir => (path? value).map fun v => { o with toolsDir := v }

/-- A path or null. -/
def ofPath? : Option String → Json
  | some path => .ofString path
  | none => .null

/-- The JSON value of an option. -/
def get (field : Field) (o : Options) : Json :=
  match field with
  | buildDir => .ofString o.buildDir
  | input => .ofString o.input
  | output => .ofString o.output
  | moduleOpt => .bool o.moduleOpt
  | functionOpt => .ofString o.functionOpt.name
  | compression => .bool o.compression
  | debugInfo => .bool o.debugInfo
  | pinnedFunctions => .array (o.pinnedFunctions.map .ofString)
  | userLibDir => .ofString o.userLibDir
  | stdlibZip => ofPath? o.stdlibZip
  | contractExports => .array (o.contractExports.map .ofString)
  | entryPointsFile => ofPath? o.entryPointsFile
  | verify => .bool o.verify
  | toolsDir => ofPath? o.toolsDir

end Field

/-- Sets the options that members name, none of them twice. -/
def ofMembers? (seen : List Field) (o : Options) :
    List (Option String × Json) → Option Options
  | [] => some o
  | (none, _) :: _ => none
  | (some key, value) :: rest =>
    match Field.ofKey? key with
    | none => ofMembers? seen o rest
    | some field =>
      if seen.contains field then none
      else (field.set? o value).bind fun o => ofMembers? (field :: seen) o rest

/-- Sets the given options to items, in order. -/
def ofItems? (o : Options) : List Field → List Json → Option Options
  | _, [] => some o
  | [], _ :: _ => none
  | field :: fields, item :: items =>
    (field.set? o item).bind fun o => ofItems? o fields items

/-- The options that a JSON value denotes. -/
def ofJson? : Json → Option Options
  | .object members => ofMembers? [] {} members
  | .array items => ofItems? {} Field.all items
  | _ => none

/-- The options that a JSON text denotes; `origin` says where the text is from. -/
def parse (text origin : String) : Except ConfigError Options :=
  match (Json.parse? text).bind ofJson? with
  | some o => .ok o
  | none => .error (.invalid origin)

/-- The options in a file. -/
def load (tree : FileTree) (path : String) : Except ConfigError Options :=
  match tree.readText path with
  | .error e => .error (.unreadable path e.message)
  | .ok text => parse text path

/-- The JSON object of all options. -/
def toJson (o : Options) : Json :=
  .ofMembers (Field.all.map fun field => (field.key, field.get o))

/-- The path of a file in the directory for intermediate files. -/
def buildPath (o : Options) (file : String) : String :=
  Path.join o.buildDir file

end Options

end WasmTrim
