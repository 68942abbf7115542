import WasmTrim.Build.Basic

/-!
# The command line

The arguments that set the options of a build, and what the program ends with. Options come from a
file, if one is given, and arguments override them: switches turn something off, and functions to
keep and entry points are added to those of the file.

An argument with a value is written `--name value` or `--name=value`. Only arguments that add
something may be repeated.
-/

namespace WasmTrim

namespace CommandLine

/-- The arguments that have a value. -/
inductive Setting where
  | config | input | output | buildDir | functionOpt | pin | userLibDir | stdlibZip | «export»
  | entryPoints | toolsDir
  deriving Repr, DecidableEq, Inhabited

namespace Setting

/-- The arguments that have a value. -/
def all : List Setting :=
  [config, input, output, buildDir, functionOpt, pin, userLibDir, stdlibZip, «export»,
    entryPoints, toolsDir]

/-- How an argument is written. -/
def name : Setting → String
  | config => "--config"
  | input => "--input"
  | output => "--output"
  | buildDir => "--build-dir"
  | functionOpt => "--function-opt"
  | pin => "--pin"
  | userLibDir => "--user-lib-dir"
  | stdlibZip => "--stdlib-zip"
  | «export» => "--export"
  | entryPoints => "--entry-points"
  | toolsDir => "--tools-dir"

/-- What an argument does. -/
def help : Setting → String
  | config => "file of options that the others override"
  | input => "module to start from"
  | output => "place of the finished module"
  | buildDir => "directory of intermediate files"
  | functionOpt => "off, safe or aggressive"
  | pin => "function to keep; may be repeated"
  | userLibDir => "directory of the contract's sources"
  | stdlibZip => "archive of compiled modules"
  | «export» => "entry point, such as contract.ping; may be repeated"
  | entryPoints => "file of entry points with sample payloads"
  | toolsDir => "directory of wasm-dis, wasm-as and wasm-opt"

/-- Tells whether an argument may be repeated. -/
def isRepeatable : Setting → Bool
  | pin | «export» => true
  | _ => false

/-- Tells whether a value can be given to an argument: functions and entry points may be any text,
modes are among the known ones, and paths are not empty. -/
def accepts (value : String) : Setting → Bool
  | pin | «export» => true
  | functionOpt => (RemovalMode.ofName? value).isSome
  | _ => value != ""

/-- The options with an argument's value. -/
def override (value : String) (o : Options) : Setting → Options
  | config => o
  | input => { o with input := value }
  | output => { o with output := value }
  | buildDir => { o with buildDir := value }
  | functionOpt => { o with functionOpt := (RemovalMode.ofName? value).getD o.functionOpt }
  | pin => { o with pinnedFunctions := o.pinnedFunctions ++ [value] }
  | userLibDir => { o with userLibDir := value }
  | stdlibZip => { o with stdlibZip := some value }
  | «export» => { o with contractExports := o.contractExports ++ [value] }
  | entryPoints => { o with entryPointsFile := some value }
  | toolsDir => { o with toolsDir := some value }

end Setting

/-- The arguments that turn something off. -/
inductive Switch where
  | noModuleOpt | noCompression | noDebugInfo | noVerify
  deriving Repr, DecidableEq, Inhabited

namespace Switch

/-- The arguments that turn something off. -/
def all : List Switch :=
  [noModuleOpt, noCompression, noDebugInfo, noVerify]

/-- How a switch is written. -/
def name : Switch → String
  | noModuleOpt => "--no-module-opt"
  | noCompression => "--no-compression"
  | noDebugInfo => "--no-debug-info"
  | noVerify => "--no-verify"

/-- What a switch does. -/
def help : Switch → String
  | noModuleOpt => "pack all frozen modules"
  | noCompression => "leave the data as it is"
  | noDebugInfo => "drop the names of functions"
  | noVerify => "do not run the finished module"

/-- The options with something turned off. -/
def override (o : Options) : Switch → Options
  | noModuleOpt => { o with moduleOpt := false }
  | noCompression => { o with compression := false }
  | noDebugInfo => { o with debugInfo := false }
  | noVerify => { o with verify := false }

end Switch

/-- What arguments say. -/
structure Arguments where
  /-- The values, in the order in which they are given. -/
  settings : List (Setting × String) := []
  /-- The switches. -/
  switches : List Switch := []
  deriving Repr, DecidableEq, Inhabited

/-- Why there is nothing to build. -/
inductive Refusal where
  /-- Help is asked for. -/
  | help
  /-- The arguments make no sense. -/
  | misuse
  deriving Repr, DecidableEq, Inhabited

namespace Arguments

/-- Gives a value to an argument. -/
def set (arguments : Arguments) (setting : Setting) (value : String) : Except Refusal Arguments :=
  if !setting.isRepeatable && arguments.settings.any (·.1 = setting) then .error .misuse
  else if setting.accepts value then
    .ok { arguments with settings := arguments.settings ++ [(setting, value)] }
  else .error .misuse

/-- Sets a switch. -/
def turnOff (arguments : Arguments) (switch : Switch) : Except Refusal Arguments :=
  if arguments.switches.contains switch then .error .misuse
  else .ok { arguments with switches := arguments.switches ++ [switch] }

/-- The name and the value of an argument that may have both in one word. -/
def splitValue (word : String) : String × Option String :=
  let cs := word.toList
  match cs.dropWhile (· != '=') with
  | [] => (word, none)
  | _ :: value => (String.ofList (cs.takeWhile (· != '=')), some (String.ofList value))

/-- Tells whether a word starts an argument, so that it is no value. -/
def isFlag (word : String) : Bool :=
  match word.toList with
  | '-' :: _ :: _ => true
  | _ => false

/-- What a word that is no setting says. -/
def other (arguments : Arguments) (word : String) : Except Refusal Arguments :=
  match Switch.all.find? (·.name == word) with
  | some switch => arguments.turnOff switch
  | none =>
    match word.toList with
    | '-' :: 'h' :: _ => .error .help
    | _ => .error (if word = "--help" then .help else .misuse)

/-- What words say besides what is known already. -/
def read (arguments : Arguments) : List String → Except Refusal Arguments
  | [] => .ok arguments
  | word :: rest =>
    if word = "--" then if rest.isEmpty then .ok arguments else .error .misuse
    else
      let (name, value) := splitValue word
      match Setting.all.find? (·.name == name), value with
      | none, _ =>
        match arguments.other word with
        | .ok arguments => read arguments rest
        | .error e => .error e
      | some setting, some value =>
        match arguments.set setting value with
        | .ok arguments => read arguments rest
        | .error e => .error e
      | some setting, none =>
        match rest with
        | [] => .error .misuse
        | value :: rest =>
          if isFlag value then .error .misuse
          else
            match arguments.set setting value with
            | .ok arguments => read arguments rest
            | .error e => .error e

/-- What words say. -/
def parse (words : List String) : Except Refusal Arguments :=
  read {} words

/-- The options that arguments ask for. -/
def options (arguments : Arguments) (files : FileTree) : Except ConfigError Options := do
  let o ← match arguments.settings.find? (·.1 = .config) with
    | some (_, path) => Options.load files path
    | none => pure {}
  let o := arguments.settings.foldl (fun o (setting, value) => setting.override value o) o
  return arguments.switches.foldl Switch.override o

end Arguments

/-- What the program ends with. -/
structure Outcome where
  /-- The exit code. -/
  exitCode : Nat
  /-- What went wrong. -/
  failure : Option String := none
  /-- What is shown otherwise. -/
  summary : Option String := none
  deriving Repr, DecidableEq, Inhabited

/-- How the program is used. -/
def usage : String :=
  let settings := Setting.all.map fun s => s!"  {s.name} VALUE  {s.help}\n"
  let switches := Switch.all.map fun s => s!"  {s.name}  {s.help}\n"
  "Options:\n" ++ String.join (settings ++ switches)

/-- What a finished build is summed up as. -/
def summary (report : BuildReport) : String :=
  s!"removed {report.removed.length} functions, kept {report.retained.length}, " ++
    s!"packed {report.packed.length} modules into {report.output}"

/-- Builds what the words ask for, with the tools of a directory or those that are found by name. -/
def run {σ : Type} (tools : Option String → Toolchain σ) (words : List String) :
    StateM (BuildState σ) Outcome := fun state =>
  match Arguments.parse words with
  | .error .help => ({ exitCode := 0, summary := some usage }, state)
  | .error .misuse => ({ exitCode := 2, summary := some usage }, state)
  | .ok arguments =>
    match arguments.options state.files with
    | .error e => ({ exitCode := 2, failure := some e.message }, state)
    | .ok options =>
      match build options (tools options.toolsDir) none state with
      | (.ok report, state) => ({ exitCode := 0, summary := some (summary report) }, state)
      | (.error e, state) => ({ exitCode := 1, failure := some e.message }, state)

end CommandLine

end WasmTrim
