import WasmTrim.Host.Imports
import WasmTrim.Machine.Program

/-!
# Scripts

A script is a guest that is given by what it does rather than by its code: exported functions that
make calls of the host with fixed arguments, touch the memory, or trap. `Script.program` writes the
code. It keeps two wide words: the result of the latest step that had one, and a counter.

Imports are numbered in the order in which the steps first name them. A function that is named in
two ways is imported twice.
-/

namespace WasmTrim

/-- The call of an imported function with fixed arguments. -/
structure ScriptCall where
  /-- The function: its name, behind the name of its module and two colons unless that is the host's
  own. -/
  function : String
  /-- The arguments, each cut to the size of its parameter. -/
  arguments : List Int
  deriving Repr, DecidableEq, Inhabited

/-- A step of a script. -/
inductive ScriptStep where
  /-- Calls the host and keeps the result, if there is one. -/
  | call (call : ScriptCall)
  /-- Traps. -/
  | trap
  /-- Writes a byte to memory. -/
  | poke (address byte : Int)
  /-- Keeps a byte of memory. -/
  | peek (address : Int)
  /-- Grows the memory and keeps its former size. -/
  | grow (pages : Int)
  /-- Raises the counter by one and keeps it. -/
  | bump
  /-- Calls the host and goes on by whether the result is a given number. -/
  | choose (call : ScriptCall) (number : Int) (yes no : List ScriptStep)
  deriving Inhabited

/-- A guest that is given by what it does. -/
structure Script where
  /-- The size of the memory in pages, if there is one. -/
  memory : Option Nat := none
  /-- The name that the memory is exported by. -/
  memoryExport : String := "memory"
  /-- The data that is laid into the memory. -/
  data : List (UInt32 × ByteArray) := []
  /-- The exported functions and their steps. -/
  functions : List (String × List ScriptStep) := []
  /-- The steps at the start. -/
  start : List ScriptStep := []
  deriving Inhabited

/-- An import, and how the script names it. -/
abbrev NamedImport := String × ImportedFunction

namespace ScriptCall

/-- The module that the function is imported from, and its name there. -/
def path (call : ScriptCall) : String × String :=
  match call.function.splitOn "::" with
  | module :: name :: more => (module, "::".intercalate (name :: more))
  | _ => (hostModule, call.function)

/-- The type that a call gives to the function that it calls: the host's own, or that of a function
which takes the arguments as wide words and has no result. -/
def type (call : ScriptCall) : FunctionType :=
  match HostImport.find? call.path.1 call.path.2 with
  | some offered => offered.type
  | none => { params := call.arguments.map fun _ => .i64 }

/-- The import of the function that is called. -/
def imported (call : ScriptCall) : ImportedFunction :=
  ⟨call.path.1, call.path.2, call.type⟩

/-- The instruction that puts an argument on the stack. -/
def argument (argument : Int) : ValueType → Instruction
  | .i32 => .const (.i32 (argument % UInt32.size).toNat.toUInt32)
  | .i64 => .const (.i64 (argument % UInt64.size).toNat.toUInt64)

/-- The instructions that put the arguments on the stack; what has no parameter is wide. -/
def pushAll : List Int → List ValueType → List Instruction
  | [], _ => []
  | a :: rest, [] => argument a .i64 :: pushAll rest []
  | a :: rest, t :: types => argument a t :: pushAll rest types

/-- The instructions that make the call and leave its result as a wide word. -/
def code (imports : List NamedImport) (call : ScriptCall) : List Instruction :=
  pushAll call.arguments call.type.params ++
    [.call ((imports.findIdx? (·.1 == call.function)).getD imports.length)] ++
    (if call.type.results = [.i32] then [.operate .extendS] else [])

end ScriptCall

namespace ScriptStep

mutual

/-- Adds the imports that a step names to those that are known. -/
def addImports (known : List NamedImport) : ScriptStep → List NamedImport
  | .call c => add known c
  | .choose c _ yes no => addAllImports (addAllImports (add known c) yes) no
  | _ => known
where
  /-- Adds the import of one call. -/
  add (known : List NamedImport) (call : ScriptCall) : List NamedImport :=
    if known.any (·.1 == call.function) then known else known ++ [(call.function, call.imported)]

/-- Adds the imports that steps name. -/
def addAllImports (known : List NamedImport) : List ScriptStep → List NamedImport
  | [] => known
  | step :: rest => addAllImports (addImports known step) rest

end

/-- The global that keeps the latest result. -/
def result : Nat := 0

/-- The global that keeps the counter. -/
def counter : Nat := 1

/-- The instruction of a narrow constant. -/
def narrow (i : Int) : Instruction := ScriptCall.argument i .i32

/-- The instruction of a wide constant. -/
def wide (i : Int) : Instruction := ScriptCall.argument i .i64

mutual

/-- The instructions of a step. -/
def code (imports : List NamedImport) : ScriptStep → List Instruction
  | .call c =>
    c.code imports ++ (if c.type.results.isEmpty then [] else [.globalSet result])
  | .trap => [.unreachable]
  | .poke address byte => [narrow address, narrow byte, .storeByte 0]
  | .peek address => [narrow address, .loadByte 0, .operate .extendU, .globalSet result]
  | .grow pages => [narrow pages, .grow, .operate .extendS, .globalSet result]
  | .bump =>
    [.globalGet counter, wide 1, .operate (.add .i64), .globalSet counter, .globalGet counter,
      .globalSet result]
  | .choose c number yes no =>
    c.code imports ++ [wide number, .operate (.eq .i64),
      .choose [] (codeOfAll imports yes) (codeOfAll imports no)]

/-- The instructions of steps. -/
def codeOfAll (imports : List NamedImport) : List ScriptStep → List Instruction
  | [] => []
  | step :: rest => code imports step ++ codeOfAll imports rest

end

end ScriptStep

namespace Script

open ScriptStep

/-- The export that returns the low half of the latest result. -/
def lowHalf : String := "$lo"

/-- The export that returns the high half of the latest result. -/
def highHalf : String := "$hi"

/-- The imports that a script names. -/
def imports (script : Script) : List NamedImport :=
  addAllImports (addAllImports [] (script.functions.flatMap (·.2))) script.start

/-- The program of a script. -/
def program (script : Script) : Program :=
  let imports := script.imports
  let functions := script.functions.map fun (_, steps) =>
    { type := {}, body := wide 0 :: .globalSet result :: codeOfAll imports steps : FunctionBody }
  let half := fun code => ({ type := ⟨[], [.i32]⟩, body := code } : FunctionBody)
  let halves :=
    [half [.globalGet result, .operate .wrap],
      half [.globalGet result, wide 32, .operate (.shrU .i64), .operate .wrap]]
  let starts := if script.start.isEmpty then [] else
    [{ type := {}, body := codeOfAll imports script.start : FunctionBody }]
  let names := script.functions.map (·.1) ++ [lowHalf, highHalf]
  { imports := (imports.map (·.2)).toArray
    functions := (functions ++ halves ++ starts).toArray
    memories := script.memory.toList.map fun pages => { pages }
    globals := [⟨.i64, true, .i64 0⟩, ⟨.i64, true, .i64 0⟩]
    exports := names.zipIdx.map (fun (name, i) => (name, .function (imports.length + i))) ++
      (script.memory.toList.map fun _ => (script.memoryExport, .memory 0))
    data := script.data.map fun (address, bytes) => (0, address, bytes)
    start := if script.start.isEmpty then none else some (imports.length + names.length) }

end Script

end WasmTrim
