import WasmTrim.Machine.Program
import WasmTrim.Memory.Words

/-!
# Running programs

A machine runs one instruction after another. What is to be done after a block or a function is kept
in labels and frames, so a configuration says everything about how the machine goes on.

## Implementation notes

Each label and frame keeps the stack below it, so leaving a block does not count what lies on the
stack. The number of steps is bounded by a number that no program reaches in practice, and so is the
number of nested calls; a program that reaches either traps.
-/

namespace WasmTrim

namespace Machine

/-- A block that the machine is in. -/
structure Label where
  /-- What a branch starts over, for a loop. -/
  again : Option (List Instruction)
  /-- The number of values that a branch carries. -/
  arity : Nat
  /-- The stack below the block. -/
  below : List Value
  /-- What follows the block. -/
  rest : List Instruction

/-- A call that waits for another one to return. -/
structure Frame where
  /-- Its locals. -/
  locals : Array Value
  /-- The blocks that it is in. -/
  labels : List Label
  /-- The stack below the values that the other call returns. -/
  below : List Value
  /-- What follows the other call. -/
  rest : List Instruction
  /-- The number of its results. -/
  arity : Nat

/-- Everything that decides how the machine goes on. -/
structure Config where
  /-- The memory and the globals. -/
  now : Instance
  /-- What is to be done in the innermost block. -/
  code : List Instruction
  /-- The values of the innermost block, from the top. -/
  stack : List Value := []
  /-- The blocks that the present call is in, from the innermost. -/
  labels : List Label := []
  /-- The locals of the present call. -/
  locals : Array Value := #[]
  /-- The number of its results. -/
  arity : Nat := 0
  /-- The calls that wait, from the latest. -/
  frames : List Frame := []
  /-- The number of calls that wait. -/
  depth : Nat := 0

/-- What a step leads to. -/
inductive Step where
  /-- To another configuration. -/
  | next (config : Config)
  /-- To the end, with results. -/
  | done (now : Instance) (results : List Value)
  /-- To a trap. -/
  | trapped (now : Instance) (trap : Trap)
  /-- To a call of the host, after which the configuration goes on with the results. -/
  | hostCall (config : Config) (callee : ImportedFunction) (arguments : List Value)

/-- The number of calls that may wait. -/
def maxDepth : Nat := 20000

/-- The number of steps that a call may take. -/
def maxSteps : Nat := 1000000000000

/-- The limit of a program's memory, in pages. -/
def memoryLimit (program : Program) : Nat :=
  match program.memories with
  | limits :: _ => limits.max.getD GuestMemory.maxPages
  | [] => 0

/-- The address that a base and an offset make. -/
def place (base : UInt32) (offset : Nat) : Nat :=
  base.toNat + offset

/-- Leaves the present call with the uppermost values as its results. -/
def leave (c : Config) : Step :=
  let results := c.stack.take c.arity
  match c.frames with
  | [] => .done c.now results.reverse
  | f :: frames =>
    .next { now := c.now, code := f.rest, stack := results ++ f.below, labels := f.labels,
            locals := f.locals, arity := f.arity, frames, depth := c.depth - 1 }

/-- Leaves so many blocks and the one around them, or starts that one over if it is a loop. -/
def branch (c : Config) (label : Nat) : Step :=
  match c.labels.drop label with
  | [] => leave c
  | l :: labels =>
    let carried := c.stack.take l.arity
    match l.again with
    | some body => .next { c with code := body, stack := carried, labels := l :: labels }
    | none => .next { c with code := l.rest, stack := carried ++ l.below, labels }

/-- Enters a block. -/
def enter (c : Config) (again : Option (List Instruction)) (arity : Nat)
    (body : List Instruction) : Step :=
  .next { c with
    code := body
    stack := []
    labels := { again, arity, below := c.stack, rest := c.code } :: c.labels }

/-- Enters a call of a function with steps of its own. -/
def enterCall (c : Config) (function : FunctionBody) (arguments : List Value) : Step :=
  if maxDepth ≤ c.depth then .trapped c.now .exhausted
  else
    let frame : Frame :=
      { locals := c.locals, labels := c.labels, below := c.stack, rest := c.code, arity := c.arity }
    .next
      { now := c.now
        code := function.body
        locals := (arguments ++ function.locals.map Value.zero).toArray
        arity := function.type.results.length
        frames := frame :: c.frames
        depth := c.depth + 1 }

/-- Calls a function with the uppermost values as its arguments. -/
def call (program : Program) (c : Config) (index : Nat) : Step :=
  match program.imports[index]? with
  | some callee =>
    let count := callee.type.params.length
    .hostCall { c with stack := c.stack.drop count } callee (c.stack.take count).reverse
  | none =>
    match program.functions[index - program.imports.size]? with
    | some function =>
      let count := function.type.params.length
      enterCall { c with stack := c.stack.drop count } function (c.stack.take count).reverse
    | none => .trapped c.now .typeMismatch

/-- Writes to the memory and goes on. -/
def writeMemory (c : Config) (address : Nat) (bytes : ByteArray) : Step :=
  match c.now.memory.bind (·.write? address bytes) with
  | some memory => .next { c with now := { c.now with memory := some memory } }
  | none => .trapped c.now .outOfBounds

/-- Grows the memory and goes on. -/
def growMemory (program : Program) (c : Config) (pages : UInt32) : Step :=
  match c.now.memory with
  | none => .trapped c.now .typeMismatch
  | some memory =>
    match memory.grow? pages.toNat (memoryLimit program) with
    | some grown =>
      let former := (memory.size / GuestMemory.pageSize).toUInt32
      .next { c with now := { c.now with memory := some grown }, stack := .i32 former :: c.stack }
    | none => .next { c with stack := .i32 0xffffffff :: c.stack }

/-- Does one instruction; `c` holds what follows it. -/
def execute (program : Program) (c : Config) : Instruction → Step
  | .nop => .next c
  | .unreachable => .trapped c.now .unreachable
  | .drop => .next { c with stack := c.stack.tail }
  | .const value => .next { c with stack := value :: c.stack }
  | .localGet i =>
    match c.locals[i]? with
    | some value => .next { c with stack := value :: c.stack }
    | none => .trapped c.now .typeMismatch
  | .localSet i =>
    match c.stack with
    | value :: stack => .next { c with locals := c.locals.setIfInBounds i value, stack }
    | [] => .trapped c.now .typeMismatch
  | .globalGet i =>
    match c.now.globals[i]? with
    | some value => .next { c with stack := value :: c.stack }
    | none => .trapped c.now .typeMismatch
  | .globalSet i =>
    match c.stack with
    | value :: stack =>
      .next { c with now := { c.now with globals := c.now.globals.set i value }, stack }
    | [] => .trapped c.now .typeMismatch
  | .operate op =>
    let count := op.type.params.length
    match op.value? (c.stack.take count).reverse with
    | some value => .next { c with stack := value :: c.stack.drop count }
    | none => .trapped c.now .typeMismatch
  | .loadByte offset =>
    match c.stack, c.now.memory with
    | .i32 base :: stack, some memory =>
      let address := place base offset
      if address < memory.size then
        .next { c with stack := .i32 (memory.contents.byteAt address).toUInt32 :: stack }
      else .trapped c.now .outOfBounds
    | _, _ => .trapped c.now .typeMismatch
  | .storeByte offset =>
    match c.stack with
    | .i32 word :: .i32 base :: stack =>
      writeMemory { c with stack } (place base offset) ⟨#[word.toUInt8]⟩
    | _ => .trapped c.now .typeMismatch
  | .storeWord offset =>
    match c.stack with
    | .i32 word :: .i32 base :: stack =>
      writeMemory { c with stack } (place base offset) (word32Bytes word)
    | _ => .trapped c.now .typeMismatch
  | .grow =>
    match c.stack with
    | .i32 pages :: stack => growMemory program { c with stack } pages
    | _ => .trapped c.now .typeMismatch
  | .call f => call program c f
  | .return => leave c
  | .branch l => branch c l
  | .branchIf l =>
    match c.stack with
    | .i32 word :: stack =>
      if word = 0 then .next { c with stack } else branch { c with stack } l
    | _ => .trapped c.now .typeMismatch
  | .block results body => enter c none results.length body
  | .loop _ body => enter c (some body) 0 body
  | .choose results yes no =>
    match c.stack with
    | .i32 word :: stack =>
      enter { c with stack } none results.length (if word = 0 then no else yes)
    | _ => .trapped c.now .typeMismatch

/-- Does one step: the next instruction, or the end of a block or of a call. -/
def step (program : Program) (c : Config) : Step :=
  match c.code with
  | i :: rest => execute program { c with code := rest } i
  | [] =>
    match c.labels with
    | l :: labels => .next { c with code := l.rest, stack := c.stack ++ l.below, labels }
    | [] => leave c

/-- What the machine does from a configuration on, in so many steps at most. -/
def activity (program : Program) : (steps : Nat) → Config → Activity
  | 0, c => .trapped c.now .exhausted
  | steps + 1, c =>
    match step program c with
    | .next c => activity program steps c
    | .done now results => .done now results
    | .trapped now trap => .trapped now trap
    | .hostCall c callee arguments =>
      .hostCall c.now callee arguments fun now results =>
        activity program steps { c with now, stack := results.reverse ++ c.stack }

/-- What a call of a function does. -/
def start (program : Program) (index : Nat) (now : Instance) (arguments : List Value) : Activity :=
  activity program maxSteps
    { now, code := [.call index], stack := arguments.reverse,
      arity := ((program.functionType? index).map (·.results.length)).getD 0 }

end Machine

namespace Program

/-- The function that a program exports under a name. -/
def exportedFunction? (program : Program) (name : String) : Option ExportedFunction :=
  match program.exports.lookup name with
  | some (.function i) =>
    (program.functionType? i).map fun type =>
      { type, isImport := i < program.imports.size, call := Machine.start program i }
  | _ => none

/-- The program as its host sees it. -/
def guest (program : Program) : Guest where
  imports := program.imports.toList
  exportsMemory :=
    match program.exports.lookup "memory" with
    | some (.memory _) => true
    | _ => false
  blank :=
    { memory := program.memories.head?.map fun limits => .ofPages limits.pages
      globals := program.globals.map (·.value) }
  data := program.data.map fun (_, address, bytes) => ⟨address.toNat, bytes⟩
  start? := program.start.map fun i => fun now => Machine.start program i now []
  function? := program.exportedFunction?

end Program

end WasmTrim
