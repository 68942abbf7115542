import WasmTrim.Machine.Program

/-!
# Typing of programs

A program may be run only if its instructions find the values that they need on the stack, whatever
way the control takes. `Program.isValid` decides it in one pass over the instructions.

Behind an instruction that never goes on, such as a branch, the stack is unknown below what was put
there since, and every value is found on it.
-/

namespace WasmTrim

namespace Typing

/-- What is known about the stack. -/
structure Stack where
  /-- The types of the uppermost values, from the top. -/
  types : List ValueType := []
  /-- Tells whether any values may lie below those. -/
  isOpen : Bool := false
  deriving Repr, DecidableEq, Inhabited

namespace Stack

/-- The stack behind an instruction that never goes on. -/
def anything : Stack := { isOpen := true }

/-- The stack without its uppermost value, whatever its type. -/
def dropTop? (stack : Stack) : Option Stack :=
  match stack.types with
  | _ :: rest => some { stack with types := rest }
  | [] => if stack.isOpen then some stack else none

/-- The stack without its uppermost value, which has the given type. -/
def pop? (stack : Stack) (type : ValueType) : Option Stack :=
  match stack.types with
  | t :: rest => if t = type then some { stack with types := rest } else none
  | [] => if stack.isOpen then some stack else none

/-- The stack without its uppermost values, which have the given types, the last on top. -/
def popAll? (stack : Stack) (types : List ValueType) : Option Stack :=
  types.reverse.foldlM pop? stack

/-- The stack with values of the given types on it, the last on top. -/
def push (stack : Stack) (types : List ValueType) : Stack :=
  { stack with types := types.reverse ++ stack.types }

/-- Tells whether the stack holds values of the given types and no others. -/
def isExactly (stack : Stack) (types : List ValueType) : Bool :=
  match stack.popAll? types with
  | some rest => rest.types.isEmpty
  | none => false

/-- The stack after a function of the given type. -/
def applied? (stack : Stack) (type : FunctionType) : Option Stack :=
  (stack.popAll? type.params).map (·.push type.results)

end Stack

/-- What instructions may refer to. -/
structure Scope where
  /-- The program. -/
  program : Program
  /-- The types of the function's parameters and locals. -/
  locals : List ValueType
  /-- The types of its results. -/
  results : List ValueType
  /-- The types that a branch to each label carries. -/
  labels : List (List ValueType)

/-- The same scope inside a block whose label carries the given types. -/
def Scope.inside (scope : Scope) (types : List ValueType) : Scope :=
  { scope with labels := types :: scope.labels }

/-- A value that is there if a condition holds. -/
def provided (condition : Bool) (a : α) : Option α :=
  if condition then some a else none

mutual

/-- The stack behind an instruction, if the instruction finds what it needs. -/
def after? (scope : Scope) (stack : Stack) : Instruction → Option Stack
  | .nop => some stack
  | .unreachable => some .anything
  | .drop => stack.dropTop?
  | .const value => some (stack.push [value.type])
  | .localGet i => scope.locals[i]?.map fun t => stack.push [t]
  | .localSet i => scope.locals[i]?.bind stack.pop?
  | .globalGet i => scope.program.globals[i]?.map fun g => stack.push [g.type]
  | .globalSet i => scope.program.globals[i]?.bind fun g =>
    if g.isMutable then stack.pop? g.type else none
  | .operate op => stack.applied? op.type
  | .loadByte _ => onMemory scope (stack.applied? ⟨[.i32], [.i32]⟩)
  | .storeByte _ | .storeWord _ => onMemory scope (stack.applied? ⟨[.i32, .i32], []⟩)
  | .grow => onMemory scope (stack.applied? ⟨[.i32], [.i32]⟩)
  | .call f => (scope.program.functionType? f).bind stack.applied?
  | .return => (stack.popAll? scope.results).map fun _ => .anything
  | .branch l => scope.labels[l]?.bind fun types =>
    (stack.popAll? types).map fun _ => .anything
  | .branchIf l => scope.labels[l]?.bind fun types =>
    (stack.pop? .i32).bind (·.applied? ⟨types, types⟩)
  | .block results body =>
    match afterAll? (scope.inside results) {} body with
    | some inner => provided (inner.isExactly results) (stack.push results)
    | none => none
  | .loop results body =>
    match afterAll? (scope.inside []) {} body with
    | some inner => provided (inner.isExactly results) (stack.push results)
    | none => none
  | .choose results yes no =>
    match stack.pop? .i32, afterAll? (scope.inside results) {} yes,
        afterAll? (scope.inside results) {} no with
    | some stack, some y, some n =>
      provided (y.isExactly results && n.isExactly results) (stack.push results)
    | _, _, _ => none
where
  /-- The answer, if the program has a memory. -/
  onMemory (scope : Scope) (answer : Option Stack) : Option Stack :=
    if scope.program.memories.isEmpty then none else answer

/-- The stack behind instructions. -/
def afterAll? (scope : Scope) (stack : Stack) : List Instruction → Option Stack
  | [] => some stack
  | i :: rest =>
    match after? scope stack i with
    | some stack => afterAll? scope stack rest
    | none => none

end

/-- Tells whether a function's instructions find what they need and leave its results. -/
def isTyped (program : Program) (function : FunctionBody) : Bool :=
  let scope : Scope :=
    { program
      locals := function.type.params ++ function.locals
      results := function.type.results
      labels := [function.type.results] }
  match afterAll? scope {} function.body with
  | some stack => stack.isExactly function.type.results
  | none => false

end Typing

namespace Program

/-- Tells whether a memory's limits can be met. -/
def isPossible (limits : MemoryLimits) : Bool :=
  limits.pages ≤ GuestMemory.maxPages &&
    match limits.max with
    | some max => limits.pages ≤ max && max ≤ GuestMemory.maxPages
    | none => true

/-- Tells whether what is exported is there. -/
def exists? (program : Program) : Exported → Bool
  | .function i => (program.functionType? i).isSome
  | .memory i => i < program.memories.length
  | .global i => i < program.globals.length

/-- Tells whether a program may be run. -/
def isValid (program : Program) : Bool :=
  program.memories.length ≤ 1 && program.memories.all isPossible &&
    program.globals.all (fun g => g.value.type = g.type) &&
    (program.exports.map (·.1)).Nodup && program.exports.all (fun e => program.exists? e.2) &&
    program.data.all (fun segment => segment.1 < program.memories.length) &&
    (match program.start with
      | some f => program.functionType? f = some {}
      | none => true) &&
    program.functions.all (Typing.isTyped program)

end Program

end WasmTrim
