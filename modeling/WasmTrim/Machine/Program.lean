import WasmTrim.Guest.Basic

/-!
# Programs

Modules in a form that can be run: every name is resolved to an index, and every instruction is
written out. Functions are numbered with the imported ones first. A branch names a label by how many
blocks it leaves, the innermost being zero.
-/

namespace WasmTrim

/-- Operations that take values from the stack and put one there. -/
inductive Operator where
  /-- The sum of two words. -/
  | add (type : ValueType)
  /-- Tells whether two words are the same. -/
  | eq (type : ValueType)
  /-- Tells whether the first of two words is the greater number without sign. -/
  | gtU (type : ValueType)
  /-- Tells whether a word is zero. -/
  | eqz (type : ValueType)
  /-- The first word shifted right by the second, without sign. -/
  | shrU (type : ValueType)
  /-- The low half of a wide word. -/
  | wrap
  /-- The wide word of the same signed number. -/
  | extendS
  /-- The wide word of the same number without sign. -/
  | extendU
  deriving Repr, DecidableEq, Inhabited

namespace Operator

/-- What an operator takes and returns. -/
def type : Operator → FunctionType
  | .add t | .shrU t => ⟨[t, t], [t]⟩
  | .eq t | .gtU t => ⟨[t, t], [.i32]⟩
  | .eqz t => ⟨[t], [.i32]⟩
  | .wrap => ⟨[.i64], [.i32]⟩
  | .extendS | .extendU => ⟨[.i32], [.i64]⟩

/-- A truth value as a word. -/
def truth (b : Bool) : Value :=
  .i32 (if b then 1 else 0)

/-- The result for arguments in their order. -/
def value? (op : Operator) (arguments : List Value) : Option Value :=
  match op, arguments with
  | .add _, [.i32 a, .i32 b] => some (.i32 (a + b))
  | .add _, [.i64 a, .i64 b] => some (.i64 (a + b))
  | .eq _, [.i32 a, .i32 b] => some (truth (a == b))
  | .eq _, [.i64 a, .i64 b] => some (truth (a == b))
  | .gtU _, [.i32 a, .i32 b] => some (truth (b < a))
  | .gtU _, [.i64 a, .i64 b] => some (truth (b < a))
  | .eqz _, [.i32 a] => some (truth (a == 0))
  | .eqz _, [.i64 a] => some (truth (a == 0))
  | .shrU _, [.i32 a, .i32 b] => some (.i32 (a >>> b))
  | .shrU _, [.i64 a, .i64 b] => some (.i64 (a >>> b))
  | .wrap, [.i64 a] => some (.i32 a.toUInt32)
  | .extendS, [.i32 a] => some (.i64 a.toInt32.toInt64.toUInt64)
  | .extendU, [.i32 a] => some (.i64 a.toUInt64)
  | _, _ => none

end Operator

/-- One step of a function, or a block of steps. -/
inductive Instruction where
  /-- Does nothing. -/
  | nop
  /-- Traps. -/
  | unreachable
  /-- Takes a value off the stack. -/
  | drop
  /-- Puts a value on the stack. -/
  | const (value : Value)
  /-- Puts a local on the stack. -/
  | localGet (index : Nat)
  /-- Sets a local. -/
  | localSet (index : Nat)
  /-- Puts a global on the stack. -/
  | globalGet (index : Nat)
  /-- Sets a global. -/
  | globalSet (index : Nat)
  /-- Applies an operator. -/
  | operate (op : Operator)
  /-- Puts a byte of memory on the stack, as a word. -/
  | loadByte (offset : Nat)
  /-- Writes the low byte of a word to memory. -/
  | storeByte (offset : Nat)
  /-- Writes a word to memory. -/
  | storeWord (offset : Nat)
  /-- Grows the memory, and puts its former size in pages on the stack, or -1. -/
  | grow
  /-- Calls a function. -/
  | call (function : Nat)
  /-- Leaves the function. -/
  | «return»
  /-- Leaves blocks. -/
  | branch (label : Nat)
  /-- Leaves blocks if a word is not zero. -/
  | branchIf (label : Nat)
  /-- Steps that a branch leaves. -/
  | block (results : List ValueType) (body : List Instruction)
  /-- Steps that a branch starts over. -/
  | loop (results : List ValueType) (body : List Instruction)
  /-- One of two blocks, by a word. -/
  | choose (results : List ValueType) (yes no : List Instruction)
  deriving Inhabited

/-- A function with its steps. -/
structure FunctionBody where
  /-- What it takes and returns. -/
  type : FunctionType
  /-- The types of the locals behind the parameters. -/
  locals : List ValueType := []
  /-- The steps. -/
  body : List Instruction := []
  deriving Inhabited

/-- A global. -/
structure GlobalVariable where
  /-- Its type. -/
  type : ValueType
  /-- Tells whether it can be set. -/
  isMutable : Bool
  /-- Its first value. -/
  value : Value
  deriving Repr, DecidableEq, Inhabited

/-- How large a memory is, and may become, in pages. -/
structure MemoryLimits where
  /-- The size in the beginning. -/
  pages : Nat
  /-- The size that it may not exceed. -/
  max : Option Nat := none
  deriving Repr, DecidableEq, Inhabited

/-- Something that is exported. -/
inductive Exported where
  /-- A function. -/
  | function (index : Nat)
  /-- A memory. -/
  | memory (index : Nat)
  /-- A global. -/
  | global (index : Nat)
  deriving Repr, DecidableEq, Inhabited

/-- A module whose names are resolved. -/
structure Program where
  /-- The imported functions. -/
  imports : Array ImportedFunction := #[]
  /-- The functions with steps of their own. -/
  functions : Array FunctionBody := #[]
  /-- The memories. -/
  memories : List MemoryLimits := []
  /-- The globals. -/
  globals : List GlobalVariable := []
  /-- The exports. -/
  exports : List (String × Exported) := []
  /-- The active data segments: the memory, the address and the bytes. -/
  data : List (Nat × UInt32 × ByteArray) := []
  /-- The function that is called at the start. -/
  start : Option Nat := none
  deriving Inhabited

/-- The type of a function. -/
def Program.functionType? (program : Program) (index : Nat) : Option FunctionType :=
  if index < program.imports.size then program.imports[index]?.map (·.type)
  else program.functions[index - program.imports.size]?.map (·.type)

end WasmTrim
