/-!
# Values

The values that functions of a module take and return, their types, and the types of functions.
-/

namespace WasmTrim

/-- The type of a value. -/
inductive ValueType where
  /-- Words of 32 bits. -/
  | i32
  /-- Words of 64 bits. -/
  | i64
  deriving Repr, DecidableEq, Inhabited

/-- A value. Whether its bits mean a signed or an unsigned number is up to who reads it. -/
inductive Value where
  /-- A word of 32 bits. -/
  | i32 (word : UInt32)
  /-- A word of 64 bits. -/
  | i64 (word : UInt64)
  deriving Repr, DecidableEq, Inhabited

namespace Value

/-- The type of a value. -/
def type : Value → ValueType
  | .i32 _ => .i32
  | .i64 _ => .i64

/-- The value of a type whose bits are all zero. -/
def zero : ValueType → Value
  | .i32 => .i32 0
  | .i64 => .i64 0

/-- The signed number that a value's bits mean. -/
def toInt : Value → Int
  | .i32 word => word.toInt32.toInt
  | .i64 word => word.toInt64.toInt

/-- A value shown with its type, as a signed number. -/
def describe (value : Value) : String :=
  match value with
  | .i32 _ => s!"I32({value.toInt})"
  | .i64 _ => s!"I64({value.toInt})"

@[simp] theorem type_zero (t : ValueType) : (zero t).type = t := by
  cases t <;> rfl

end Value

/-- What a function takes and returns. -/
structure FunctionType where
  /-- The types of its parameters. -/
  params : List ValueType := []
  /-- The types of its results. -/
  results : List ValueType := []
  deriving Repr, DecidableEq, Inhabited

end WasmTrim
