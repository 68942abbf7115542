/-!
# Traps

Why a call into a module ends early.
-/

namespace WasmTrim

/-- Why a call into a module ends early. -/
inductive Trap where
  /-- The module says that this point is never reached. -/
  | unreachable
  /-- The module calls an import that its host does not have. -/
  | unknownImport
  /-- The module reaches past its memory, or lays data past it. -/
  | outOfBounds
  /-- A function is called with too many or too few arguments. -/
  | arity
  /-- A value has another type than it should. -/
  | typeMismatch
  /-- An import has another type than the host's function of that name. -/
  | importType
  /-- Calls are nested too deeply, or run on and on. -/
  | exhausted
  /-- The host is given a range that does not lie within the memory. -/
  | badRange (address length : UInt64) (size : Nat)
  /-- The host is given a text that starts past the memory. -/
  | badText (address : UInt32)
  /-- The host needs the memory, and the module exports none. -/
  | noMemory
  /-- There is no exported function of that name. -/
  | noExport (name : String)
  deriving Repr, DecidableEq, Inhabited

/-- The report of a trap. -/
def Trap.reason : Trap → String
  | .unreachable => "unreachable"
  | .unknownImport => "unknown import"
  | .outOfBounds => "out of bounds"
  | .arity => "arity"
  | .typeMismatch => "trap"
  | .importType => "import type"
  | .exhausted => "trap"
  | .badRange address length size =>
    s!"guest access {address}+{length} is outside memory of {size} bytes"
  | .badText address => s!"C string at {address} is outside guest memory"
  | .noMemory => "guest does not export `memory`"
  | .noExport name => s!"export `{name}` not found"

end WasmTrim
