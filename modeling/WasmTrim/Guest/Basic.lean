import WasmTrim.Guest.Memory
import WasmTrim.Guest.Trap
import WasmTrim.Guest.Value

/-!
# Guests

A guest is a module as its host sees it: what it imports, what it exports, and how it starts. What
a call does is an `Activity`: it ends, with results or with a trap, or it calls the host and goes on
with the host's results. The host may change the guest's memory meanwhile, so what follows a call
of the host depends on the instance that the host hands back.

## Implementation notes

An activity is a tree with one branch for every way in which the host may answer, so how a host
carries a guest through a call is a recursion on that tree, whatever the guest computes in between.
-/

namespace WasmTrim

/-- A function that a guest imports. -/
structure ImportedFunction where
  /-- The module that it is imported from. -/
  module : String
  /-- Its name there. -/
  name : String
  /-- The type that the guest declares for it. -/
  type : FunctionType
  deriving Repr, DecidableEq, Inhabited

/-- What changes while a guest runs. -/
structure Instance where
  /-- The memory, if there is one. -/
  memory : Option GuestMemory := none
  /-- The values of the globals. -/
  globals : List Value := []
  deriving DecidableEq, Inhabited

/-- What a call does. -/
inductive Activity where
  /-- It returns. -/
  | done (now : Instance) (results : List Value)
  /-- It traps. -/
  | trapped (now : Instance) (trap : Trap)
  /-- It calls an imported function and goes on. -/
  | hostCall (now : Instance) (callee : ImportedFunction) (arguments : List Value)
      (resume : Instance → List Value → Activity)
  deriving Inhabited

/-- A function that a guest exports. -/
structure ExportedFunction where
  /-- The type of the function. -/
  type : FunctionType
  /-- Tells whether the function is one of the imports. Its host then cannot tell which guest it
  works for. -/
  isImport : Bool := false
  /-- What a call of the function does. -/
  call : Instance → List Value → Activity

/-- A module as its host sees it. -/
structure Guest where
  /-- The imported functions, in their order. -/
  imports : List ImportedFunction := []
  /-- Tells whether the guest exports its memory under the name that its host looks for. -/
  exportsMemory : Bool := false
  /-- The instance before its data is laid. -/
  blank : Instance := {}
  /-- The data that is laid into the memory when the guest starts, in order. -/
  data : List Patch := []
  /-- What the guest does when it starts. -/
  start? : Option (Instance → Activity) := none
  /-- The exported functions by name. -/
  function? : String → Option ExportedFunction := fun _ => none

namespace Instance

/-- The instance with data laid into its memory; data for no memory at all cannot be laid. -/
def lay? (now : Instance) (data : List Patch) : Option Instance :=
  match data, now.memory with
  | [], _ => some now
  | _ :: _, none => none
  | patches, some memory =>
    (memory.writeAll? patches).map fun memory => { now with memory := some memory }

end Instance

namespace ExportedFunction

/-- What a call with the given arguments does; arguments that do not fit the type make it trap. -/
def invoke (function : ExportedFunction) (now : Instance) (arguments : List Value) : Activity :=
  if arguments.length ≠ function.type.params.length then .trapped now .arity
  else if arguments.map Value.type ≠ function.type.params then .trapped now .typeMismatch
  else function.call now arguments

end ExportedFunction

end WasmTrim
