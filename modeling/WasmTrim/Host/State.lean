import WasmTrim.Memory.Words
import WasmTrim.SortedMap
import WasmTrim.SortedSet
import WasmTrim.TraceHook

/-!
# What the host keeps

Registers, storage, the input of the present call, and the evidence that the trace hooks gathered.
All of it outlives the instances of a guest.
-/

namespace WasmTrim

/-- What instrumented code has reported. -/
structure TraceLog where
  /-- The fingerprints of functions that ran. -/
  called : List UInt32 := []
  /-- The paths of frozen modules that were loaded. -/
  frozenModules : List String := []
  /-- The names of builtin modules that were loaded. -/
  builtinModules : List String := []
  deriving Repr, DecidableEq, Inhabited

namespace TraceLog

/-- The log with one more function. -/
def addCall (log : TraceLog) (fingerprint : UInt32) : TraceLog :=
  { log with called := insertSorted fingerprint log.called }

/-- The log with one more frozen module. -/
def addFrozen (log : TraceLog) (path : String) : TraceLog :=
  { log with frozenModules := insertSorted path log.frozenModules }

/-- The log with one more builtin module. -/
def addBuiltin (log : TraceLog) (name : String) : TraceLog :=
  { log with builtinModules := insertSorted name log.builtinModules }

end TraceLog

/-- What the host keeps for a guest. -/
structure HostState where
  /-- The contents of registers, by id. -/
  registers : List (UInt64 × ByteArray) := []
  /-- The values of storage keys. -/
  storage : List (List UInt8 × ByteArray) := []
  /-- The input of the present call. -/
  input : ByteArray := .empty
  /-- What instrumented code has reported. -/
  trace : TraceLog := {}
  deriving DecidableEq, Inhabited

namespace HostState

/-- The content of a register. -/
def register? (host : HostState) (id : UInt64) : Option ByteArray :=
  SortedMap.get? id host.registers

/-- The value of a storage key. -/
def stored? (host : HostState) (key : ByteArray) : Option ByteArray :=
  SortedMap.get? key.data.toList host.storage

/-- Sets a register. -/
def setRegister (host : HostState) (id : UInt64) (content : ByteArray) : HostState :=
  { host with registers := SortedMap.insert id content host.registers }

/-- Gives a storage key a value. -/
def store (host : HostState) (key value : ByteArray) : HostState :=
  { host with storage := SortedMap.insert key.data.toList value host.storage }

/-- Takes a key out of storage. -/
def unstore (host : HostState) (key : ByteArray) : HostState :=
  { host with storage := SortedMap.erase key.data.toList host.storage }

end HostState

/-- How grave a note is. -/
inductive Level where
  /-- Something to know. -/
  | info
  /-- Something to look at. -/
  | warn
  deriving Repr, DecidableEq, Inhabited

/-- A line of the log. -/
structure Note where
  /-- How grave it is. -/
  level : Level
  /-- What it says. -/
  text : String
  deriving Repr, DecidableEq, Inhabited

end WasmTrim
