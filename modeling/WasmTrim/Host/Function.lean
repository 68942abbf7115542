import WasmTrim.Guest.Basic
import WasmTrim.Host.State
import WasmTrim.Memory.Words
import WasmTrim.Text.Utf8

/-!
# Functions of the host

What the host does when a guest calls it. Registers and storage work; the calls that tell about
accounts and blocks answer with fixed values; hashing, promises and validators do nothing. Every
range of guest memory is read before anything changes, so a call that traps has no effect.

## Implementation notes

The functions work in place on what the host keeps and on the guest's memory, and a trap undoes
nothing. That a trap leaves no trace is so because of the order of their steps.
-/

namespace WasmTrim

/-- What a function of the host does. -/
inductive HostFunction where
  /-- Takes a report of instrumented code. -/
  | report (hook : TraceHook)
  /-- Copies a register into guest memory. -/
  | readRegister
  /-- Answers the length of a register. -/
  | registerLength
  /-- Copies guest memory into a register. -/
  | writeRegister
  /-- Sets a register to fixed bytes. -/
  | tell (content : ByteArray)
  /-- Sets a register to the input of the present call. -/
  | tellInput
  /-- Ignores its arguments and answers the same each time. -/
  | constant (results : List Value)
  /-- Notes the value that the contract returns. -/
  | returnValue
  /-- Notes that the contract gives up. -/
  | panic
  /-- Notes that the contract gives up, and why. -/
  | panicText
  /-- Notes a line. -/
  | logText
  /-- Notes that a line in two-byte characters is not shown. -/
  | logWideText
  /-- Notes where the contract gives up, and why. -/
  | abort
  /-- Gives a storage key a value. -/
  | storageWrite
  /-- Sets a register to the value of a storage key. -/
  | storageRead
  /-- Takes a key out of storage. -/
  | storageRemove
  /-- Answers whether a storage key has a value. -/
  | storageHasKey
  deriving DecidableEq, Inhabited

/-- What a function of the host works on. It works in place: what was changed before a trap stays
changed. -/
structure HostScope where
  /-- What the host keeps. -/
  host : HostState
  /-- The memory of the guest that calls, as far as the host can see it. -/
  memory : Option GuestMemory
  /-- The lines that were noted. -/
  notes : List Note := []
  deriving DecidableEq, Inhabited

/-- What the host answers when a call does not trap. -/
structure HostReply where
  /-- What the host keeps from then on. -/
  host : HostState
  /-- The guest's memory from then on. -/
  memory : Option GuestMemory
  /-- The results. -/
  results : List Value := []
  /-- The lines that are noted. -/
  notes : List Note := []
  deriving DecidableEq, Inhabited

/-- What the host answers with what a function has left. -/
def HostScope.reply (left : HostScope) (outcome : Except Trap (List Value)) :
    Except Trap HostReply :=
  outcome.map fun results =>
    { host := left.host, memory := left.memory, results, notes := left.notes }

/-- The steps of a function of the host. -/
abbrev Serving := ExceptT Trap (StateM HostScope)

namespace HostFunction

/-- The exported memory of a guest. -/
def exported (memory : Option GuestMemory) : Except Trap GuestMemory :=
  match memory with
  | some memory => .ok memory
  | none => .error .noMemory

/-- The bytes of a range of guest memory. -/
def readRange (memory : Option GuestMemory) (address length : UInt64) : Except Trap ByteArray := do
  let memory ← exported memory
  match GuestMemory.range? memory.size address length with
  | some (start, stop) => return memory.contents.window start.toNat (stop - start).toNat
  | none => throw (.badRange address length memory.size)

/-- The text from an address of guest memory up to its zero byte. -/
def readName (memory : Option GuestMemory) (address : UInt32) : Except Trap String := do
  let memory ← exported memory
  match memory.textAt? address.toNat with
  | some bytes => return Utf8.decodeLossy bytes
  | none => throw (.badText address)

/-- The guest memory with bytes written to a range. -/
def writeRange (memory : Option GuestMemory) (address : UInt64) (bytes : ByteArray) :
    Except Trap GuestMemory := do
  let memory ← exported memory
  match GuestMemory.range? memory.size address bytes.size.toUInt64 with
  | some (start, _) => return { memory with contents := memory.contents.lay start.toNat bytes }
  | none => throw (.badRange address bytes.size.toUInt64 memory.size)

end HostFunction

namespace Serving

/-- Takes the bytes of a range of guest memory. -/
def bytesAt (address length : UInt64) : Serving ByteArray := do
  HostFunction.readRange (← get).memory address length

/-- Takes the text of a range of guest memory. -/
def textAt (address length : UInt64) : Serving String := do
  return Utf8.decodeLossy (← bytesAt address length)

/-- Takes the text from an address of guest memory up to its zero byte. -/
def nameAt (address : UInt32) : Serving String := do
  HostFunction.readName (← get).memory address

/-- Takes the content of a register, which is empty if the register was never set. -/
def register (id : UInt64) : Serving ByteArray := do
  return ((← get).host.register? id).getD .empty

/-- Writes bytes to guest memory. -/
def lay (address : UInt64) (bytes : ByteArray) : Serving Unit := do
  let written ← HostFunction.writeRange (← get).memory address bytes
  modify fun scope => { scope with memory := some written }

/-- Changes what the host keeps. -/
def change (f : HostState → HostState) : Serving Unit :=
  modify fun scope => { scope with host := f scope.host }

/-- Notes a line. -/
def note (level : Level) (text : String) : Serving Unit :=
  modify fun scope => { scope with notes := scope.notes ++ [⟨level, text⟩] }

end Serving

namespace HostFunction

open Serving

/-- What a function of the host does with its arguments, and its results. -/
def serve (function : HostFunction) (arguments : List Value) : Serving (List Value) :=
  match function, arguments with
  | .report .functionCall, [.i32 fingerprint] => do
    change fun host => { host with trace := host.trace.addCall fingerprint }
    return []
  | .report .frozenModuleLoad, [.i32 address] => do
    let path ← nameAt address
    change fun host => { host with trace := host.trace.addFrozen path }
    return []
  | .report .builtinModuleLoad, [.i32 address] => do
    let name ← nameAt address
    change fun host => { host with trace := host.trace.addBuiltin name }
    return []
  | .readRegister, [.i64 id, .i64 address] => do
    lay address (← register id)
    return []
  | .registerLength, [.i64 id] => do
    return [.i64 (← register id).size.toUInt64]
  | .writeRegister, [.i64 id, .i64 length, .i64 address] => do
    let content ← bytesAt address length
    change (·.setRegister id content)
    return []
  | .tell content, [.i64 id] => do
    change (·.setRegister id content)
    return []
  | .tellInput, [.i64 id] => do
    change fun host => host.setRegister id host.input
    return []
  | .constant results, _ => return results
  | .returnValue, [.i64 length, .i64 address] => do
    let value ← bytesAt address length
    note .info s!"value_return: {value.size} bytes: {Utf8.decodeLossy value}"
    return []
  | .panic, _ => do
    note .warn ">>panic"
    return []
  | .panicText, [.i64 length, .i64 address] => do
    note .warn (">>panic: " ++ (← textAt address length))
    return []
  | .logText, [.i64 length, .i64 address] => do
    note .info (">>" ++ (← textAt address length).replace "\n" "\n>>")
    return []
  | .logWideText, _ => do
    note .info "log_utf16: not implemented"
    return []
  | .abort, [.i32 reason, .i32 file, line, column] => do
    let reason ← nameAt reason
    let file ← nameAt file
    note .warn s!"abort: {reason} at {file}@{line.toInt}:{column.toInt}"
    return []
  | .storageWrite, [.i64 keyLength, .i64 keyAddress, .i64 valueLength, .i64 valueAddress, _] => do
    let key ← bytesAt keyAddress keyLength
    let value ← bytesAt valueAddress valueLength
    change (·.store key value)
    return [.i64 1]
  | .storageRead, [.i64 keyLength, .i64 keyAddress, .i64 id] => do
    let key ← bytesAt keyAddress keyLength
    match (← get).host.stored? key with
    | some value =>
      change (·.setRegister id value)
      return [.i64 1]
    | none => return [.i64 0]
  | .storageRemove, [.i64 keyLength, .i64 keyAddress, _] => do
    let key ← bytesAt keyAddress keyLength
    change (·.unstore key)
    return [.i64 1]
  | .storageHasKey, [.i64 keyLength, .i64 keyAddress] => do
    let key ← bytesAt keyAddress keyLength
    let found := ((← get).host.stored? key).isSome
    return [.i64 (if found then 1 else 0)]
  | _, _ => throw .typeMismatch

/-- What the host answers to a call. -/
def answer (function : HostFunction) (host : HostState) (memory : Option GuestMemory)
    (arguments : List Value) : Except Trap HostReply :=
  let (outcome, left) := function.serve arguments { host, memory }
  left.reply outcome

end HostFunction

end WasmTrim
