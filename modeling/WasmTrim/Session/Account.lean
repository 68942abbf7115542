import WasmTrim.Session.History

/-!
# What a history tells

A history holds every call that a guest made to its host. From the calls alone, by their names,
their arguments and the memory that they pointed into, one can tell what storage and registers hold
and what the trace log has to say. This says nothing of how the host arrives at any of them.

## Implementation notes

What a call puts into a register may be what was stored before, or the input of that time. Both are
told by the events before the call, so the change that a call makes to registers is told from the
call and the history that it was added to.
-/

namespace WasmTrim

/-- One thing that instrumented code reports. -/
inductive Evidence where
  /-- A function with a fingerprint ran. -/
  | called (fingerprint : UInt32)
  /-- A frozen module was loaded. -/
  | frozenModule (path : String)
  /-- A builtin module was loaded. -/
  | builtinModule (name : String)
  deriving Repr, DecidableEq, Inhabited

namespace TraceLog

/-- Tells whether a log holds a piece of evidence. -/
def Holds (log : TraceLog) : Evidence → Prop
  | .called fingerprint => fingerprint ∈ log.called
  | .frozenModule path => path ∈ log.frozenModules
  | .builtinModule name => name ∈ log.builtinModules

end TraceLog

namespace HostCall

/-- Tells whether a call went to the host's function of a name. -/
def calls (call : HostCall) (name : String) : Bool :=
  call.callee.module = hostModule && call.callee.name = name

/-- The bytes of a range of the memory that the host saw. -/
def bytes? (call : HostCall) (address length : UInt64) : Option ByteArray :=
  call.memory.bind (·.read? address.toNat length.toNat)

/-- The text at an address of the memory that the host saw, broken sequences replaced. -/
def text? (call : HostCall) (address : UInt32) : Option String :=
  (call.memory.bind (·.textAt? address.toNat)).map Utf8.decodeLossy

/-- Tells whether the host returned from the call. -/
def returned (call : HostCall) : Bool :=
  match call.reply with
  | .ok _ => true
  | .error _ => false

/-- The key that a call writes or removes, and the value that it writes. -/
def storageChange? (call : HostCall) : Option (ByteArray × Option ByteArray) :=
  if call.returned then
    match call.arguments with
    | [.i64 keyLength, .i64 keyAddress, .i64 valueLength, .i64 valueAddress, _] =>
      if call.calls "storage_write" then do
        let key ← call.bytes? keyAddress keyLength
        let value ← call.bytes? valueAddress valueLength
        return (key, some value)
      else none
    | [.i64 keyLength, .i64 keyAddress, _] =>
      if call.calls "storage_remove" then do
        let key ← call.bytes? keyAddress keyLength
        return (key, none)
      else none
    | _ => none
  else none

/-- The calls that put the same bytes into a register each time, with these bytes: names of
accounts, amounts as sixteen bytes, and a seed of thirty-two. -/
def fixedContents : List (String × ByteArray) :=
  [("current_account_id", HostImport.currentAccount.toUTF8),
   ("signer_account_pk", HostImport.signerKey.toUTF8),
   ("signer_account_id", HostImport.signer.toUTF8),
   ("predecessor_account_id", HostImport.predecessor.toUTF8),
   ("account_balance", word128Bytes HostImport.accountBalance),
   ("account_locked_balance", word128Bytes HostImport.lockedBalance),
   ("attached_deposit", word128Bytes HostImport.attachedDeposit),
   ("random_seed", word128Bytes HostImport.randomSeed ++ zeros 16)]

/-- The names of all calls that set registers. -/
def registerSetters : List String :=
  ["write_register", "storage_read", "input"] ++ fixedContents.map (·.1)

/-- What a call reports: the argument of `trace_function_call`, and what is written at the argument
of the two hooks for loads if they returned. -/
def evidence? (call : HostCall) : Option Evidence :=
  match call.arguments with
  | [.i32 argument] =>
    if call.calls "trace_function_call" then some (.called argument)
    else if call.calls "trace_frozen_module_load" && call.returned then
      (call.text? argument).map .frozenModule
    else if call.calls "trace_builtin_module_load" && call.returned then
      (call.text? argument).map .builtinModule
    else none
  | _ => none

end HostCall

/-- A map from keys to values with the change that an event makes to storage. -/
def Event.changeStorage (event : Event) (map : ByteArray → Option ByteArray) :
    ByteArray → Option ByteArray :=
  match event with
  | .hostCall call =>
    match call.storageChange? with
    | some (changed, value?) => fun key => if key = changed then value? else map key
    | none => map
  | _ => map

namespace History

/-- The storage that a history tells of: what the calls that write and remove keys make of an empty
map, from the oldest call on. -/
def storage (history : History) : ByteArray → Option ByteArray :=
  history.foldr Event.changeStorage fun _ => none

/-- The input that a history tells of: the latest one that came with a run or was set by itself. -/
def input : History → ByteArray
  | [] => .empty
  | .run _ bytes :: _ => bytes
  | .input bytes :: _ => bytes
  | _ :: earlier => input earlier

/-- Tells whether a call in the history reports a piece of evidence. -/
def Reports (history : History) (evidence : Evidence) : Prop :=
  ∃ call, .hostCall call ∈ history ∧ call.evidence? = some evidence

/-- What happened since the trace log was last taken, or since the history began. -/
def sinceTaken : History → History
  | [] => []
  | .traceTaken :: _ => []
  | event :: earlier => event :: sinceTaken earlier

/-- The runs of exported functions, the latest first. -/
def runs (history : History) : List (String × ByteArray) :=
  history.filterMap fun
    | .run name input => some (name, input)
    | _ => none

end History

/-- The register that a call sets, and its content from then on. A call that returned copies guest
memory, a stored value, the input of that time, or bytes that are always the same. -/
def HostCall.registerChange? (call : HostCall) (earlier : History) :
    Option (UInt64 × ByteArray) :=
  if call.returned then
    match call.arguments with
    | [.i64 first, .i64 second, .i64 third] =>
      if call.calls "write_register" then do
        let content ← call.bytes? third second
        return (first, content)
      else if call.calls "storage_read" then do
        let key ← call.bytes? second first
        let value ← earlier.storage key
        return (third, value)
      else none
    | [.i64 id] =>
      if call.calls "input" then some (id, earlier.input)
      else
        match fixedContents.find? fun fixed => call.calls fixed.1 with
        | some fixed => some (id, fixed.2)
        | none => none
    | _ => none
  else none

/-- The register that an event sets, and its content from then on. -/
def Event.registerChange? (event : Event) (earlier : History) : Option (UInt64 × ByteArray) :=
  match event with
  | .hostCall call => call.registerChange? earlier
  | .register id content => some (id, content)
  | _ => none

/-- A map from ids to contents with the change that an event makes to registers. -/
def Event.changeRegisters (event : Event) (earlier : History) (map : UInt64 → Option ByteArray) :
    UInt64 → Option ByteArray :=
  match event.registerChange? earlier with
  | some (changed, content) => fun id => if id = changed then some content else map id
  | none => map

namespace History

/-- The registers that a history tells of: what the events that set them make of none, from the
oldest event on. -/
def registers : History → UInt64 → Option ByteArray
  | [] => fun _ => none
  | event :: earlier => event.changeRegisters earlier (registers earlier)

/-- Tells that none of the events that followed a history sets a register. -/
def Spares (id : UInt64) (earlier : History) : History → Prop
  | [] => True
  | event :: rest =>
    (∀ content, event.registerChange? (rest ++ earlier) ≠ some (id, content)) ∧
      Spares id earlier rest

end History

end WasmTrim
