import WasmTrim.Frozen.Store
import WasmTrim.Session.Basic

/-!
# Compiling sources inside a guest

The runtime that a build starts from compiles the contract's sources itself. `Session.compile` lays
the frozen image into the guest, so that imports resolve as they will later, has the guest allocate
room for the source, its file name and a word that will tell the length, and calls the compiler.
-/

namespace WasmTrim

/-- Why a source cannot be compiled. -/
inductive CompileError where
  /-- The session failed. -/
  | session (cause : SessionError)
  /-- The image cannot be made. -/
  | pack (cause : PackError)
  /-- The compiler returned nothing. -/
  | nothing (file : String)
  deriving Repr, DecidableEq, Inhabited

/-- The report of a failure. -/
def CompileError.message : CompileError → String
  | .session cause => cause.message
  | .pack cause => cause.message
  | .nothing file => s!"compiling {file} produced no bytecode"

/-- Steps that work on a session and may fail. -/
abbrev Compiling := ExceptT CompileError (StateM Session)

namespace Compiling

/-- The guest's function that allocates. -/
def allocator : String := "_alloc_buffer"

/-- The guest's function that compiles. -/
def compiler : String := "_compile_contract_source"

/-- Calls a function of the guest. -/
def call (name : String) (arguments : List UInt32) : Compiling UInt32 := fun session =>
  let (outcome, session) := session.callWord name arguments
  (outcome.mapError .session, session)

/-- Writes to the guest's memory. -/
def write (address : UInt32) (bytes : ByteArray) : Compiling Unit := fun session =>
  match session.write address bytes with
  | .ok session => (.ok (), session)
  | .error e => (.error (.session e), session)

/-- Reads from the guest's memory. -/
def read (address length : UInt32) : Compiling ByteArray := fun session =>
  ((session.read address length).mapError .session, session)

/-- Lays the frozen image into the guest's memory. -/
def layImage (store : FrozenStore) : Compiling Unit :=
  match store.image with
  | .error e => throw (.pack e)
  | .ok image => write Frozen.baseAddress.toUInt32 image

/-- Copies a text and a zero byte to where the guest allocates room for them. -/
def copyText (text : String) : Compiling UInt32 := do
  let bytes := text.toUTF8.push 0
  let address ← call allocator [bytes.size.toUInt32]
  write address bytes
  return address

/-- Compiles a source and answers what the guest's compiler made of it. -/
def compile (store : FrozenStore) (source file : String) : Compiling ByteArray := do
  layImage store
  let lengthAddress ← call allocator [4]
  let sourceAddress ← copyText source
  let fileAddress ← copyText file
  let address ← call compiler [sourceAddress, fileAddress, lengthAddress]
  if address = 0 then throw (.nothing file)
  let length := word32At (← read lengthAddress 4) 0
  read address length

end Compiling

/-- Compiles a source inside the guest. -/
def Session.compile (session : Session) (store : FrozenStore) (source file : String) :
    Except CompileError ByteArray × Session :=
  Compiling.compile store source file session

end WasmTrim
