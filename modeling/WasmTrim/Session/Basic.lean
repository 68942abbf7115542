import WasmTrim.Session.History

/-!
# Sessions

A session runs one guest against the host. The guest's instance can be replaced by a fresh one at
any time; what the host keeps, its registers, its storage, its input and its trace log, lasts as
long as the session.
-/

namespace WasmTrim

/-- Why an operation of a session fails. -/
inductive SessionError where
  /-- The bytes are no module. -/
  | invalid
  /-- The first instance could not be made. -/
  | start (trap : Trap)
  /-- A fresh instance could not be made. -/
  | reset (trap : Trap)
  /-- There is no function of that name to call. -/
  | noExport (name : String)
  /-- The called function trapped. -/
  | trapped (name : String) (trap : Trap)
  /-- The called function did not return a 32-bit word first. -/
  | notAWord (name : String) (first : Option Value)
  /-- The guest exports no memory. -/
  | noMemory
  /-- A range that was to be written does not lie within the memory. -/
  | badWrite (low high : Nat)
  /-- A range that was to be read does not lie within the memory. -/
  | badRead (low high : Nat)
  deriving Repr, DecidableEq, Inhabited

namespace SessionError

/-- What was being done when a failure came up. -/
def context : SessionError → String
  | .invalid => "sandbox::load"
  | .start _ => "sandbox::instantiate"
  | .reset _ => "sandbox::reset"
  | .noExport _ | .trapped .. | .notAWord .. => "sandbox::call_i32"
  | .noMemory => "sandbox::memory"
  | .badWrite .. => "sandbox::write_memory"
  | .badRead .. => "sandbox::read_memory"

/-- What went wrong. -/
def reason : SessionError → String
  | .invalid => "invalid"
  | .start trap | .reset trap => trap.reason
  | .noExport name => s!"Export '{name}' not found"
  | .trapped name trap => s!"Call to '{name}' trapped: {trap.reason}"
  | .notAWord name first =>
    let shown := match first with
      | some value => s!"Some({value.describe})"
      | none => "None"
    s!"'{name}' returned {shown}, expected one i32"
  | .noMemory => "module does not export `memory`"
  | .badWrite low high | .badRead low high => s!"{low}..{high} is outside guest memory"

/-- The report of a failure. -/
def message (e : SessionError) : String :=
  s!"[{e.context}] {e.reason}"

end SessionError

namespace Guest

/-- Makes an instance: the imports must have their types, the data is laid into the blank memory,
and then the guest starts. -/
def instantiate (guest : Guest) (host : HostState) (history : History) : Ending :=
  if guest.imports.all (ImportedFunction.fits guest.imports) then
    match guest.blank.lay? guest.data with
    | none => ⟨.error .outOfBounds, guest.blank, host, history⟩
    | some now =>
      match guest.start? with
      | none => ⟨.ok [], now, host, history⟩
      | some start => (start now).perform guest.exportsMemory host history
  else ⟨.error .importType, guest.blank, host, history⟩

/-- The line that says that an import is not there. -/
def missingNote (imported : ImportedFunction) : Note :=
  ⟨.warn, s!"import {imported.module}.{imported.name} is not emulated, calls will trap"⟩

/-- The history of a session that is about to start: a line for every import that the host does not
have. -/
def warnings (guest : Guest) : History :=
  ((guest.imports.filter (!·.isEmulated)).map fun imported => .note (missingNote imported)).reverse

end Guest

/-- A guest at work. -/
structure Session where
  /-- The guest. -/
  guest : Guest
  /-- Its present instance. -/
  now : Instance
  /-- What the host keeps. -/
  host : HostState
  /-- What happened since the session began. -/
  history : History

namespace Session

/-- Starts a session. The history is there even if the guest's first instance cannot be made. -/
def start (guest : Guest) : Except SessionError Session × History :=
  let ending := guest.instantiate {} guest.warnings
  (match ending.outcome with
    | .ok _ => .ok ⟨guest, ending.now, ending.host, ending.history⟩
    | .error trap => .error (.start trap), ending.history)

/-- Replaces the instance by a fresh one. If that fails, the old one stays; the host keeps what the
start function did up to its trap. -/
def reset (session : Session) : Except SessionError Unit × Session :=
  let ending := session.guest.instantiate session.host session.history
  match ending.outcome with
  | .ok _ =>
    (.ok (), { session with now := ending.now, host := ending.host, history := ending.history })
  | .error trap =>
    (.error (.reset trap), { session with host := ending.host, history := ending.history })

/-- Sets the input for the following calls. -/
def setInput (session : Session) (input : ByteArray) : Session :=
  { session with host := { session.host with input }, history := .input input :: session.history }

/-- Sets a register. -/
def setRegister (session : Session) (id : UInt64) (content : ByteArray) : Session :=
  { session with
    host := session.host.setRegister id content
    history := .register id content :: session.history }

/-- Takes the trace log and starts a new one. -/
def takeTrace (session : Session) : TraceLog × Session :=
  (session.host.trace,
    { session with host := { session.host with trace := {} },
                   history := .traceTaken :: session.history })

/-- Notes a line. -/
def note (session : Session) (level : Level) (text : String) : Session :=
  { session with history := .note ⟨level, text⟩ :: session.history }

/-- Calls an exported function. The host does not see the memory of a guest that passes one of its
imports on. -/
def invoke (session : Session) (function : ExportedFunction) (arguments : List Value) :
    Except Trap (List Value) × Session :=
  let ending := (function.invoke session.now arguments).perform
    (session.guest.exportsMemory && !function.isImport) session.host session.history
  (ending.outcome,
    { session with now := ending.now, host := ending.host, history := ending.history })

/-- Calls an exported function without arguments, with an input. Traps are answered like any other
outcome. -/
def run (session : Session) (input : ByteArray) (name : String) : Except Trap Unit × Session :=
  let session := { session with
    host := { session.host with input }
    history := .run name input :: session.history }
  match session.guest.function? name with
  | none => (.error (.noExport name), session)
  | some function =>
    let (outcome, session) := session.invoke function []
    (outcome.map fun _ => (), session)

/-- Calls an exported function that takes 32-bit words and returns one. -/
def callWord (session : Session) (name : String) (arguments : List UInt32) :
    Except SessionError UInt32 × Session :=
  match session.guest.function? name with
  | none => (.error (.noExport name), session)
  | some function =>
    let (outcome, session) := session.invoke function (arguments.map .i32)
    (match outcome with
      | .error trap => .error (.trapped name trap)
      | .ok (.i32 word :: _) => .ok word
      | .ok results => .error (.notAWord name results.head?), session)

/-- The exported memory. -/
def memory (session : Session) : Except SessionError GuestMemory :=
  match session.guest.exportsMemory, session.now.memory with
  | true, some memory => .ok memory
  | _, _ => .error .noMemory

/-- Reads a range of the exported memory. -/
def read (session : Session) (address length : UInt32) : Except SessionError ByteArray := do
  let memory ← session.memory
  let start := address.toUInt64
  let stop := start + length.toUInt64
  match memory.slice? start stop with
  | some bytes => return bytes
  | none => throw (.badRead start.toNat stop.toNat)

/-- Writes to the exported memory. -/
def write (session : Session) (address : UInt32) (bytes : ByteArray) :
    Except SessionError Session := do
  let memory ← session.memory
  let start := address.toUInt64
  let stop := start + bytes.size.toUInt64
  match memory.replace? start stop bytes with
  | some memory => return { session with now := { session.now with memory := some memory } }
  | none => throw (.badWrite start.toNat stop.toNat)

/-- The lines that were noted since an earlier time of the session. -/
def notesSince (session earlier : Session) : List Note :=
  History.notes (session.history.take (session.history.length - earlier.history.length))

end Session

end WasmTrim
