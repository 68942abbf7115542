import WasmTrim.Host.Imports

/-!
# Histories

What happened in a session, the latest event first: the calls that the guest made to its host, with
what they answered, and what the session's user did to the host meanwhile.

`Activity.perform` carries a guest through one call and adds every call of the host to the history.
-/

namespace WasmTrim

/-- A call that a guest made to its host. -/
structure HostCall where
  /-- The import that was called. -/
  callee : ImportedFunction
  /-- The arguments. -/
  arguments : List Value
  /-- What the host kept at that time. -/
  host : HostState
  /-- The guest's memory at that time, as far as the host could see it. -/
  memory : Option GuestMemory
  /-- What the host answered. -/
  reply : Except Trap HostReply

/-- Something that happened in a session. -/
inductive Event where
  /-- The guest called its host. -/
  | hostCall (call : HostCall)
  /-- An exported function was run with an input. -/
  | run (name : String) (input : ByteArray)
  /-- The input for the following calls was set. -/
  | input (bytes : ByteArray)
  /-- A register was set from outside. -/
  | register (id : UInt64) (content : ByteArray)
  /-- The trace log was taken, and starts anew. -/
  | traceTaken
  /-- A line was noted. -/
  | note (line : Note)

namespace Event

/-- The lines that an event noted. -/
def notes : Event → List Note
  | .hostCall call =>
    match call.reply with
    | .ok reply => reply.notes
    | .error _ => []
  | .note line => [line]
  | _ => []

end Event

/-- What happened so far, the latest event first. -/
abbrev History := List Event

namespace History

/-- The lines that were noted, in their order. -/
def notes (history : History) : List Note :=
  history.foldl (fun notes event => event.notes ++ notes) []

end History

/-- How a call ended. -/
structure Ending where
  /-- The results, or why there are none. -/
  outcome : Except Trap (List Value)
  /-- The instance from then on. -/
  now : Instance
  /-- What the host keeps from then on. -/
  host : HostState
  /-- What happened so far. -/
  history : History

/-- Carries a guest through a call. The host sees the guest's memory only if it is `visible`. -/
def Activity.perform (visible : Bool) (host : HostState) (history : History) : Activity → Ending
  | .done now results => ⟨.ok results, now, host, history⟩
  | .trapped now trap => ⟨.error trap, now, host, history⟩
  | .hostCall now callee arguments resume =>
    let memory := if visible then now.memory else none
    let (outcome, left) := callee.serve arguments { host, memory }
    let call := { callee, arguments, host, memory, reply := left.reply outcome }
    let now := if visible then { now with memory := left.memory } else now
    match outcome with
    | .error trap => ⟨.error trap, now, left.host, .hostCall call :: history⟩
    | .ok results => (resume now results).perform visible left.host (.hostCall call :: history)

end WasmTrim
