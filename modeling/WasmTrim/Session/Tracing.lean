import WasmTrim.EntryPoints.Basic
import WasmTrim.Session.Basic
import WasmTrim.Text.Utf8

/-!
# Tracing entry points

`Session.trace` calls every entry point once for each of its payloads and replaces the instance
after each call, so calls see each other only through what the host keeps. Traps are noted and
change nothing else; an instance that cannot be replaced ends the tracing.
-/

namespace WasmTrim

namespace EntryPoints

/-- The calls that tracing makes: each entry point's name with each of its payloads, in order. -/
def calls (entries : EntryPoints) : List (String × ByteArray) :=
  entries.flatMap fun e => (payloadsToRun e).map fun payload => (e.name, payload)

end EntryPoints

namespace Session

/-- Calls an entry point with a payload and notes both, and the trap if there is one. -/
def visit (session : Session) (name : String) (payload : ByteArray) : Session :=
  let session := session.note .info s!"running {name}({Utf8.decodeLossy payload})"
  match session.run payload (EntryPoint.split name).2 with
  | (.ok (), session) => session
  | (.error trap, session) => session.note .warn s!"{name} trapped: {trap.reason}"

/-- Makes calls, each on an instance of its own but the first. -/
def visitAll (session : Session) : List (String × ByteArray) → Except SessionError Unit × Session
  | [] => (.ok (), session)
  | (name, payload) :: rest =>
    match (session.visit name payload).reset with
    | (.ok (), session) => visitAll session rest
    | (.error e, session) => (.error e, session)

/-- Calls all entry points with all their payloads and answers what instrumented code has reported
since the trace log was last taken. -/
def trace (session : Session) (entries : EntryPoints) : Except SessionError TraceLog × Session :=
  let (outcome, session) := session.visitAll entries.calls
  (outcome.map fun _ => session.host.trace, session)

end Session

end WasmTrim
