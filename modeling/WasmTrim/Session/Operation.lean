import WasmTrim.Session.Basic

/-!
# Operations of a session

What can be done with a session, as data, so that a whole course of a session is a list. The answer
of an operation is left out, except for the logs that are taken.
-/

namespace WasmTrim

namespace Session

/-- What can be done with a session. -/
inductive Operation where
  /-- Runs an exported function with an input. -/
  | run (input : ByteArray) (name : String)
  /-- Calls an exported function that takes 32-bit words and returns one. -/
  | callWord (name : String) (arguments : List UInt32)
  /-- Replaces the instance by a fresh one. -/
  | reset
  /-- Sets the input for the following calls. -/
  | setInput (input : ByteArray)
  /-- Sets a register. -/
  | setRegister (id : UInt64) (content : ByteArray)
  /-- Writes to the exported memory. -/
  | write (address : UInt32) (bytes : ByteArray)
  /-- Takes the trace log and starts a new one. -/
  | takeTrace
  /-- Notes a line. -/
  | note (level : Level) (text : String)
  deriving DecidableEq, Inhabited

/-- The session after an operation, which may have failed. -/
def after (session : Session) : Operation → Session
  | .run input name => (session.run input name).2
  | .callWord name arguments => (session.callWord name arguments).2
  | .reset => session.reset.2
  | .setInput input => session.setInput input
  | .setRegister id content => session.setRegister id content
  | .write address bytes => (session.write address bytes).toOption.getD session
  | .takeTrace => session.takeTrace.2
  | .note level text => session.note level text

/-- The session after operations, one after another. -/
def afterAll (session : Session) (operations : List Operation) : Session :=
  operations.foldl after session

/-- The trace logs that operations take, in their order. -/
def logsTaken (session : Session) : List Operation → List TraceLog
  | [] => []
  | .takeTrace :: rest => session.takeTrace.1 :: logsTaken session.takeTrace.2 rest
  | operation :: rest => logsTaken (session.after operation) rest

@[simp] theorem afterAll_nil (session : Session) : session.afterAll [] = session := rfl

@[simp] theorem afterAll_cons (session : Session) (operation : Operation)
    (rest : List Operation) :
    session.afterAll (operation :: rest) = (session.after operation).afterAll rest := rfl

end Session

end WasmTrim
