import WasmTrim.Proofs.Session.MemoryAccess
import WasmTrim.Session.SourceCompilation

/-!
# The course of a compilation

`Compiling.prepare` is all that is done before a guest's compiler is called, and
`Compiling.conclude` is the call and what follows it. The compiler has no part in the first:
whatever function stands in its place, the same is done. Its answer decides the second, and
`Compiling.Concludes` says how.
-/

namespace WasmTrim

open Stateful

namespace Session

variable {session later : Session} {memory : GuestMemory} {address length : UInt32}
variable {bytes : ByteArray}

/-- The session of a guest with another compiler, or with none. -/
def withCompiler (session : Session) (other : Option ExportedFunction) : Session :=
  { session with guest := { session.guest with
      function? := fun name =>
        if name = Compiling.compiler then other else session.guest.function? name } }

theorem read_eq_ok_iff : session.read address length = .ok bytes ↔
    ∃ memory, session.memory = .ok memory ∧ bytes.size = length.toNat ∧
      memory.Holds address.toNat bytes := by
  cases hmemory : session.memory with
  | error cause =>
      have hread : session.read address length = .error cause := by
        rw [read, hmemory]
        rfl
      rw [hread]
      constructor
      · intro h
        cases h
      · rintro ⟨memory, h, _⟩
        cases h
  | ok memory =>
      simp only [read_eq hmemory, Except.ok.injEq, exists_eq_left', ← GuestMemory.read?_eq_some_iff]
      cases memory.read? address.toNat length.toNat <;> simp

theorem guest_of_callWord {name : String} {arguments : List UInt32}
    {answer : Except SessionError UInt32} (h : session.callWord name arguments = (answer, later)) :
    later.guest = session.guest := by
  rw [callWord] at h
  split at h <;> cases h <;> rfl

theorem after_write (h : session.write address bytes = .ok later) :
    session.after (.write address bytes) = later := by
  rw [after, h]
  rfl

end Session

namespace Compiling

variable {α β : Type} {steps : Compiling α} {next : α → Compiling β}
variable {store : FrozenStore} {source file : String} {session ready later : Session}
variable {memory : GuestMemory} {cause : CompileError} {address lengthAddress s f l : UInt32}
variable {bytes : ByteArray}

/-- All that is done before a guest's compiler is called: lays the image, and answers the addresses
of the source, of the name of its file, and of the word for the length. -/
def prepare (store : FrozenStore) (source file : String) :
    Compiling (UInt32 × UInt32 × UInt32) := do
  layImage store
  let lengthAddress ← call allocator [4]
  let sourceAddress ← copyText source
  let fileAddress ← copyText file
  return (sourceAddress, fileAddress, lengthAddress)

/-- Reads as many bytes as the word at another address says. -/
def fetch (address lengthAddress : UInt32) : Compiling ByteArray := do
  let length := word32At (← read lengthAddress 4) 0
  read address length

/-- Calls the compiler and fetches what it made. -/
def conclude (file : String) (sourceAddress fileAddress lengthAddress : UInt32) :
    Compiling ByteArray := do
  let address ← call compiler [sourceAddress, fileAddress, lengthAddress]
  if address = 0 then throw (.nothing file)
  fetch address lengthAddress

/-- Compiling is preparing and concluding. -/
theorem compile_eq (store : FrozenStore) (source file : String) :
    compile store source file = prepare store source file >>= fun (s, f, l) =>
      conclude file s f l := by
  simp only [compile, prepare, conclude, fetch, bind_assoc, pure_bind]

theorem compile_of_error (h : prepare store source file session = (.error cause, later)) :
    session.compile store source file = (.error cause, later) := by
  rw [Session.compile, compile_eq]
  exact bind_apply_error h

theorem compile_of_ok (h : prepare store source file session = (.ok (s, f, l), ready)) :
    session.compile store source file = conclude file s f l ready := by
  rw [Session.compile, compile_eq, bind_apply_ok h]

/-! ### Single steps -/

theorem call_of_ok {name : String} {arguments : List UInt32} {word : UInt32}
    (h : session.callWord name arguments = (.ok word, later)) :
    call name arguments session = (.ok word, later) := by
  rw [call, h]
  rfl

theorem write_of_ok (h : session.write address bytes = .ok later) :
    write address bytes session = (.ok (), later) := by
  rw [write, h]

theorem write_of_error {cause : SessionError} (h : session.write address bytes = .error cause) :
    write address bytes session = (.error (.session cause), session) := by
  rw [write, h]

theorem read_of_ok {length : UInt32} (h : session.read address length = .ok bytes) :
    read address length session = (.ok bytes, session) := by
  rw [read, h]
  rfl

theorem read_of_error {length : UInt32} {cause : SessionError}
    (h : session.read address length = .error cause) :
    read address length session = (.error (.session cause), session) := by
  rw [read, h]
  rfl

/-- A text is copied to where the allocator says. -/
theorem copyText_of_ok {text : String} {given : Session}
    (hcall : session.callWord allocator [(text.toUTF8.push 0).size.toUInt32] = (.ok address, given))
    (hwrite : given.write address (text.toUTF8.push 0) = .ok later) :
    copyText text session = (.ok address, later) := by
  rw [copyText, bind_apply_ok (call_of_ok hcall), bind_apply_ok (write_of_ok hwrite)]
  rfl

/-! ### Before the compiler is called -/

/-- Steps that do the same whatever the guest's compiler is. -/
def Blind (steps : Compiling α) : Prop :=
  ∀ (session : Session) (other : Option ExportedFunction),
    steps (session.withCompiler other) = ((steps session).1, (steps session).2.withCompiler other)

theorem Blind.bind (h : Blind steps) (hnext : ∀ a, Blind (next a)) : Blind (steps >>= next) := by
  intro session other
  have hother := h session other
  cases hsteps : steps session with
  | mk outcome left =>
      rw [hsteps] at hother
      cases outcome with
      | error cause => rw [bind_apply_error hsteps, bind_apply_error hother]
      | ok a => rw [bind_apply_ok hsteps, bind_apply_ok hother, hnext a left other]

theorem blind_pure (a : α) : Blind (pure a : Compiling α) := fun _ _ => rfl

theorem blind_throw (cause : CompileError) : Blind (throw cause : Compiling α) := fun _ _ => rfl

theorem blind_call {name : String} (h : name ≠ compiler) (arguments : List UInt32) :
    Blind (call name arguments) := by
  intro session other
  have hfunction : (session.withCompiler other).guest.function? name =
      session.guest.function? name := if_neg h
  rw [call, call, Session.callWord, Session.callWord, hfunction]
  cases session.guest.function? name <;> rfl

theorem blind_write (address : UInt32) (bytes : ByteArray) : Blind (write address bytes) := by
  intro session other
  have hmemory : (session.withCompiler other).memory = session.memory := rfl
  rw [write, write, Session.write, Session.write, hmemory]
  cases session.memory with
  | error cause => rfl
  | ok memory =>
      simp only [bind, Except.bind]
      cases memory.replace? address.toUInt64 (address.toUInt64 + bytes.size.toUInt64) bytes <;> rfl

theorem blind_layImage (store : FrozenStore) : Blind (layImage store) := by
  rw [layImage]
  cases store.image with
  | error cause => exact blind_throw (.pack cause)
  | ok image => exact blind_write _ image

theorem blind_copyText (text : String) : Blind (copyText text) :=
  (blind_call (by decide) _).bind fun address =>
    (blind_write address _).bind fun _ => blind_pure address

/-- The compiler has no part in what is done before it is called. -/
theorem blind_prepare (store : FrozenStore) (source file : String) :
    Blind (prepare store source file) :=
  (blind_layImage store).bind fun _ => (blind_call (by decide) _).bind fun _ =>
    (blind_copyText source).bind fun _ => (blind_copyText file).bind fun _ => blind_pure _

/-! ### The compiler's answer -/

/-- Fetching leaves the session as it is, and what is fetched is read in two steps. -/
theorem fetch_spec (address lengthAddress : UInt32) (session : Session) :
    (fetch address lengthAddress session).2 = session ∧
    ∀ bytes, (fetch address lengthAddress session).1 = .ok bytes ↔
      ∃ n, session.read lengthAddress 4 = .ok (word32Bytes n) ∧
        session.read address n = .ok bytes := by
  cases hcell : session.read lengthAddress 4 with
  | error cause =>
      have hfetch : fetch address lengthAddress session = (.error (.session cause), session) :=
        bind_apply_error (read_of_error hcell)
      rw [hfetch]
      exact ⟨rfl, fun bytes => ⟨nofun, nofun⟩⟩
  | ok cell =>
      obtain ⟨_, _, hsize, _⟩ := Session.read_eq_ok_iff.mp hcell
      obtain ⟨n, rfl⟩ : ∃ n, cell = word32Bytes n := ⟨_, (word32Bytes_word32At hsize).symm⟩
      have hfetch : fetch address lengthAddress session = read address n session := by
        refine (bind_apply_ok (read_of_ok hcell)).trans ?_
        rw [word32At_word32Bytes]
      rw [hfetch]
      refine ⟨rfl, fun bytes => ⟨fun h => ⟨n, rfl, ?_⟩, ?_⟩⟩
      · cases hread : session.read address n with
        | error cause =>
            rw [read_of_error hread] at h
            cases h
        | ok found =>
            rw [read_of_ok hread] at h
            rw [Except.ok.inj h]
      · rintro ⟨m, hm, hread⟩
        have hword := congrArg (word32At · 0) (Except.ok.inj hm)
        simp only [word32At_word32Bytes] at hword
        rw [hword, read_of_ok hread]

/-- What is fetched are the bytes at an address, as many as the word at another one says. -/
theorem fetch_eq_ok_iff : (fetch address lengthAddress session).1 = .ok bytes ↔
    ∃ n memory, session.memory = .ok memory ∧ memory.Holds lengthAddress.toNat (word32Bytes n) ∧
      bytes.size = n.toNat ∧ memory.Holds address.toNat bytes := by
  rw [(fetch_spec address lengthAddress session).2]
  constructor
  · rintro ⟨n, hcell, hread⟩
    obtain ⟨memory, hmemory, _, hword⟩ := Session.read_eq_ok_iff.mp hcell
    obtain ⟨memory', hmemory', hsize, hbytes⟩ := Session.read_eq_ok_iff.mp hread
    cases hmemory.symm.trans hmemory'
    exact ⟨n, memory, hmemory, hword, hsize, hbytes⟩
  · rintro ⟨n, memory, hmemory, hword, hsize, hbytes⟩
    exact ⟨n, Session.read_eq_ok_iff.mpr ⟨memory, hmemory, rfl, hword⟩,
      Session.read_eq_ok_iff.mpr ⟨memory, hmemory, hsize, hbytes⟩⟩

/-- How a compilation goes on from the compiler's answer, and from the session that it leaves. -/
structure Concludes (file : String) (lengthAddress : UInt32) (answer : Except SessionError UInt32)
    (later : Session) (result : Except CompileError ByteArray × Session) : Prop where
  /-- Nothing is changed after the call. -/
  left : result.2 = later
  /-- A call that fails is reported. -/
  failed : ∀ cause, answer = .error cause → result.1 = .error (.session cause)
  /-- A null pointer is reported as nothing, whatever the memory is. -/
  nothing : answer = .ok 0 → result.1 = .error (.nothing file)
  /-- Any other pointer is where the result starts, and the word that the compiler was given room
  for tells its length. There is no other result. -/
  made : ∀ bytes, result.1 = .ok bytes ↔ ∃ r, answer = .ok r ∧ r ≠ 0 ∧
    ∃ n memory, later.memory = .ok memory ∧ memory.Holds lengthAddress.toNat (word32Bytes n) ∧
      bytes.size = n.toNat ∧ memory.Holds r.toNat bytes

theorem concludes {answer : Except SessionError UInt32}
    (h : ready.callWord compiler [s, f, l] = (answer, later)) :
    Concludes file l answer later (conclude file s f l ready) := by
  have hcall : call compiler [s, f, l] ready = (answer.mapError .session, later) := by
    rw [call, h]
  cases answer with
  | error cause =>
      have hconclude : conclude file s f l ready = (.error (.session cause), later) :=
        bind_apply_error hcall
      rw [hconclude]
      refine ⟨rfl, ?_, nofun, fun bytes => by simp⟩
      rintro _ ⟨⟩
      rfl
  | ok r =>
      by_cases hzero : r = 0
      · have hconclude : conclude file s f l ready = (.error (.nothing file), later) := by
          rw [conclude, bind_apply_ok hcall, if_pos hzero]
          rfl
        rw [hconclude]
        exact ⟨rfl, nofun, fun _ => rfl, fun bytes => by simp [hzero]⟩
      · have hconclude : conclude file s f l ready = fetch r l later := by
          rw [conclude, bind_apply_ok hcall, if_neg hzero]
        rw [hconclude]
        refine ⟨(fetch_spec r l later).1, nofun, fun h => absurd (Except.ok.inj h) hzero, ?_⟩
        intro bytes
        rw [fetch_eq_ok_iff]
        simp [hzero]

end Compiling

end WasmTrim
