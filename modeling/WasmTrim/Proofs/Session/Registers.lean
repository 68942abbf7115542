import Mathlib
import WasmTrim.Proofs.Session.MemoryAccess
import WasmTrim.Proofs.Session.Storage

/-!
# Registers over a session

The registers of a session are the map that the calls which set them make of an empty one, whichever
operation they were made in and however it ended. Asking for the length of a register, and copying
it into guest memory, go by that map at any time. So what was copied into a register comes out of it
as it was then, whatever became of the memory meanwhile.

`Session.registers_of_afterAll` has all of this, for whatever operations followed the start of a
session. The calls which set registers are those of `write_register`, those of `storage_read` that
found a value, those of `input`, and those with fixed contents; besides, only the session's user
sets any, in an operation of that name. Starting over adds only calls of the start function. Calls
that trapped, and calls of all other functions, leave the registers as they are, and a copy comes
out as long as nothing else was put into its register.

## Implementation notes

What a call puts into a register may come from storage or from the input, so that the history
accounts for registers is proved after it was proved that it accounts for these two.
-/

namespace WasmTrim

/-- A memory after bytes were copied to an address: they show from there on, and nothing else is
changed. -/
structure GuestMemory.Copied (memory written : GuestMemory) (place : Nat) (bytes : ByteArray) :
    Prop where
  /-- The size is the same. -/
  size_eq : written.size = memory.size
  /-- The bytes show at their addresses, and what was there before shows at all others. -/
  byteAt_eq : ∀ a, written.contents.byteAt a =
    if place ≤ a ∧ a < place + bytes.size then byteAt bytes (a - place)
    else memory.contents.byteAt a

namespace HostState

theorem register?_setRegister (host : HostState) (id id' : UInt64) (content : ByteArray) :
    (host.setRegister id content).register? id' =
      if id' = id then some content else host.register? id' :=
  SortedMap.get?_insert ..

end HostState

namespace HostFunction

open Serving Stateful

variable {function : HostFunction} {arguments results : List Value} {scope left : HostScope}

/-- What a call that copied memory into a register has done. -/
theorem eq_of_writeRegister (hfunction : function = .writeRegister)
    (h : function.serve arguments scope = (.ok results, left)) :
    ∃ id length address content, arguments = [.i64 id, .i64 length, .i64 address] ∧
      scope.memory.bind (·.read? address.toNat length.toNat) = some content ∧
      left.host = scope.host.setRegister id content := by
  rw [serve.eq_def] at h
  split at h <;> try cases hfunction
  · obtain ⟨content, _, hcontent, hlast⟩ := bind_eq_ok h
    obtain ⟨rfl, hcontent⟩ := eq_of_bytesAt hcontent
    cases hlast
    exact ⟨_, _, _, content, rfl, hcontent, rfl⟩
  · cases h

/-- What a call that told something fixed has done. -/
theorem eq_of_tell {content : ByteArray} (hfunction : function = .tell content)
    (h : function.serve arguments scope = (.ok results, left)) :
    ∃ id, arguments = [.i64 id] ∧ left.host = scope.host.setRegister id content := by
  rw [serve.eq_def] at h
  split at h <;> try cases hfunction
  · cases h
    exact ⟨_, rfl, rfl⟩
  · cases h

/-- What a call that told the input has done. -/
theorem eq_of_tellInput (hfunction : function = .tellInput)
    (h : function.serve arguments scope = (.ok results, left)) :
    ∃ id, arguments = [.i64 id] ∧ left.host = scope.host.setRegister id scope.host.input := by
  rw [serve.eq_def] at h
  split at h <;> try cases hfunction
  · cases h
    exact ⟨_, rfl, rfl⟩
  · cases h

/-- What a call that asked for a stored value has done. -/
theorem eq_of_storageRead (hfunction : function = .storageRead)
    (h : function.serve arguments scope = (.ok results, left)) :
    ∃ keyLength keyAddress id key, arguments = [.i64 keyLength, .i64 keyAddress, .i64 id] ∧
      scope.memory.bind (·.read? keyAddress.toNat keyLength.toNat) = some key ∧
      left.host = match scope.host.stored? key with
        | some value => scope.host.setRegister id value
        | none => scope.host := by
  rw [serve.eq_def] at h
  split at h <;> try cases hfunction
  · obtain ⟨key, _, hkey, hlast⟩ := bind_eq_ok h
    obtain ⟨rfl, hkey⟩ := eq_of_bytesAt hkey
    refine ⟨_, _, _, key, rfl, hkey, ?_⟩
    rw [bind_get] at hlast
    cases hstored : HostState.stored? _ key with
    | none =>
        rw [hstored] at hlast
        cases hlast
        rfl
    | some value =>
        rw [hstored] at hlast
        cases hlast
        rfl
  · cases h

/-- Bytes that could be written are copied to their address, however many there are. -/
theorem copied_of_writeRange {memory : Option GuestMemory} {address : UInt64} {bytes : ByteArray}
    {written : GuestMemory} (h : writeRange memory address bytes = .ok written) :
    ∃ given, memory = some given ∧ given.Copied written address.toNat bytes := by
  obtain ⟨given, hgiven, htake⟩ := exported_bind_eq_ok_iff.mp h
  refine ⟨given, hgiven, ?_⟩
  rw [GuestMemory.range?] at htake
  cases hstop : checkedAdd? address bytes.size.toUInt64 with
  | none =>
      rw [hstop] at htake
      cases htake
  | some stop =>
      simp only [hstop] at htake
      split at htake
      · next start stop' hrange =>
        split at hrange
        · cases hrange
          cases htake
          exact ⟨rfl, given.contents.byteAt_lay address.toNat bytes⟩
        · cases hrange
      · cases htake

/-- Bytes can be written where their range lies within the memory. -/
theorem exists_writeRange_iff {memory : Option GuestMemory} {address : UInt64} {bytes : ByteArray}
    (hbytes : bytes.size < 0x10000000000000000) :
    (∃ written, writeRange memory address bytes = .ok written) ↔
      ∃ given, memory = some given ∧ address.toNat + bytes.size ≤ given.size := by
  cases memory with
  | none => simp [writeRange, exported, bind, Except.bind]
  | some given =>
      rw [writeRange_eq given address hbytes, GuestMemory.write?]
      split <;> simp_all

/-- A register is copied into memory as it is; one that was never set has no bytes. -/
theorem answer_readRegister (host : HostState) (memory : Option GuestMemory)
    (id address : UInt64) :
    readRegister.answer host memory [.i64 id, .i64 address] =
      (writeRange memory address ((host.register? id).getD .empty)).map fun written =>
        { host, memory := some written } := by
  have hserve : readRegister.serve [.i64 id, .i64 address] =
      (register id >>= fun content => lay address content >>= fun _ => pure []) := rfl
  have hregister : register id { host, memory } =
      (.ok ((host.register? id).getD .empty), { host, memory }) := rfl
  rw [answer, hserve, bind_apply_ok hregister]
  cases hwrite : writeRange memory address ((host.register? id).getD .empty) with
  | error trap =>
      have hlay : lay address ((host.register? id).getD .empty) { host, memory } =
          (.error trap, { host, memory }) := by
        rw [lay_apply, hwrite]
      rw [bind_apply_error hlay]
      rfl
  | ok written =>
      have hlay : lay address ((host.register? id).getD .empty) { host, memory } =
          (.ok (), { host, memory := some written }) := by
        rw [lay_apply, hwrite]
      rw [bind_apply_ok hlay]
      rfl

end HostFunction

namespace HostImport

variable {offered : HostImport}

theorem name_eq_write_register_iff (h : offered ∈ all) :
    offered.name = "write_register" ↔ offered.function = .writeRegister := by
  revert offered
  decide

theorem name_eq_storage_read_iff (h : offered ∈ all) :
    offered.name = "storage_read" ↔ offered.function = .storageRead := by
  revert offered
  decide

theorem name_eq_input_iff (h : offered ∈ all) :
    offered.name = "input" ↔ offered.function = .tellInput := by
  revert offered
  decide

/-- The fixed contents are those that the host's functions tell. -/
theorem find?_fixedContents (h : offered ∈ all) :
    (HostCall.fixedContents.find? fun fixed => offered.name = fixed.1) =
      match offered.function with
      | .tell content => some (offered.name, content)
      | _ => none := by
  revert offered
  decide +kernel

theorem setsRegister_of_mem_registerSetters (h : offered ∈ all)
    (hname : offered.name ∈ HostCall.registerSetters) : offered.function.setsRegister = true := by
  revert offered
  decide +kernel

end HostImport

namespace HostCall

variable {call : HostCall} {outcome : Except Trap (List Value)} {left : HostScope}
variable {earlier : History} {id : UInt64} {content : ByteArray}

/-- A call of none of the functions that set registers sets none. -/
theorem registerChange?_eq_none (h : ∀ name ∈ registerSetters, call.calls name = false)
    (earlier : History) : call.registerChange? earlier = none := by
  have hwrite : call.calls "write_register" = false := h _ (by decide)
  have hread : call.calls "storage_read" = false := h _ (by decide)
  have hinput : call.calls "input" = false := h _ (by decide)
  have hfixed : (fixedContents.find? fun fixed => call.calls fixed.1) = none := by
    apply List.find?_eq_none.mpr
    intro fixed hmem
    rw [h fixed.1 (List.mem_append_right _ (List.mem_map_of_mem hmem))]
    simp
  rw [registerChange?, hwrite, hread, hinput, hfixed]
  split
  · split <;> rfl
  · rfl

/-- A call that trapped sets no register. -/
theorem registerChange?_of_not_returned (h : call.returned = false) (earlier : History) :
    call.registerChange? earlier = none := by
  rw [registerChange?, h]
  rfl

/-- The fixed content that a call is told to set is that of the function which served it. -/
theorem find?_fixedContents_of_find? {offered : HostImport}
    (hfind : HostImport.find? call.callee.module call.callee.name = some offered) :
    (fixedContents.find? fun fixed => call.calls fixed.1) =
      match offered.function with
      | .tell content => some (offered.name, content)
      | _ => none := by
  have hcalls : (fun fixed : String × ByteArray => call.calls fixed.1) =
      fun fixed => decide (offered.name = fixed.1) := by
    funext fixed
    rw [Bool.eq_iff_iff, calls_iff hfind, decide_eq_true_iff]
  rw [hcalls]
  exact HostImport.find?_fixedContents (HostImport.mem_all_of_find? hfind).1

/-- A register that a call set holds what is told, and every other register what it held. -/
theorem register?_of_change (hchange : call.registerChange? earlier = some (id, content))
    (hleft : left.host = call.host.setRegister id content) :
    left.host.register? = Event.changeRegisters (.hostCall call) earlier call.host.register? := by
  funext id'
  rw [hleft, HostState.register?_setRegister]
  simp only [Event.changeRegisters, Event.registerChange?, hchange]

theorem register?_of_no_change (hchange : call.registerChange? earlier = none)
    (hleft : left.host.register? = call.host.register?) :
    left.host.register? = Event.changeRegisters (.hostCall call) earlier call.host.register? := by
  simp only [Event.changeRegisters, Event.registerChange?, hchange, hleft]

/-- What a call does to the registers is the change that can be told from the call and from what
happened before. -/
theorem register?_of_served
    (served : call.callee.serve call.arguments { host := call.host, memory := call.memory } =
      (outcome, left))
    (replied : call.reply = left.reply outcome)
    (hstored : call.host.stored? = earlier.storage) (hinput : call.host.input = earlier.input) :
    left.host.register? = Event.changeRegisters (.hostCall call) earlier call.host.register? := by
  cases outcome with
  | error trap =>
      obtain rfl := (call.callee.atomic_serve call.arguments).eq_of_apply served
      exact register?_of_no_change
        (registerChange?_of_not_returned (not_returned_of_replied replied) earlier) rfl
  | ok results =>
      have hreturned := returned_of_replied replied
      obtain ⟨offered, hfind, hserve⟩ := exists_offered_of_served served
      have hoffered := (HostImport.mem_all_of_find? hfind).1
      have hwrites := (calls_iff hfind _).trans (HostImport.name_eq_write_register_iff hoffered)
      have hreads := (calls_iff hfind _).trans (HostImport.name_eq_storage_read_iff hoffered)
      have hinputs := (calls_iff hfind _).trans (HostImport.name_eq_input_iff hoffered)
      cases hfunction : offered.function with
      | writeRegister =>
          obtain ⟨id, _, _, content, harguments, hcontent, hleft⟩ :=
            HostFunction.eq_of_writeRegister hfunction hserve
          have hchange : call.registerChange? earlier = some (id, content) := by
            simp [registerChange?, hreturned, harguments, hwrites.mpr hfunction, bytes?, hcontent]
          exact register?_of_change hchange hleft
      | storageRead =>
          obtain ⟨_, _, id, key, harguments, hkey, hleft⟩ :=
            HostFunction.eq_of_storageRead hfunction hserve
          have hnot : call.calls "write_register" = false := by
            rw [Bool.eq_false_iff, ne_eq, hwrites, hfunction]
            rintro ⟨⟩
          have hchange : call.registerChange? earlier =
              (earlier.storage key).map fun value => (id, value) := by
            simp only [registerChange?, hreturned, harguments, hnot, hreads.mpr hfunction, bytes?,
              hkey, Bool.false_eq_true, if_true, if_false, Option.bind_eq_bind, Option.bind_some]
            cases earlier.storage key <;> rfl
          rw [hstored] at hleft
          cases hvalue : earlier.storage key with
          | none =>
              rw [hvalue] at hchange hleft
              exact register?_of_no_change hchange (by rw [hleft])
          | some value =>
              rw [hvalue] at hchange hleft
              exact register?_of_change hchange hleft
      | tellInput =>
          obtain ⟨id, harguments, hleft⟩ := HostFunction.eq_of_tellInput hfunction hserve
          have hchange : call.registerChange? earlier = some (id, call.host.input) := by
            simp [registerChange?, hreturned, harguments, hinputs.mpr hfunction, hinput]
          exact register?_of_change hchange hleft
      | tell content =>
          obtain ⟨id, harguments, hleft⟩ := HostFunction.eq_of_tell hfunction hserve
          have hnot : call.calls "input" = false := by
            rw [Bool.eq_false_iff, ne_eq, hinputs, hfunction]
            rintro ⟨⟩
          have hfixed := find?_fixedContents_of_find? hfind
          rw [hfunction] at hfixed
          have hchange : call.registerChange? earlier = some (id, content) := by
            simp [registerChange?, hreturned, harguments, hnot, hfixed]
          exact register?_of_change hchange hleft
      | _ =>
          -- All other functions leave the registers alone, and their calls tell of no change.
          have hnot : offered.function.setsRegister ≠ true := by
            rw [hfunction]
            exact Bool.false_ne_true
          have hkeeps : Serving.Keeps HostState.register? (offered.function.serve call.arguments) :=
            offered.function.keeps_serve call.arguments (fun h => absurd h hnot)
              (fun _ _ _ => rfl) (fun _ _ _ _ => rfl) (fun _ _ _ => rfl)
          have hleft := hkeeps.eq_of_apply hserve
          refine register?_of_no_change (registerChange?_eq_none ?_ earlier) hleft
          intro name hname
          rw [Bool.eq_false_iff, ne_eq, calls_iff hfind]
          rintro rfl
          exact hnot (HostImport.setsRegister_of_mem_registerSetters hoffered hname)

/-- No call changes the input. -/
theorem input_of_served
    (served : call.callee.serve call.arguments { host := call.host, memory := call.memory } =
      (outcome, left)) : left.host.input = call.host.input := by
  cases outcome with
  | error trap =>
      obtain rfl := (call.callee.atomic_serve call.arguments).eq_of_apply served
      rfl
  | ok results =>
      obtain ⟨offered, _, hserve⟩ := exists_offered_of_served served
      have hkeeps : Serving.Keeps HostState.input (offered.function.serve call.arguments) :=
        offered.function.keeps_serve call.arguments (fun _ _ _ _ => rfl) (fun _ _ _ => rfl)
          (fun _ _ _ _ => rfl) (fun _ _ _ => rfl)
      exact hkeeps.eq_of_apply hserve

/-- A call that returned from copying memory into a register has found the range in memory. -/
theorem exists_bytes?_of_writeRegister {length address : UInt64}
    (hreply : call.reply = call.callee.answer call.host call.memory call.arguments)
    (hcalls : call.calls "write_register" = true)
    (harguments : call.arguments = [.i64 id, .i64 length, .i64 address])
    (hreturned : call.returned = true) : ∃ content, call.bytes? address length = some content := by
  rw [answer_of_calls ⟨"write_register", HostImport.wide 3, .writeRegister⟩ (by decide) hcalls,
    harguments] at hreply
  obtain ⟨htraps, _⟩ := HostFunction.writeRegister.answer_of_bytesAt
    [.i64 id, .i64 length, .i64 address] call.host call.memory rfl
  cases hbytes : call.bytes? address length with
  | some content => exact ⟨content, rfl⟩
  | none =>
      obtain ⟨trap, htrap⟩ := htraps hbytes
      rw [returned, hreply, htrap] at hreturned
      cases hreturned

/-- How a call that asks for a register is answered, by what the registers hold at that time. -/
structure AnswersBy (call : HostCall) (registers : UInt64 → Option ByteArray) : Prop where
  /-- The host keeps what the registers hold. -/
  register?_eq : call.host.register? = registers
  /-- The length of a register is told, and nothing is changed. -/
  length : ∀ id, call.calls "register_len" = true → call.arguments = [.i64 id] →
    call.reply = .ok {
      host := call.host, memory := call.memory
      results := [.i64 ((registers id).getD .empty).size.toUInt64] }
  /-- Copying a register into memory changes nothing but the memory, and there only the range. -/
  copied : ∀ id address reply, call.calls "read_register" = true →
    call.arguments = [.i64 id, .i64 address] → call.reply = .ok reply →
    ∃ memory written, call.memory = some memory ∧
      reply = { host := call.host, memory := some written } ∧
      memory.Copied written address.toNat ((registers id).getD .empty)
  /-- It does not trap where the range lies within the memory. -/
  copied_iff : ∀ id address, call.calls "read_register" = true →
    call.arguments = [.i64 id, .i64 address] →
    ((registers id).getD .empty).size < 0x10000000000000000 →
    (call.returned = true ↔ ∃ memory, call.memory = some memory ∧
      address.toNat + ((registers id).getD .empty).size ≤ memory.size)

theorem answersBy (hreply : call.reply = call.callee.answer call.host call.memory call.arguments) :
    call.AnswersBy call.host.register? where
  register?_eq := rfl
  length id hcalls harguments := by
    rw [hreply, answer_of_calls ⟨"register_len", HostImport.wide 1 [.i64], .registerLength⟩
      (by decide) hcalls, harguments]
    rfl
  copied id address reply hcalls harguments hok := by
    rw [hreply, answer_of_calls ⟨"read_register", HostImport.wide 2, .readRegister⟩
      (by decide) hcalls, harguments, HostFunction.answer_readRegister] at hok
    cases hwrite : HostFunction.writeRange call.memory address
        ((call.host.register? id).getD .empty) with
    | error trap =>
        rw [hwrite] at hok
        cases hok
    | ok written =>
        rw [hwrite] at hok
        cases hok
        obtain ⟨given, hgiven, hcopied⟩ := HostFunction.copied_of_writeRange hwrite
        exact ⟨given, written, hgiven, rfl, hcopied⟩
  copied_iff id address hcalls harguments hsize := by
    rw [returned, hreply, answer_of_calls ⟨"read_register", HostImport.wide 2, .readRegister⟩
      (by decide) hcalls, harguments, HostFunction.answer_readRegister,
      ← HostFunction.exists_writeRange_iff hsize]
    cases HostFunction.writeRange call.memory address ((call.host.register? id).getD .empty) with
    | error trap => simp [Except.map]
    | ok written => simp [Except.map]

end HostCall

namespace History

variable {host : HostState} {history earlier middle : History} {id : UInt64}

theorem Leads.input_eq (h : Leads {} history host) : host.input = history.input := by
  induction h with
  | nil => rfl
  | hostCall _ served _ ih => exact (HostCall.input_of_served served).trans ih
  | run _ _ _ _ => rfl
  | input _ _ _ => rfl
  | register _ _ _ ih => exact ih
  | traceTaken _ ih => exact ih
  | note _ _ ih => exact ih

/-- What events make of empty registers is what their calls tell. -/
theorem Leads.register?_eq (h : Leads {} history host) : host.register? = history.registers := by
  induction h with
  | nil => rfl
  | hostCall before served replied ih =>
      rw [HostCall.register?_of_served served replied before.stored?_eq_storage before.input_eq, ih]
      rfl
  | run _ _ _ ih => exact ih
  | input _ _ ih => exact ih
  | register _ id content ih =>
      funext id'
      rw [HostState.register?_setRegister, ih]
      rfl
  | traceTaken _ ih => exact ih
  | note _ _ ih => exact ih

/-- Events that set other registers only leave a register as it was. -/
theorem registers_append_of_spares (h : Spares id earlier middle) :
    registers (middle ++ earlier) id = registers earlier id := by
  induction middle with
  | nil => rfl
  | cons event rest ih =>
      obtain ⟨hevent, hrest⟩ := h
      rw [List.cons_append, registers, Event.changeRegisters]
      cases hchange : event.registerChange? (rest ++ earlier) with
      | none => exact ih hrest
      | some change =>
          have hne : id ≠ change.1 := by
            rintro rfl
            exact hevent change.2 hchange
          exact (if_neg hne).trans (ih hrest)

/-- A register holds what a call set it to, as long as it is spared. -/
theorem registers_of_writeRegister {call : HostCall} {length address : UInt64}
    {content : ByteArray} (hcalls : call.calls "write_register" = true)
    (harguments : call.arguments = [.i64 id, .i64 length, .i64 address])
    (hreturned : call.returned = true) (hcontent : call.bytes? address length = some content)
    (hspares : Spares id (.hostCall call :: earlier) middle) :
    registers (middle ++ .hostCall call :: earlier) id = some content := by
  have hchange : call.registerChange? earlier = some (id, content) := by
    simp [HostCall.registerChange?, hreturned, harguments, hcalls, hcontent]
  rw [registers_append_of_spares hspares, registers, Event.changeRegisters, Event.registerChange?,
    hchange]
  exact if_pos rfl

end History

namespace Session

/-- A session that starts over goes through the calls of the start function and nothing else. -/
theorem exists_calls_reset (session : Session) :
    ∃ calls : List HostCall,
      (session.after .reset).history = calls.map .hostCall ++ session.history := by
  obtain ⟨calls, outcome, now, left, hcarried, _⟩ :=
    session.guest.recorded_instantiate session.host
  refine ⟨calls, ?_⟩
  simp only [after, reset, hcarried]
  cases outcome <;> rfl

/-- The registers of a session are the map that the calls which set them make of an empty one. Calls
of the host are answered by it, and what was copied in comes out. -/
theorem registers_of_afterAll {guest : Guest} {session : Session} {history : History}
    (hstart : Session.start guest = (.ok session, history)) (operations : List Operation) :
    (session.afterAll operations).host.register? =
      (session.afterAll operations).history.registers ∧
    (∀ id content, .register id content ∈ (session.afterAll operations).history →
      .setRegister id content ∈ operations) ∧
    (∃ calls : List HostCall, ((session.afterAll operations).after .reset).history =
      calls.map .hostCall ++ (session.afterAll operations).history) ∧
    (∀ (later earlier : History) (call : HostCall),
      (session.afterAll operations).history = later ++ .hostCall call :: earlier →
      call.AnswersBy earlier.registers ∧
      (call.returned = false ∨ (∀ name ∈ HostCall.registerSetters, call.calls name = false) →
        History.registers (.hostCall call :: earlier) = earlier.registers)) ∧
    ∀ (later middle earlier : History) (write read : HostCall) (id length source target : UInt64)
      (reply : HostReply),
      (session.afterAll operations).history =
        later ++ .hostCall read :: (middle ++ .hostCall write :: earlier) →
      write.calls "write_register" = true → write.arguments = [.i64 id, .i64 length, .i64 source] →
      write.returned = true → History.Spares id (.hostCall write :: earlier) middle →
      read.calls "read_register" = true → read.arguments = [.i64 id, .i64 target] →
      read.reply = .ok reply →
      ∃ content memory written, write.bytes? source length = some content ∧
        read.memory = some memory ∧ reply = { host := read.host, memory := some written } ∧
        memory.Copied written target.toNat content := by
  have hleads := leads_afterAll hstart operations
  have answers : ∀ (later earlier : History) (call : HostCall),
      (session.afterAll operations).history = later ++ .hostCall call :: earlier →
      call.AnswersBy earlier.registers := by
    intro later earlier call hhistory
    rw [hhistory] at hleads
    obtain ⟨hbefore, hreply⟩ := hleads.hostCall_of_append
    rw [← hbefore.register?_eq]
    exact HostCall.answersBy hreply
  refine ⟨hleads.register?_eq, ?_, exists_calls_reset _, ?_, ?_⟩
  · intro id content hset
    obtain ⟨events, hadds⟩ := exists_adds_afterAll session operations
    rw [hadds.history_eq] at hset
    rcases List.mem_append.mp hset with hevents | hbefore
    · exact hadds.sets id content hevents
    · exact absurd hbefore ((leads_of_start hstart).2.2 id content)
  · intro later earlier call hhistory
    refine ⟨answers later earlier call hhistory, fun hnone => ?_⟩
    have hchange : call.registerChange? earlier = none := by
      rcases hnone with htrapped | hother
      · exact HostCall.registerChange?_of_not_returned htrapped earlier
      · exact HostCall.registerChange?_eq_none hother earlier
    rw [History.registers, Event.changeRegisters, Event.registerChange?, hchange]
  · intro later middle earlier write read id length source target reply hhistory
      hwrite hwriteArguments hwritten hspares hread hreadArguments hreply
    have hbefore : (session.afterAll operations).history =
        (later ++ .hostCall read :: middle) ++ .hostCall write :: earlier := by
      rw [hhistory, List.append_assoc, List.cons_append]
    obtain ⟨content, hcontent⟩ : ∃ content, write.bytes? source length = some content := by
      rw [hbefore] at hleads
      exact HostCall.exists_bytes?_of_writeRegister hleads.hostCall_of_append.2 hwrite
        hwriteArguments hwritten
    obtain ⟨memory, written, hmemory, hwritten', hcopied⟩ :=
      (answers later _ read hhistory).copied id target reply hread hreadArguments hreply
    rw [History.registers_of_writeRegister hwrite hwriteArguments hwritten hcontent hspares,
      Option.getD_some] at hcopied
    exact ⟨content, memory, written, hcontent, hmemory, hwritten', hcopied⟩

/-- The last register. -/
def lastRegister : UInt64 := 0xFFFFFFFFFFFFFFFF

/-- A small memory of zeros. -/
def fiveZeros : GuestMemory where
  size := 5

/-- The memory of a guest that copies its first three bytes. -/
def threeBytes : GuestMemory :=
  { fiveZeros with contents := [⟨0, ⟨#[1, 2, 3]⟩⟩] }

/-- A guest that copies the first three bytes of its memory into a register, and out of it again to
the place behind the first byte. -/
def copyingGuest : Guest where
  exportsMemory := true
  blank := { memory := some fiveZeros }
  data := [⟨0, ⟨#[1, 2, 3]⟩⟩]
  function? := fun name => some {
    type := {}
    call := fun now _ =>
      if name = "keep" then
        .hostCall now ⟨hostModule, "write_register", HostImport.wide 3⟩
          [.i64 lastRegister, .i64 3, .i64 0] .done
      else
        .hostCall now ⟨hostModule, "read_register", HostImport.wide 2⟩
          [.i64 lastRegister, .i64 1] .done }

/-- What the host keeps then. -/
def keptBytes : HostState where
  registers := [(lastRegister, ⟨#[1, 2, 3]⟩)]

/-- The call that copies into the register. -/
def keepCall : HostCall where
  callee := ⟨hostModule, "write_register", HostImport.wide 3⟩
  arguments := [.i64 lastRegister, .i64 3, .i64 0]
  host := {}
  memory := some threeBytes
  reply := .ok { host := keptBytes, memory := some threeBytes }

/-- The call that copies out of it. -/
def showCall : HostCall where
  callee := ⟨hostModule, "read_register", HostImport.wide 2⟩
  arguments := [.i64 lastRegister, .i64 1]
  host := keptBytes
  memory := some threeBytes
  reply := .ok {
    host := keptBytes
    memory := some { threeBytes with contents := threeBytes.contents.lay 1 ⟨#[1, 2, 3]⟩ } }

/-- What was copied into a register is copied out of it over itself, by another instance. -/
theorem registers_of_copyingGuest :
    ∃ session history, Session.start copyingGuest = (.ok session, history) ∧
      (session.afterAll [.run .empty "keep", .reset, .run .empty "show"]).host.register?
        lastRegister = some ⟨#[1, 2, 3]⟩ ∧
      ∃ written, showCall.reply = .ok { host := keptBytes, memory := some written } ∧
        threeBytes.Copied written 1 ⟨#[1, 2, 3]⟩ := by
  obtain ⟨session, history, hstart, hhistory⟩ :
      ∃ session history, Session.start copyingGuest = (.ok session, history) ∧
        (session.afterAll [.run .empty "keep", .reset, .run .empty "show"]).history =
          [.hostCall showCall, .run "show" .empty, .hostCall keepCall, .run "keep" .empty] :=
    exists_of_map_start (by cbv)
  obtain ⟨hregisters, _, _, _, hcopies⟩ :=
    registers_of_afterAll hstart [.run .empty "keep", .reset, .run .empty "show"]
  refine ⟨session, history, hstart, ?_, ?_⟩
  · rw [hregisters, hhistory]
    decide +kernel
  · have hspares : History.Spares lastRegister [.hostCall keepCall, .run "keep" .empty]
        [.run "show" .empty] := by
      refine ⟨?_, trivial⟩
      rintro content ⟨⟩
    obtain ⟨content, memory, written, hcontent, hmemory, hreply, hcopied⟩ :=
      hcopies [] [.run "show" .empty] [.run "keep" .empty] keepCall showCall lastRegister 3 0 1 _
        hhistory (by decide) rfl rfl hspares (by decide) rfl rfl
    cases hmemory
    obtain rfl : content = ⟨#[1, 2, 3]⟩ := by
      have hbytes : keepCall.bytes? 0 3 = some ⟨#[1, 2, 3]⟩ := by decide +kernel
      rw [hbytes] at hcontent
      exact (Option.some.inj hcontent).symm
    exact ⟨written, congrArg Except.ok hreply, hcopied⟩

end Session

end WasmTrim
