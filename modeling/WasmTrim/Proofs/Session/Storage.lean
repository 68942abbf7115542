import Mathlib
import WasmTrim.Proofs.Session.Course

/-!
# Storage over a session

The storage of a session is the map that its calls of `storage_write` and `storage_remove` make of
an empty one, whichever operation they were made in and however it ended. Asking for a key answers
by that map at any time.

`Session.storage_of_afterAll` says so of all operations that may follow the start of a session. A
call of `storage_has_key` answers whether its key is in the map, and a call of `storage_read` sets
its register to the value and answers one, or changes nothing and answers zero. Both trap if the key
does not lie within the memory.
-/

namespace WasmTrim

namespace HostState

variable (host : HostState) (key key' value : ByteArray)

theorem toList_eq_iff : key.data.toList = key'.data.toList ↔ key = key' := by
  constructor
  · intro h
    exact ByteArray.ext (Array.toList_inj.mp h)
  · rintro rfl
    rfl

theorem stored?_store :
    (host.store key value).stored? key' = if key' = key then some value else host.stored? key' := by
  rw [stored?, store, SortedMap.get?_insert]
  simp only [toList_eq_iff, stored?]

theorem stored?_unstore :
    (host.unstore key).stored? key' = if key' = key then none else host.stored? key' := by
  rw [stored?, unstore, SortedMap.get?_erase]
  simp only [toList_eq_iff, stored?]

end HostState

namespace HostFunction

open Serving Stateful

variable {function : HostFunction} {arguments results : List Value} {scope left : HostScope}

/-- What a call that wrote a key has done. -/
theorem eq_of_storageWrite (hfunction : function = .storageWrite)
    (h : function.serve arguments scope = (.ok results, left)) :
    ∃ keyLength keyAddress valueLength valueAddress register key value,
      arguments = [.i64 keyLength, .i64 keyAddress, .i64 valueLength, .i64 valueAddress, register] ∧
      scope.memory.bind (·.read? keyAddress.toNat keyLength.toNat) = some key ∧
      scope.memory.bind (·.read? valueAddress.toNat valueLength.toNat) = some value ∧
      left.host = scope.host.store key value := by
  rw [serve.eq_def] at h
  split at h <;> try cases hfunction
  · obtain ⟨key, _, hkey, hnext⟩ := bind_eq_ok h
    obtain ⟨rfl, hkey⟩ := eq_of_bytesAt hkey
    obtain ⟨value, _, hvalue, hlast⟩ := bind_eq_ok hnext
    obtain ⟨rfl, hvalue⟩ := eq_of_bytesAt hvalue
    cases hlast
    exact ⟨_, _, _, _, _, key, value, rfl, hkey, hvalue, rfl⟩
  · cases h

/-- What a call that removed a key has done. -/
theorem eq_of_storageRemove (hfunction : function = .storageRemove)
    (h : function.serve arguments scope = (.ok results, left)) :
    ∃ keyLength keyAddress register key,
      arguments = [.i64 keyLength, .i64 keyAddress, register] ∧
      scope.memory.bind (·.read? keyAddress.toNat keyLength.toNat) = some key ∧
      left.host = scope.host.unstore key := by
  rw [serve.eq_def] at h
  split at h <;> try cases hfunction
  · obtain ⟨key, _, hkey, hlast⟩ := bind_eq_ok h
    obtain ⟨rfl, hkey⟩ := eq_of_bytesAt hkey
    cases hlast
    exact ⟨_, _, _, key, rfl, hkey, rfl⟩
  · cases h

/-- A function that takes a range first traps if the range does not lie within the memory, and goes
on with its bytes otherwise. -/
theorem answer_of_bytesAt (function : HostFunction) (arguments : List Value) (host : HostState)
    (memory : Option GuestMemory) {address length : UInt64}
    {next : ByteArray → Serving (List Value)}
    (hserve : function.serve arguments = bytesAt address length >>= next) :
    (memory.bind (·.read? address.toNat length.toNat) = none →
      ∃ trap, function.answer host memory arguments = .error trap) ∧
    ∀ bytes, memory.bind (·.read? address.toNat length.toNat) = some bytes →
      function.answer host memory arguments =
        (next bytes { host, memory }).2.reply (next bytes { host, memory }).1 := by
  rw [answer, hserve]
  cases hread : readRange memory address length with
  | error trap =>
      have hbytes : bytesAt address length { host, memory } = (.error trap, { host, memory }) :=
        hread ▸ rfl
      rw [bind_apply_error hbytes]
      refine ⟨fun _ => ⟨trap, rfl⟩, fun bytes h => ?_⟩
      cases hread.symm.trans (readRange_eq_ok_iff.mpr h)
  | ok bytes =>
      have hbytes : bytesAt address length { host, memory } = (.ok bytes, { host, memory }) :=
        hread ▸ rfl
      rw [bind_apply_ok hbytes, readRange_eq_ok_iff.mp hread]
      refine ⟨nofun, fun bytes' h => ?_⟩
      cases h
      rfl

end HostFunction

namespace HostImport

variable {offered : HostImport}

theorem name_eq_storage_write_iff (h : offered ∈ all) :
    offered.name = "storage_write" ↔ offered.function = .storageWrite := by
  revert offered
  decide

theorem name_eq_storage_remove_iff (h : offered ∈ all) :
    offered.name = "storage_remove" ↔ offered.function = .storageRemove := by
  revert offered
  decide

end HostImport

namespace HostCall

variable {call : HostCall} {outcome : Except Trap (List Value)} {left : HostScope}

/-- A call that returned from neither of the functions that change storage makes no change. -/
theorem storageChange?_eq_none (hwrite : call.calls "storage_write" = false)
    (hremove : call.calls "storage_remove" = false) : call.storageChange? = none := by
  rw [storageChange?, hwrite, hremove]
  split
  · split <;> rfl
  · rfl

/-- What a call does to the storage is the change that can be told from the call. -/
theorem stored?_of_served
    (served : call.callee.serve call.arguments { host := call.host, memory := call.memory } =
      (outcome, left))
    (replied : call.reply = left.reply outcome) :
    left.host.stored? = Event.changeStorage (.hostCall call) call.host.stored? := by
  cases outcome with
  | error trap =>
      -- A call that trapped left the storage as it was, and does not count as a change.
      obtain rfl := (call.callee.atomic_serve call.arguments).eq_of_apply served
      simp [Event.changeStorage, storageChange?, not_returned_of_replied replied]
  | ok results =>
      have hreturned := returned_of_replied replied
      obtain ⟨offered, hfind, hserve⟩ := exists_offered_of_served served
      have hoffered := (HostImport.mem_all_of_find? hfind).1
      have hwrites := (calls_iff hfind _).trans (HostImport.name_eq_storage_write_iff hoffered)
      have hremoves := (calls_iff hfind _).trans (HostImport.name_eq_storage_remove_iff hoffered)
      by_cases hwrite : offered.function = .storageWrite
      · obtain ⟨_, _, _, _, _, key, value, harguments, hkey, hvalue, hleft⟩ :=
          HostFunction.eq_of_storageWrite hwrite hserve
        have hchange : call.storageChange? = some (key, some value) := by
          simp [storageChange?, hreturned, harguments, hwrites.mpr hwrite, bytes?, hkey, hvalue]
        funext key'
        rw [hleft, HostState.stored?_store]
        simp only [Event.changeStorage, hchange]
      · by_cases hremove : offered.function = .storageRemove
        · obtain ⟨_, _, _, key, harguments, hkey, hleft⟩ :=
            HostFunction.eq_of_storageRemove hremove hserve
          have hchange : call.storageChange? = some (key, none) := by
            simp [storageChange?, hreturned, harguments, hremoves.mpr hremove, bytes?, hkey]
          funext key'
          rw [hleft, HostState.stored?_unstore]
          simp only [Event.changeStorage, hchange]
        · -- All other functions leave the storage alone, and their calls tell of no change.
          have hkeeps : Serving.Keeps HostState.stored? (offered.function.serve call.arguments) :=
            offered.function.keeps_serve call.arguments (fun _ _ _ _ => rfl) (fun _ _ _ => rfl)
              (fun h => absurd h hwrite) (fun h => absurd h hremove)
          have hchange : call.storageChange? = none :=
            storageChange?_eq_none (Bool.eq_false_iff.mpr (mt hwrites.mp hwrite))
              (Bool.eq_false_iff.mpr (mt hremoves.mp hremove))
          have hleft := hkeeps.eq_of_apply hserve
          simpa only [Event.changeStorage, hchange] using hleft

/-- A key is asked for by the storage at the time of the call. -/
theorem answer_storageHasKey {length address : UInt64}
    (hcalls : call.calls "storage_has_key" = true)
    (harguments : call.arguments = [.i64 length, .i64 address]) :
    (call.bytes? address length = none →
      ∃ trap, call.callee.answer call.host call.memory call.arguments = .error trap) ∧
    ∀ key, call.bytes? address length = some key →
      call.callee.answer call.host call.memory call.arguments =
        .ok { host := call.host, memory := call.memory,
              results := [.i64 (if (call.host.stored? key).isSome then 1 else 0)] } := by
  rw [answer_of_calls ⟨"storage_has_key", HostImport.wide 2 [.i64], .storageHasKey⟩ (by decide)
    hcalls, harguments]
  exact HostFunction.storageHasKey.answer_of_bytesAt [.i64 length, .i64 address] _ _ rfl

/-- A value is read as it is in storage at the time of the call. -/
theorem answer_storageRead {length address id : UInt64} (hcalls : call.calls "storage_read" = true)
    (harguments : call.arguments = [.i64 length, .i64 address, .i64 id]) :
    (call.bytes? address length = none →
      ∃ trap, call.callee.answer call.host call.memory call.arguments = .error trap) ∧
    ∀ key, call.bytes? address length = some key →
      call.callee.answer call.host call.memory call.arguments =
        .ok (match call.host.stored? key with
          | some value => { host := call.host.setRegister id value, memory := call.memory,
                            results := [.i64 1] }
          | none => { host := call.host, memory := call.memory, results := [.i64 0] }) := by
  rw [answer_of_calls ⟨"storage_read", HostImport.wide 3 [.i64], .storageRead⟩ (by decide)
    hcalls, harguments]
  obtain ⟨htraps, hanswers⟩ := HostFunction.storageRead.answer_of_bytesAt
    [.i64 length, .i64 address, .i64 id] call.host call.memory rfl
  refine ⟨htraps, fun key hkey => (hanswers key hkey).trans ?_⟩
  rw [Stateful.bind_get]
  cases call.host.stored? key with
  | none => rfl
  | some value => rfl

end HostCall

namespace History

variable {first host : HostState} {history : History}

/-- What events make of the storage is what their calls tell. -/
theorem Leads.stored?_eq (h : Leads first history host) :
    host.stored? = history.foldr Event.changeStorage first.stored? := by
  induction h with
  | nil => rfl
  | hostCall before served replied ih =>
      rw [HostCall.stored?_of_served served replied, ih]
      rfl
  | run _ _ _ ih => exact ih
  | input _ _ ih => exact ih
  | register _ _ _ ih => exact ih
  | traceTaken _ ih => exact ih
  | note _ _ ih => exact ih

theorem Leads.stored?_eq_storage (h : Leads {} history host) : host.stored? = history.storage :=
  h.stored?_eq

end History

namespace Session

/-- The storage of a session is the map that the returned calls of `storage_write` and
`storage_remove` make of an empty one, in order. Calls that ask for a key are answered by it. -/
theorem storage_of_afterAll {guest : Guest} {session : Session} {history : History}
    (hstart : Session.start guest = (.ok session, history)) (operations : List Operation) :
    (session.afterAll operations).host.stored? = (session.afterAll operations).history.storage ∧
    ∀ (later earlier : History) (call : HostCall),
      (session.afterAll operations).history = later ++ .hostCall call :: earlier →
      call.host.stored? = earlier.storage ∧
      (∀ length address, call.calls "storage_has_key" = true →
        call.arguments = [.i64 length, .i64 address] →
        (call.bytes? address length = none → ∃ trap, call.reply = .error trap) ∧
        ∀ key, call.bytes? address length = some key →
          call.reply = .ok { host := call.host, memory := call.memory,
                             results := [.i64 (if (earlier.storage key).isSome then 1 else 0)] }) ∧
      ∀ length address id, call.calls "storage_read" = true →
        call.arguments = [.i64 length, .i64 address, .i64 id] →
        (call.bytes? address length = none → ∃ trap, call.reply = .error trap) ∧
        ∀ key, call.bytes? address length = some key →
          call.reply = .ok (match earlier.storage key with
            | some value => { host := call.host.setRegister id value, memory := call.memory,
                              results := [.i64 1] }
            | none => { host := call.host, memory := call.memory, results := [.i64 0] }) := by
  have hleads := leads_afterAll hstart operations
  refine ⟨hleads.stored?_eq_storage, ?_⟩
  intro later earlier call hhistory
  rw [hhistory] at hleads
  obtain ⟨hbefore, hreply⟩ := hleads.hostCall_of_append
  have hstored := hbefore.stored?_eq_storage
  refine ⟨hstored, ?_, ?_⟩
  · intro length address hcalls harguments
    rw [hreply, ← hstored]
    exact HostCall.answer_storageHasKey hcalls harguments
  · intro length address id hcalls harguments
    rw [hreply, ← hstored]
    exact HostCall.answer_storageRead hcalls harguments

/-- A guest that gives a key a value when it starts, and another one when it starts again, but then
traps. -/
def keyedGuest : Guest where
  exportsMemory := true
  blank := { memory := some twoBytes }
  data := [⟨0, ⟨#[1, 2]⟩⟩]
  start? := some fun now =>
    .hostCall now ⟨hostModule, "storage_has_key", HostImport.wide 2 [.i64]⟩ [.i64 1, .i64 0]
      fun now results =>
        if results = [.i64 0] then
          .hostCall now ⟨hostModule, "storage_write", HostImport.wide 5 [.i64]⟩
            [.i64 1, .i64 0, .i64 1, .i64 0, .i64 0] .done
        else
          .hostCall now ⟨hostModule, "storage_write", HostImport.wide 5 [.i64]⟩
            [.i64 1, .i64 0, .i64 1, .i64 1, .i64 0] fun now _ => .trapped now .unreachable

/-- The value that was written by the start function that trapped is there. -/
theorem storage_of_failed_reset :
    ∃ session history, Session.start keyedGuest = (.ok session, history) ∧
      session.reset.1 = .error (.reset .unreachable) ∧
      (session.afterAll [.reset]).host.stored? = (session.afterAll [.reset]).history.storage ∧
      (session.afterAll [.reset]).history.storage ⟨#[1]⟩ = some ⟨#[2]⟩ := by
  obtain ⟨session, history, hstart, hreset⟩ :
      ∃ session history, Session.start keyedGuest = (.ok session, history) ∧
        (session.reset.1, (session.afterAll [.reset]).history.storage ⟨#[1]⟩) =
          (.error (.reset .unreachable), some ⟨#[2]⟩) :=
    exists_of_map_start (by cbv)
  obtain ⟨hfailed, hvalue⟩ := Prod.mk.inj hreset
  exact ⟨session, history, hstart, hfailed, (storage_of_afterAll hstart [.reset]).1, hvalue⟩

end Session

end WasmTrim
