import WasmTrim.Proofs.Host.Serving
import WasmTrim.Session.Operation

/-!
# Accesses to guest memory

The host reads, writes and takes texts at addresses that a guest chooses, and a session reads and
writes at addresses that its caller chooses. Each access is made exactly if its whole range lies
within the memory, with address and length added as natural numbers, and then it is an access to
that range and to nothing else. An access that is refused names the range and changes nothing.

A session reads back what it wrote. A text is taken from every address that is not behind the end of
the memory: its bytes up to the first zero, at most 4096 of them, and not beyond the end of the
memory. `memory_accesses_exact` puts these together.

## Implementation notes

Of a byte string to be written it is assumed that its length is less than `2 ^ 63`, which is so of
all byte strings that there can be, and only where the write is refused: a longer one could not be
told from a short one by its length as a word.
-/

namespace WasmTrim

namespace HostFunction

variable {memory : GuestMemory} {address length : UInt64} {bytes : ByteArray}

theorem readRange_of_lt (h : memory.size < address.toNat + length.toNat) :
    readRange (some memory) address length = .error (.badRange address length memory.size) := by
  rw [readRange]
  simp only [exported, bind, Except.bind, GuestMemory.range?_of_lt h]
  rfl

/-- Writing is refused exactly where writing at natural numbers is. -/
theorem writeRange_eq (memory : GuestMemory) (address : UInt64)
    (hbytes : bytes.size < 0x10000000000000000) :
    writeRange (some memory) address bytes =
      match memory.write? address.toNat bytes with
      | some written => .ok written
      | none => .error (.badRange address bytes.size.toUInt64 memory.size) := by
  rw [writeRange, GuestMemory.write?_eq_map_range? memory address hbytes]
  simp only [exported, bind, Except.bind]
  cases GuestMemory.range? memory.size address bytes.size.toUInt64 <;> rfl

theorem readName_of_lt {address : UInt32} (h : memory.size < address.toNat) :
    readName (some memory) address = .error (.badText address) := by
  have htext : memory.textAt? address.toNat = none := if_neg (Nat.not_le.mpr h)
  rw [readName]
  simp only [exported, bind, Except.bind, htext]
  rfl

end HostFunction

namespace HostScope

variable {scope : HostScope} {memory : GuestMemory}

/-- How functions of the host work on the memory that they see. -/
structure AccessesExactly (scope : HostScope) (memory : GuestMemory) : Prop where
  /-- A range within the memory is read as it is. -/
  read_inside : ∀ address length : UInt64, address.toNat + length.toNat ≤ memory.size →
    ∃ bytes, Serving.bytesAt address length scope = (.ok bytes, scope) ∧
      bytes.size = length.toNat ∧ memory.Holds address.toNat bytes
  /-- Any other range is refused. -/
  read_outside : ∀ address length : UInt64, memory.size < address.toNat + length.toNat →
    Serving.bytesAt address length scope =
      (.error (.badRange address length memory.size), scope)
  /-- Bytes are written to a range within the memory, and nowhere else. -/
  write_inside : ∀ (address : UInt64) (bytes : ByteArray),
    address.toNat + bytes.size ≤ memory.size →
    ∃ written, Serving.lay address bytes scope = (.ok (), { scope with memory := some written }) ∧
      memory.Replaced written address.toNat bytes
  /-- Nothing is written to any other range. -/
  write_outside : ∀ (address : UInt64) (bytes : ByteArray), bytes.size < 0x8000000000000000 →
    memory.size < address.toNat + bytes.size →
    Serving.lay address bytes scope =
      (.error (.badRange address bytes.size.toUInt64 memory.size), scope)
  /-- A text goes on up to a zero byte, the end of the memory, or the longest text. -/
  text_inside : ∀ address : UInt32, address.toNat ≤ memory.size →
    ∃ bytes, Serving.nameAt address scope = (.ok (Utf8.decodeLossy bytes), scope) ∧
      memory.IsText address.toNat bytes
  /-- There is no text behind the end of the memory. -/
  text_outside : ∀ address : UInt32, memory.size < address.toNat →
    Serving.nameAt address scope = (.error (.badText address), scope)

theorem bytesAt_apply (hmemory : scope.memory = some memory) (address length : UInt64) :
    Serving.bytesAt address length scope =
      (HostFunction.readRange (some memory) address length, scope) := by
  rw [← hmemory]
  rfl

theorem nameAt_apply (hmemory : scope.memory = some memory) (address : UInt32) :
    Serving.nameAt address scope = (HostFunction.readName (some memory) address, scope) := by
  rw [← hmemory]
  rfl

theorem accessesExactly (hmemory : scope.memory = some memory) : scope.AccessesExactly memory where
  read_inside address length h := by
    have hread : memory.read? address.toNat length.toNat =
        some (memory.contents.window address.toNat length.toNat) := if_pos h
    refine ⟨_, ?_, GuestMemory.read?_eq_some_iff.mp hread⟩
    rw [bytesAt_apply hmemory]
    congr 1
    apply HostFunction.readRange_eq_ok_iff.mpr
    rw [Option.bind_some, hread]
  read_outside address length h := by
    rw [bytesAt_apply hmemory, HostFunction.readRange_of_lt h]
  write_inside address bytes h := by
    have hwrite : memory.write? address.toNat bytes =
        some { memory with contents := memory.contents.lay address.toNat bytes } := if_pos h
    have hsize := memory.size_lt
    refine ⟨_, ?_, GuestMemory.replaced_of_write? hwrite⟩
    rw [Serving.lay_apply, hmemory, HostFunction.writeRange_eq memory address (by omega), hwrite]
  write_outside address bytes hbytes h := by
    have hwrite : memory.write? address.toNat bytes = none := if_neg (Nat.not_le.mpr h)
    rw [Serving.lay_apply, hmemory, HostFunction.writeRange_eq memory address (by omega), hwrite]
  text_inside address h := by
    obtain ⟨bytes, htext, his⟩ := GuestMemory.textAt?_of_le h
    refine ⟨bytes, ?_, his⟩
    rw [nameAt_apply hmemory]
    congr 1
    apply HostFunction.readName_eq_ok_iff.mpr
    rw [Option.bind_some, htext, Option.map_some]
  text_outside address h := by
    rw [nameAt_apply hmemory, HostFunction.readName_of_lt h]

end HostScope

namespace Session

variable {session later : Session} {memory written : GuestMemory} {address : UInt32}
variable {bytes : ByteArray}

/-- The session with another memory in its instance. -/
def withMemory (session : Session) (memory : GuestMemory) : Session :=
  { session with now := { session.now with memory := some memory } }

/-- How a session works on its guest's memory. -/
structure AccessesExactly (session : Session) (memory : GuestMemory) : Prop where
  /-- A range within the memory is read as it is. -/
  read_inside : ∀ address length : UInt32, address.toNat + length.toNat ≤ memory.size →
    ∃ bytes, session.read address length = .ok bytes ∧ bytes.size = length.toNat ∧
      memory.Holds address.toNat bytes
  /-- Any other range is refused. -/
  read_outside : ∀ address length : UInt32, memory.size < address.toNat + length.toNat →
    session.read address length =
      .error (.badRead address.toNat (address.toNat + length.toNat))
  /-- Bytes are written to a range within the memory, and nowhere else. -/
  write_inside : ∀ (address : UInt32) (bytes : ByteArray),
    address.toNat + bytes.size ≤ memory.size →
    ∃ written, session.write address bytes = .ok (session.withMemory written) ∧
      memory.Replaced written address.toNat bytes
  /-- Nothing is written to any other range. -/
  write_outside : ∀ (address : UInt32) (bytes : ByteArray), bytes.size < 0x8000000000000000 →
    memory.size < address.toNat + bytes.size →
    session.write address bytes =
      .error (.badWrite address.toNat (address.toNat + bytes.size)) ∧
    session.after (.write address bytes) = session
  /-- What was written is read back. -/
  read_write : ∀ (address length : UInt32) (bytes : ByteArray) (later : Session),
    session.write address bytes = .ok later → length.toNat = bytes.size →
    later.read address length = .ok bytes

theorem memory_eq_ok_iff :
    session.memory = .ok memory ↔
      session.guest.exportsMemory = true ∧ session.now.memory = some memory := by
  rw [Session.memory]
  split
  · next hexports hnow => simp [hexports, hnow]
  · next hnone =>
    constructor
    · intro h
      cases h
    · rintro ⟨hexports, hnow⟩
      exact absurd hnow (hnone memory hexports)

theorem memory_withMemory (h : session.memory = .ok memory) :
    (session.withMemory written).memory = .ok written :=
  memory_eq_ok_iff.mpr ⟨(memory_eq_ok_iff.mp h).1, rfl⟩

/-- A session reads where reading at natural numbers does. -/
theorem read_eq (hmemory : session.memory = .ok memory) (address length : UInt32) :
    session.read address length =
      match memory.read? address.toNat length.toNat with
      | some bytes => .ok bytes
      | none => .error (.badRead address.toNat (address.toNat + length.toNat)) := by
  have haddress : address.toNat < 0x100000000 := address.toNat_lt
  have hlength : length.toNat < 0x100000000 := length.toNat_lt
  have hsum : address.toUInt64.toNat + length.toUInt64.toNat < 0x10000000000000000 := by
    rw [UInt32.toNat_toUInt64, UInt32.toNat_toUInt64]
    omega
  rw [read, hmemory]
  simp only [bind, Except.bind, GuestMemory.slice?_add hsum, toNat_add64 hsum,
    UInt32.toNat_toUInt64]
  cases memory.read? address.toNat length.toNat <;> rfl

/-- A session writes where writing at natural numbers does. -/
theorem write_eq (hmemory : session.memory = .ok memory) (address : UInt32)
    (hsum : address.toNat + bytes.size < 0x10000000000000000) :
    session.write address bytes =
      match memory.write? address.toNat bytes with
      | some written => .ok (session.withMemory written)
      | none => .error (.badWrite address.toNat (address.toNat + bytes.size)) := by
  have hsize : bytes.size.toUInt64.toNat = bytes.size := toNat_toUInt64 (by omega)
  have hplace : address.toUInt64.toNat = address.toNat := UInt32.toNat_toUInt64 address
  rw [write, hmemory]
  simp only [bind, Except.bind]
  rw [GuestMemory.replace?_add (by omega), toNat_add64 (by omega), hsize, hplace]
  cases memory.write? address.toNat bytes <;> rfl

theorem accessesExactly (hmemory : session.memory = .ok memory) :
    session.AccessesExactly memory where
  read_inside address length h := by
    have hread : memory.read? address.toNat length.toNat =
        some (memory.contents.window address.toNat length.toNat) := if_pos h
    refine ⟨_, ?_, GuestMemory.read?_eq_some_iff.mp hread⟩
    rw [read_eq hmemory, hread]
  read_outside address length h := by
    have hread : memory.read? address.toNat length.toNat = none := if_neg (Nat.not_le.mpr h)
    rw [read_eq hmemory, hread]
  write_inside address bytes h := by
    have hwrite : memory.write? address.toNat bytes =
        some { memory with contents := memory.contents.lay address.toNat bytes } := if_pos h
    refine ⟨_, ?_, GuestMemory.replaced_of_write? hwrite⟩
    rw [write_eq hmemory address (Nat.lt_of_le_of_lt h memory.size_lt), hwrite]
  write_outside address bytes hbytes h := by
    have hwrite : memory.write? address.toNat bytes = none := if_neg (Nat.not_le.mpr h)
    have herror : session.write address bytes =
        .error (.badWrite address.toNat (address.toNat + bytes.size)) := by
      have haddress : address.toNat < 0x100000000 := address.toNat_lt
      rw [write_eq hmemory address (by omega), hwrite]
    refine ⟨herror, ?_⟩
    rw [after, herror]
    rfl
  read_write address length bytes later h hlength := by
    have haddress : address.toNat < 0x100000000 := address.toNat_lt
    have hsize : length.toNat < 0x100000000 := length.toNat_lt
    rw [write_eq hmemory address (by omega)] at h
    cases hwrite : memory.write? address.toNat bytes with
    | none =>
        rw [hwrite] at h
        cases h
    | some written =>
        rw [hwrite] at h
        cases h
        have hholds := (GuestMemory.replaced_of_write? hwrite).holds
        have hread : written.read? address.toNat length.toNat = some bytes :=
          GuestMemory.read?_eq_some_iff.mpr ⟨hlength.symm, hholds⟩
        rw [read_eq (memory_withMemory hmemory), hread]

end Session

/-- Functions of the host and sessions access the memory that a guest exports exactly within its
bounds, which are compared as natural numbers. What is refused changes nothing. -/
theorem memory_accesses_exact :
    (∀ scope memory, scope.memory = some memory → HostScope.AccessesExactly scope memory) ∧
    ∀ session memory, session.memory = .ok memory → Session.AccessesExactly session memory :=
  ⟨fun _ _ => HostScope.accessesExactly, fun _ _ => Session.accessesExactly⟩

/-- What a function of the host works on when the guest has four bytes of memory. -/
def smallScope : HostScope where
  host := {}
  memory := some { size := 4 }

/-- A session of a guest with four bytes of memory. -/
def smallSession : Session where
  guest := { exportsMemory := true }
  now := { memory := some { size := 4 } }
  host := {}
  history := []

/-- A range of which only the wrapped end lies within the memory is refused, and nothing can be read
at its end. Two bytes at the end are written and read back. -/
theorem small_accesses :
    Serving.bytesAt 0xfffffffffffffffe 4 smallScope =
      (.error (.badRange 0xfffffffffffffffe 4 4), smallScope) ∧
    (∃ bytes, Serving.bytesAt 4 0 smallScope = (.ok bytes, smallScope) ∧ bytes.size = 0) ∧
    ∃ later, smallSession.write 2 ⟨#[1, 2]⟩ = .ok later ∧ later.read 2 2 = .ok ⟨#[1, 2]⟩ := by
  obtain ⟨hscope, hsession⟩ := memory_accesses_exact
  have hhost := hscope smallScope _ rfl
  have hguest := hsession smallSession _ rfl
  refine ⟨hhost.read_outside _ _ (by decide), ?_, ?_⟩
  · obtain ⟨bytes, hread, hsize, _⟩ := hhost.read_inside 4 0 (by decide)
    exact ⟨bytes, hread, hsize⟩
  · obtain ⟨written, hwrite, _⟩ := hguest.write_inside 2 ⟨#[1, 2]⟩ (by decide)
    exact ⟨_, hwrite, hguest.read_write 2 2 _ _ hwrite rfl⟩

end WasmTrim
