import WasmTrim.Guest.Memory
import WasmTrim.Proofs.Memory.Overlay

/-!
# Ranges of guest memory

A range that is named by words of 64 bits is accepted exactly if it lies within the memory when its
address and its length are added as natural numbers: a sum that wraps around is refused, and no
other one is too large for a word. So the accesses of the host agree with those of the guest.

`GuestMemory.Holds`, `GuestMemory.Replaced` and `GuestMemory.IsText` say what a range that was read,
a memory that was written to, and a text that was read are, byte by byte.
-/

namespace WasmTrim

/-- A sum of two words is given exactly if it is the sum of the numbers. -/
theorem checkedAdd?_eq_some_iff {a b c : UInt64} :
    checkedAdd? a b = some c ↔ c.toNat = a.toNat + b.toNat := by
  have ha : a.toNat < 0x10000000000000000 := a.toNat_lt
  have hb : b.toNat < 0x10000000000000000 := b.toNat_lt
  have hc : c.toNat < 0x10000000000000000 := c.toNat_lt
  have hsum : (a + b).toNat = (a.toNat + b.toNat) % 0x10000000000000000 := UInt64.toNat_add a b
  rw [checkedAdd?]
  split
  · next hle =>
    rw [UInt64.le_iff_toNat_le, hsum] at hle
    rw [Option.some.injEq, ← UInt64.toNat_inj, hsum]
    omega
  · next hlt =>
    rw [UInt64.le_iff_toNat_le, hsum] at hlt
    constructor
    · intro h
      cases h
    · omega

theorem toNat_toUInt64 {n : Nat} (h : n < 0x10000000000000000) : n.toUInt64.toNat = n :=
  UInt64.toNat_ofNat_of_lt' h

/-- Sums that are words do not wrap around. -/
theorem toNat_add64 {a b : UInt64} (h : a.toNat + b.toNat < 0x10000000000000000) :
    (a + b).toNat = a.toNat + b.toNat :=
  (UInt64.toNat_add a b).trans (Nat.mod_eq_of_lt h)

theorem le_add64 {a b : UInt64} (h : a.toNat + b.toNat < 0x10000000000000000) : a ≤ a + b := by
  rw [UInt64.le_iff_toNat_le, toNat_add64 h]
  exact Nat.le_add_right ..

namespace GuestMemory

variable {memory written : GuestMemory} {address length start stop : UInt64} {bytes : ByteArray}
variable {size place : Nat}

/-- Memory shows some bytes from an address on, and they lie within it. -/
structure Holds (memory : GuestMemory) (place : Nat) (bytes : ByteArray) : Prop where
  /-- The bytes lie within the memory. -/
  inside : place + bytes.size ≤ memory.size
  /-- They are what shows at their addresses. -/
  byteAt_eq : ∀ i < bytes.size, memory.contents.byteAt (place + i) = byteAt bytes i

/-- A memory after bytes were written to it from an address on. -/
structure Replaced (memory written : GuestMemory) (place : Nat) (bytes : ByteArray) : Prop where
  /-- The size is the same. -/
  size_eq : written.size = memory.size
  /-- The bytes are there. -/
  holds : written.Holds place bytes
  /-- Nothing else is changed. -/
  byteAt_eq : ∀ a, a < place ∨ place + bytes.size ≤ a →
    written.contents.byteAt a = memory.contents.byteAt a

/-- The text that a memory shows from an address on: it goes on up to a zero byte, the end of the
memory, or the longest text. -/
structure IsText (memory : GuestMemory) (place : Nat) (bytes : ByteArray) : Prop where
  /-- The text lies within the memory. -/
  holds : memory.Holds place bytes
  /-- It is not too long. -/
  size_le : bytes.size ≤ maxTextSize
  /-- No byte of it is zero. -/
  ne_zero : ∀ i < bytes.size, byteAt bytes i ≠ 0
  /-- It does not stop before it has to. -/
  stops : place + bytes.size = memory.size ∨ bytes.size = maxTextSize ∨
    memory.contents.byteAt (place + bytes.size) = 0

/-! ### Natural numbers -/

theorem read?_eq_some_iff {length : Nat} :
    memory.read? place length = some bytes ↔ bytes.size = length ∧ memory.Holds place bytes := by
  rw [read?]
  constructor
  · intro h
    split at h
    · next hinside =>
      cases h
      rw [Overlay.size_window]
      refine ⟨rfl, ?_, fun i hi => ?_⟩
      · rwa [Overlay.size_window]
      · rw [Overlay.size_window] at hi
        exact (Overlay.byteAt_window memory.contents place hi).symm
    · cases h
  · rintro ⟨rfl, hinside, hbytes⟩
    rw [if_pos hinside, Overlay.window_eq_of_byteAt hbytes]

/-- Writing replaces the bytes of the range and no others. -/
theorem replaced_of_write? (h : memory.write? place bytes = some written) :
    memory.Replaced written place bytes := by
  rw [write?] at h
  split at h
  · next hinside =>
    cases h
    refine ⟨rfl, ⟨hinside, fun i hi => ?_⟩, fun a ha => ?_⟩
    · rw [Overlay.byteAt_lay, if_pos (by omega), Nat.add_sub_cancel_left]
    · rw [Overlay.byteAt_lay, if_neg (by omega)]
  · cases h

/-- From every address of the memory on there is a text. -/
theorem textAt?_of_le (h : place ≤ memory.size) :
    ∃ bytes, memory.textAt? place = some bytes ∧ memory.IsText place bytes := by
  generalize hsize : min (memory.size - place) maxTextSize = size
  obtain ⟨back, hback, hzero⟩ := exists_eq_beforeZero_append (memory.contents.window place size)
  have hshown : ∀ i < size, memory.contents.byteAt (place + i) =
      byteAt (beforeZero (memory.contents.window place size) ++ back) i := by
    intro i hi
    rw [← hback, Overlay.byteAt_window memory.contents place hi]
  have htotal := congrArg ByteArray.size hback
  rw [Overlay.size_window, ByteArray.size_append] at htotal
  have htext : memory.textAt? place = some (beforeZero (memory.contents.window place size)) := by
    rw [textAt?, if_pos h, hsize]
  refine ⟨_, htext, ⟨?_, fun i hi => ?_⟩, ?_, fun i => byteAt_beforeZero_ne_zero, ?_⟩
  · omega
  · rw [hshown i (by omega), byteAt_append_left back hi]
  · omega
  · by_cases hend : (beforeZero (memory.contents.window place size)).size = size
    · omega
    · refine Or.inr (Or.inr ?_)
      have hlast := byteAt_append_right (beforeZero (memory.contents.window place size)) back 0
      rw [Nat.add_zero] at hlast
      rw [hshown _ (by omega), hlast, hzero]

/-! ### Words -/

/-- A range within memory is accepted with its end. -/
theorem range?_of_le (hsize : size < 0x10000000000000000)
    (h : address.toNat + length.toNat ≤ size) :
    range? size address length = some (address, address + length) := by
  have hsum := toNat_add64 (Nat.lt_of_le_of_lt h hsize)
  rw [range?, checkedAdd?_eq_some_iff.mpr hsum]
  exact if_pos (hsum ▸ h)

/-- A range beyond the end of memory is refused, also when the sum wraps around. -/
theorem range?_of_lt (h : size < address.toNat + length.toNat) :
    range? size address length = none := by
  rw [range?]
  cases hsum : checkedAdd? address length with
  | none => rfl
  | some stop => exact if_neg (by rw [checkedAdd?_eq_some_iff.mp hsum]; omega)

theorem add_sub_self (start length : UInt64) : start + length - start = length := by
  rw [UInt64.add_comm, UInt64.add_sub_cancel]

/-- Reading the range that two words name is reading at natural numbers. -/
theorem read?_eq_map_range? (memory : GuestMemory) (address length : UInt64) :
    memory.read? address.toNat length.toNat = (range? memory.size address length).map fun range =>
      memory.contents.window range.1.toNat (range.2 - range.1).toNat := by
  by_cases h : address.toNat + length.toNat ≤ memory.size
  · rw [read?, if_pos h, range?_of_le memory.size_lt h, Option.map_some, add_sub_self]
  · rw [read?, if_neg h, range?_of_lt (Nat.lt_of_not_le h), Option.map_none]

/-- Writing to the range that two words name is writing at natural numbers. -/
theorem write?_eq_map_range? (memory : GuestMemory) (address : UInt64)
    (hbytes : bytes.size < 0x10000000000000000) :
    memory.write? address.toNat bytes =
      (range? memory.size address bytes.size.toUInt64).map fun range =>
        { memory with contents := memory.contents.lay range.1.toNat bytes } := by
  have hlength : bytes.size.toUInt64.toNat = bytes.size := toNat_toUInt64 hbytes
  by_cases h : address.toNat + bytes.size ≤ memory.size
  · rw [write?, if_pos h, range?_of_le memory.size_lt (by rwa [hlength]), Option.map_some]
  · rw [write?, if_neg h, range?_of_lt (by rwa [hlength, ← Nat.not_le]), Option.map_none]

/-- What lies between an address and a sum is the range that starts there. -/
theorem slice?_add (h : start.toNat + length.toNat < 0x10000000000000000) :
    memory.slice? start (start + length) = memory.read? start.toNat length.toNat := by
  simp only [slice?, read?, le_add64 h, true_and, toNat_add64 h, add_sub_self]

theorem replace?_add (h : start.toNat + bytes.size < 0x10000000000000000) :
    memory.replace? start (start + bytes.size.toUInt64) bytes =
      memory.write? start.toNat bytes := by
  have hbytes : bytes.size.toUInt64.toNat = bytes.size := toNat_toUInt64 (by omega)
  rw [← hbytes] at h
  simp only [replace?, write?, le_add64 h, true_and, toNat_add64 h, hbytes]

end GuestMemory

end WasmTrim
