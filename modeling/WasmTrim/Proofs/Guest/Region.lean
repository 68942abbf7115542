import WasmTrim.Proofs.Guest.Memory

/-!
# Regions of guest memory

Host and guest share a memory, and each of them lays bytes into regions of its own. What lies in a
region stays there as long as the others write to regions that are apart from it, which
`GuestMemory.Spares` says of any two states of a memory.
-/

namespace WasmTrim

/-- A range of addresses. -/
structure Region where
  /-- The first address. -/
  start : Nat
  /-- The number of addresses. -/
  size : Nat
  deriving DecidableEq, Inhabited

namespace Region

/-- One more than the last address of a region. -/
def stop (r : Region) : Nat :=
  r.start + r.size

/-- A region has an address. -/
def Covers (r : Region) (a : Nat) : Prop :=
  r.start ≤ a ∧ a < r.stop

/-- One of two regions ends before the other starts. -/
def Apart (r other : Region) : Prop :=
  r.stop ≤ other.start ∨ other.stop ≤ r.start

end Region

/-- Where a patch lies. -/
def Patch.region (p : Patch) : Region :=
  ⟨p.start, p.bytes.size⟩

namespace GuestMemory

variable {memory later last : GuestMemory} {taken : List Region} {place : Nat} {bytes : ByteArray}

/-- A memory that may have grown, and that shows in some regions what it showed before. -/
structure Spares (memory later : GuestMemory) (taken : List Region) : Prop where
  /-- Memory only grows. -/
  size_le : memory.size ≤ later.size
  /-- The regions show the same. -/
  byteAt_eq : ∀ r ∈ taken, ∀ a, r.Covers a → later.contents.byteAt a = memory.contents.byteAt a

theorem Spares.trans (h : memory.Spares later taken) (hlast : later.Spares last taken) :
    memory.Spares last taken where
  size_le := Nat.le_trans h.size_le hlast.size_le
  byteAt_eq r hr a ha := (hlast.byteAt_eq r hr a ha).trans (h.byteAt_eq r hr a ha)

/-- What lies in a region that is spared is still there. -/
theorem Holds.of_spares (h : memory.Holds place bytes) (hspares : memory.Spares later taken)
    (htaken : ⟨place, bytes.size⟩ ∈ taken) : later.Holds place bytes where
  inside := Nat.le_trans h.inside hspares.size_le
  byteAt_eq i hi := by
    have hcovers : Region.Covers ⟨place, bytes.size⟩ (place + i) :=
      ⟨Nat.le_add_right place i, Nat.add_lt_add_left hi place⟩
    rw [hspares.byteAt_eq _ htaken _ hcovers, h.byteAt_eq i hi]

/-- Writing to a region spares those that are apart from it. -/
theorem Replaced.spares (h : memory.Replaced later place bytes)
    (hapart : ∀ r ∈ taken, Region.Apart ⟨place, bytes.size⟩ r) : memory.Spares later taken where
  size_le := Nat.le_of_eq h.size_eq.symm
  byteAt_eq r hr a ha := by
    apply h.byteAt_eq
    rcases hapart r hr with hbefore | hafter
    · exact Or.inr (Nat.le_trans hbefore ha.1)
    · exact Or.inl (Nat.lt_of_lt_of_le ha.2 hafter)

/-- Memory shows what its window shows. -/
theorem holds_window {size : Nat} (h : place + size ≤ memory.size) :
    memory.Holds place (memory.contents.window place size) :=
  (read?_eq_some_iff.mp (if_pos h)).2

/-- Replacing bytes leaves the size as it is. -/
theorem size_of_replace? {start stop : UInt64}
    (h : memory.replace? start stop bytes = some later) : later.size = memory.size := by
  rw [replace?] at h
  split at h
  · cases h
    rfl
  · cases h

end GuestMemory

end WasmTrim
