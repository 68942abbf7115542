import WasmTrim.Memory.Overlay
import WasmTrim.Memory.Words

/-!
# Guest memory

The memory of a running module. Every access names a range of addresses, and fails unless the whole
range lies within the memory.

The accesses of the guest itself, `read?` and `write?`, have natural numbers for addresses, so no
sum wraps around. The host computes with words of 64 bits: it names a range by its start and its
length with `range?`, or by its two ends with `slice?` and `replace?`.
-/

namespace WasmTrim

/-- A memory: its size, and what was written over its zeros. -/
structure GuestMemory where
  /-- The number of bytes. -/
  size : Nat
  /-- What shows at its addresses. -/
  contents : Overlay := []
  /-- The number of bytes is a word of 64 bits. -/
  size_lt : size < 0x10000000000000000 := by decide
  deriving DecidableEq

instance : Inhabited GuestMemory :=
  ⟨{ size := 0 }⟩

/-- The sum of two words, if it does not wrap around. -/
def checkedAdd? (a b : UInt64) : Option UInt64 :=
  if a ≤ a + b then some (a + b) else none

namespace GuestMemory

/-- The number of bytes of a page, the unit in which memories grow. -/
def pageSize : Nat := 65536

/-- The number of pages that no memory exceeds. -/
def maxPages : Nat := 65536

/-- The longest text that is read up to its zero byte. -/
def maxTextSize : Nat := 4096

/-- A memory of zeros, with as many pages as it may have. -/
def ofPages (pages : Nat) : GuestMemory where
  size := min pages maxPages * pageSize
  size_lt := by
    have hpage : pageSize = 65536 := rfl
    have hmax : min pages maxPages ≤ 65536 := Nat.min_le_right ..
    rw [hpage]
    omega

/-- The bytes of a range. -/
def read? (memory : GuestMemory) (address length : Nat) : Option ByteArray :=
  if address + length ≤ memory.size then some (memory.contents.window address length) else none

/-- The memory with bytes written from an address on. -/
def write? (memory : GuestMemory) (address : Nat) (bytes : ByteArray) : Option GuestMemory :=
  if address + bytes.size ≤ memory.size then
    some { memory with contents := memory.contents.lay address bytes }
  else none

/-- The bytes from an address up to the first zero byte, the end of the memory, or the longest text
that is read. -/
def textAt? (memory : GuestMemory) (address : Nat) : Option ByteArray :=
  if address ≤ memory.size then
    some (beforeZero (memory.contents.window address (min (memory.size - address) maxTextSize)))
  else none

/-- The range that starts at an address, with its end, if it lies within `size` bytes. -/
def range? (size : Nat) (address length : UInt64) : Option (UInt64 × UInt64) :=
  match checkedAdd? address length with
  | some stop => if stop.toNat ≤ size then some (address, stop) else none
  | none => none

/-- The bytes from one address up to another. -/
def slice? (memory : GuestMemory) (start stop : UInt64) : Option ByteArray :=
  if start ≤ stop ∧ stop.toNat ≤ memory.size then
    some (memory.contents.window start.toNat (stop - start).toNat)
  else none

/-- The memory with bytes written from one address up to another. -/
def replace? (memory : GuestMemory) (start stop : UInt64) (bytes : ByteArray) :
    Option GuestMemory :=
  if start ≤ stop ∧ stop.toNat ≤ memory.size then
    some { memory with contents := memory.contents.lay start.toNat bytes }
  else none

/-- The memory with more pages, all zeros, unless it would have more than `limit`. -/
def grow? (memory : GuestMemory) (pages limit : Nat) : Option GuestMemory :=
  if h : memory.size / pageSize + pages ≤ min limit maxPages then
    some { memory with
      size := memory.size + pages * pageSize
      size_lt := by
        have hpage : pageSize = 65536 := rfl
        have hmax : min limit maxPages ≤ 65536 := Nat.min_le_right ..
        rw [hpage] at h ⊢
        omega }
  else none

/-- The memory with patches written one after another, if each of them fits. -/
def writeAll? (memory : GuestMemory) (patches : List Patch) : Option GuestMemory :=
  patches.foldlM (fun memory p => memory.write? p.start p.bytes) memory

end GuestMemory

end WasmTrim
