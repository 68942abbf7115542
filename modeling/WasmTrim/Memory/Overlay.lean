import WasmTrim.Memory.Words

/-!
# Overlays

Bytes laid over a zeroed address space, one patch after another; where patches overlap, the latest
one shows. The data segments of a module are such an overlay, and so is a guest's memory after any
number of writes.

`Overlay.byteAt` says what shows at an address, and `Overlay.window` reads a whole range at once.

## Implementation notes

A window is painted patch by patch, the earliest first, so that its cost depends on the number of
patches and on its own size, but not on the size of the address space.
-/

namespace WasmTrim

/-- Bytes and the address of the first of them. -/
structure Patch where
  /-- The address of the first byte. -/
  start : Nat
  /-- The bytes. -/
  bytes : ByteArray
  deriving DecidableEq, Inhabited

/-- The patches that were laid, the latest first. -/
abbrev Overlay := List Patch

namespace Patch

/-- One more than the last address of a patch. -/
def stop (p : Patch) : Nat :=
  p.start + p.bytes.size

/-- Copies the part of a patch that falls into the window which starts at `origin`. -/
def paint (p : Patch) (origin : Nat) (window : ByteArray) : ByteArray :=
  let low := max origin p.start
  let high := min (origin + window.size) p.stop
  if low < high then p.bytes.copySlice (low - p.start) window (low - origin) (high - low)
  else window

end Patch

namespace Overlay

/-- What shows at an address. -/
def byteAt (overlay : Overlay) (address : Nat) : UInt8 :=
  match overlay with
  | [] => 0
  | p :: earlier =>
    if h : p.start ≤ address ∧ address < p.start + p.bytes.size then
      p.bytes.get (address - p.start) (by omega)
    else byteAt earlier address

/-- What shows at `size` addresses from `origin` on. -/
def window (overlay : Overlay) (origin size : Nat) : ByteArray :=
  overlay.foldr (fun p bytes => p.paint origin bytes) ⟨Array.replicate size 0⟩

/-- Lays one more patch over all others. -/
def lay (overlay : Overlay) (start : Nat) (bytes : ByteArray) : Overlay :=
  ⟨start, bytes⟩ :: overlay

end Overlay

end WasmTrim
