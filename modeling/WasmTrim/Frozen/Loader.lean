import WasmTrim.Frozen.Store

/-!
# Finding modules in the frozen image

The runtime walks the table of the image record by record until it meets one that is all zeros. Of a
record it takes the two words and the path up to its zero byte; the words tell it where the code
lies in memory. `Frozen.records?` is this walk and `Record.module?` what a record stands for.

## Implementation notes

The walk ends within the table or fails, so that an image whose table is never ended has no records
at all instead of some that are read out of the strings behind it. A path is read on to the next
zero byte, wherever that is, since nothing in the image tells the runtime where a record ends.
-/

namespace WasmTrim.Frozen

/-- A record as the runtime reads it. -/
structure Record where
  /-- The address of the module's code. -/
  address : UInt32
  /-- The number of bytes of the code. -/
  size : UInt32
  /-- The bytes of the module's path. -/
  path : ByteArray
  deriving DecidableEq, Inhabited

/-- The record at a place of an image. -/
def recordAt (image : ByteArray) (place : Nat) : Record where
  address := word32At image place
  size := word32At image (place + 4)
  path := beforeZero (image.extract (place + 8) image.size)

/-- The records from a place on up to the one that ends the table, which must be among the next
`n`. -/
def recordsFrom? (image : ByteArray) (place : Nat) : (n : Nat) → Option (List Record)
  | 0 => none
  | n + 1 =>
    if image.extract place (place + recordSize) = zeros recordSize then some []
    else (recordsFrom? image (place + recordSize) n).map (recordAt image place :: ·)

/-- The records of an image. -/
def records? (image : ByteArray) : Option (List Record) :=
  recordsFrom? image 0 slots

/-- The module that a record of an image stands for, if its path is text. -/
def Record.module? (image : ByteArray) (r : Record) : Option FrozenModule :=
  let place := r.address.toNat - baseAddress
  (String.fromUTF8? r.path).map fun path => ⟨path, image.extract place (place + r.size.toNat)⟩

end WasmTrim.Frozen
