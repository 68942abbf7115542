/-!
# The checksum of archive entries

The 32-bit cyclic redundancy check with the reflected polynomial `0xEDB88320`.
-/

namespace WasmTrim.Crc32

/-- Shifts one bit out of the register. -/
def shift (r : UInt32) : UInt32 :=
  if r &&& 1 = 0 then r >>> 1 else (r >>> 1) ^^^ 0xEDB88320

/-- Takes a byte into the register. -/
def step (r : UInt32) (b : UInt8) : UInt32 :=
  Nat.repeat shift 8 (r ^^^ b.toUInt32)

/-- The checksum of a byte string. -/
def hash (bytes : ByteArray) : UInt32 :=
  ~~~bytes.data.foldl step 0xFFFFFFFF

end WasmTrim.Crc32
