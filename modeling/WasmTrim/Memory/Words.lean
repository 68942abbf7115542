/-!
# Words and runs of bytes

Little-endian words, runs of zeros, and the part of a byte string up to its last non-zero byte.
-/

namespace WasmTrim

/-- Bytes are compared one by one. -/
instance decidableEqByteArray : DecidableEq ByteArray :=
  ByteArray.decEq

/-- A run of zero bytes. -/
def zeros (n : Nat) : ByteArray :=
  ⟨Array.replicate n 0⟩

/-- The four bytes of a word, least significant first. -/
def word32Bytes (w : UInt32) : ByteArray :=
  ⟨#[w.toUInt8, (w >>> 8).toUInt8, (w >>> 16).toUInt8, (w >>> 24).toUInt8]⟩

/-- The sixteen bytes of a number below `2^128`, least significant first. -/
def word128Bytes (n : Nat) : ByteArray :=
  ⟨(Array.range 16).map fun i => (n >>> (8 * i)).toUInt8⟩

/-- The byte at an index; beyond the end it is zero. -/
def byteAt (bytes : ByteArray) (i : Nat) : UInt8 :=
  if h : i < bytes.size then bytes[i] else 0

/-- The word whose four bytes start at an index. -/
def word32At (bytes : ByteArray) (i : Nat) : UInt32 :=
  (byteAt bytes i).toUInt32 ||| ((byteAt bytes (i + 1)).toUInt32 <<< 8) |||
    ((byteAt bytes (i + 2)).toUInt32 <<< 16) ||| ((byteAt bytes (i + 3)).toUInt32 <<< 24)

/-- One more than the last index below `n` that holds a non-zero byte, or zero. -/
def usedBelow (bytes : ByteArray) : Nat → Nat
  | 0 => 0
  | n + 1 => if byteAt bytes n = 0 then usedBelow bytes n else n + 1

/-- The bytes up to the last one that is not zero. -/
def trimZeros (bytes : ByteArray) : ByteArray :=
  bytes.extract 0 (usedBelow bytes bytes.size)

/-- The least index from `i` on, among the next `n`, that holds a non-zero byte. -/
def firstNonZero? (bytes : ByteArray) (i : Nat) : Nat → Option Nat
  | 0 => none
  | n + 1 => if byteAt bytes i = 0 then firstNonZero? bytes (i + 1) n else some i

/-- The bytes before the first zero byte. -/
def beforeZero (bytes : ByteArray) : ByteArray :=
  ⟨bytes.data.takeWhile (· != 0)⟩

end WasmTrim
