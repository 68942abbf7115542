/-!
# Fingerprints

The 32-bit FNV-1a hash. A function's fingerprint, the hash of its name's UTF-8 bytes, is the only
identity that an instrumented function reports when it runs.
-/

namespace WasmTrim

/-- One round of FNV-1a: the next byte is mixed in, then the state is multiplied by the prime. -/
def fnvStep (hash : UInt32) (b : UInt8) : UInt32 :=
  (hash ^^^ b.toUInt32) * 0x01000193

/-- The FNV-1a hash of a byte string. -/
def fnv1a (bytes : ByteArray) : UInt32 :=
  bytes.data.foldl fnvStep 0x811c9dc5

/-- The fingerprint of a function, by its name. -/
def fingerprint (name : String) : UInt32 :=
  fnv1a name.toUTF8

end WasmTrim
