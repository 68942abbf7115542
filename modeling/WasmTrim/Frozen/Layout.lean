/-!
# The frozen image's place in memory

The frozen image lies in a fixed window of the guest's memory. It starts with a table of 64-byte
records, one per module, that an all-zero record ends:

* bytes 0 to 3: the address of the module's code;
* bytes 4 to 7: the length of that code;
* bytes 8 to 63: the module's path, padded with zeros.

Strings that other code refers to by address follow the table, each ended by a zero byte, and then
the code of all modules back to back. Words are little-endian.
-/

namespace WasmTrim.Frozen

/-- The address where the image starts. -/
def baseAddress : Nat := 1048576

/-- The address where the window of the image ends. -/
def maxAddress : Nat := 8388608

/-- The number of bytes that an image may take. -/
def windowSize : Nat := maxAddress - baseAddress

/-- The number of bytes of a record. -/
def recordSize : Nat := 64

/-- The number of bytes that a path may not reach, so that a zero byte always ends it. -/
def pathLimit : Nat := 56

/-- The number of records in the table, the one that ends it included. -/
def slots : Nat := 512

/-- Where the strings start, counted from the image's start. -/
def stringsOffset : Nat := recordSize * slots

/-- The name of the data segment that carries the image. -/
def segmentName : String := "$.data.frozen"

end WasmTrim.Frozen
