import WasmTrim.Archive.Zip.Basic

/-!
# The end of an archive

An archive ends with a record that says where its directory lies and how many headers that has.
Where the numbers do not fit the record, it follows a locator, which says where a wide end record
with wider numbers is. `directoryAt?` gives the directory that the end record at a place leads to.

## Implementation notes

Bytes in front of an archive are allowed, and shift all places in it. By how much is seen from the
first mark of what a place leads to: the first header of the directory, or the wide end record.
-/

namespace WasmTrim.Zip

/-- Where the directory of an archive lies. -/
structure Directory where
  /-- The number of bytes in front of the archive. -/
  shift : Nat
  /-- The place of the first header. -/
  place : Nat
  /-- The number of headers. -/
  count : Nat
  deriving Repr, DecidableEq, Inhabited

/-- The first place of a mark from `i` on and before `j` that meets a condition. -/
def find? (bytes : ByteArray) (mark : UInt32) (i j : Nat) (good : Nat → Bool) : Option Nat :=
  (List.range' i (j - 3 - i)).find? fun place => word32At bytes place == mark && good place

/-- The directory, by the end record at a place. An archive without entries starts where the record
says, or else at the first byte. -/
def narrowDirectory? (bytes : ByteArray) (place : Nat) : Option Directory := do
  let offset := number32 bytes (place + 16)
  if number16 bytes (place + 4) ≠ number16 bytes (place + 6) then none
  let shift ←
    if number16 bytes (place + 10) = 0 then some (place - offset)
    else (find? bytes directoryMark offset place fun _ => true).map (· - offset)
  return ⟨shift, offset + shift, number16 bytes (place + 8)⟩

/-- Tells whether the wide end record at a place is the one that the locator means: it reaches up to
the locator, names the same volume, and leaves room for the directory. -/
def isLocated (bytes : ByteArray) (locator place : Nat) : Bool :=
  let size := number64 bytes (place + 4)
  44 ≤ size && place + size + 12 == locator &&
    number32 bytes (place + 20) == number32 bytes (locator + 4) &&
    46 * number64 bytes (place + 32) + number64 bytes (place + 48) ≤ place

/-- The directory, by the wide end record that a locator leads to. -/
def wideDirectory? (bytes : ByteArray) (locator : Nat) : Option Directory := do
  let offset := number64 bytes (locator + 8)
  if 1 < number32 bytes (locator + 16) then none
  let place ← find? bytes wideEndMark offset locator (isLocated bytes locator)
  if number64 bytes (place + 32) < number64 bytes (place + 24) then none
  if number16 bytes (place + 12) < number16 bytes (place + 14) then none
  if number32 bytes (place + 16) ≠ number32 bytes (place + 20) then none
  let shift := place - offset
  return ⟨shift, number64 bytes (place + 48) + shift, number64 bytes (place + 32)⟩

/-- The directory that the end record at a place leads to. -/
def directoryAt? (bytes : ByteArray) (place : Nat) : Option Directory :=
  if bytes.size < place + 22 ∨ word32At bytes place ≠ endMark ∨
      bytes.size < place + 22 + number16 bytes (place + 20) then none
  else if (number16 bytes (place + 10) = full16 ∨ number32 bytes (place + 16) = full32) ∧
      20 ≤ place ∧ word32At bytes (place - 20) = locatorMark then
    wideDirectory? bytes (place - 20)
  else narrowDirectory? bytes place

end WasmTrim.Zip
