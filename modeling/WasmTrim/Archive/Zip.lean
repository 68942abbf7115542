import WasmTrim.Archive.Inflate
import WasmTrim.Archive.Zip.EndRecord
import WasmTrim.Archive.Zip.Header

/-!
# Zip archives

An archive ends with a record that says where its directory lies; the directory lists the entries,
each with the place of its contents. `Zip.entries?` lists them in order.

## Implementation notes

The end record is sought from the back, and one whose directory cannot be read is passed over. The
directory alone decides that; an entry that turns out to have no contents fails by itself.
-/

namespace WasmTrim.Zip

/-- An entry of an archive. -/
structure Entry where
  /-- The entry's name. -/
  name : String
  /-- Tells whether the entry can be opened: it is not encrypted, its method is known, and a header
  stands in front of its contents. -/
  supported : Bool
  /-- The entry's contents; none if they are damaged. -/
  contents : Option ByteArray
  deriving Inhabited

/-- Tells whether an entry stands for a directory. -/
def Entry.isDirectory (e : Entry) : Bool :=
  e.name.toList.getLast? == some '/' || e.name.toList.getLast? == some '\\'

/-- The contents of an entry, from its packed bytes. -/
def unpack? (method : Nat) (check : UInt32) (packed : ByteArray) : Option ByteArray := do
  let bytes ← if method = 8 then Inflate.run? packed else some packed
  if Crc32.hash bytes = check then some bytes else none

/-- The entry that a header is about. Contents that the archive breaks off in end there. -/
def Header.entry (h : Header) (bytes : ByteArray) : Entry :=
  let start := h.place + 30 + number16 bytes (h.place + 26) + number16 bytes (h.place + 28)
  { name := h.name
    supported := !h.encrypted && !h.hasCipher && (h.method == 0 || h.method == 8) &&
      h.place + 30 ≤ bytes.size && word32At bytes h.place == entryMark
    contents := unpack? h.method h.check (bytes.extract start (start + h.packedSize)) }

/-- Puts a header behind those of other names; one of the same name gives way in place. -/
def putHeader (h : Header) : List Header → List Header
  | [] => [h]
  | g :: rest => if g.name = h.name then h :: rest else g :: putHeader h rest

/-- Reads `n` headers of a directory from `place` on. Every entry starts before the directory. -/
def headersFrom? (bytes : ByteArray) (directory : Directory) (place : Nat) (read : List Header) :
    Nat → Option (List Header)
  | 0 => some read
  | n + 1 => do
    let (h, next) ← Header.at? bytes place
    let h := { h with place := h.place + directory.shift }
    if directory.place ≤ h.place then none
    headersFrom? bytes directory next (putHeader h read) n

/-- The headers that the end record at a place leads to. -/
def headersByEnd? (bytes : ByteArray) (place : Nat) : Option (List Header) := do
  let directory ← directoryAt? bytes place
  headersFrom? bytes directory directory.place [] directory.count

/-- The headers that the last readable end record before `place` leads to. -/
def headersBefore? (bytes : ByteArray) : (place : Nat) → Option (List Header)
  | 0 => none
  | place + 1 =>
    match headersByEnd? bytes place with
    | some headers => some headers
    | none => headersBefore? bytes place

/-- The entries of an archive, in the order of its directory. -/
def entries? (bytes : ByteArray) : Option (List Entry) :=
  (headersBefore? bytes bytes.size).map (·.map fun h => h.entry bytes)

end WasmTrim.Zip
