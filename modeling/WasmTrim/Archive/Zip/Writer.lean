import WasmTrim.Archive.Crc32
import WasmTrim.Archive.Zip.Basic

/-!
# Making archives

`Zip.archive` makes an archive whose entries are stored as they are.
-/

namespace WasmTrim.Zip

/-- The two bytes of a number, least significant first. -/
def bytes16 (n : Nat) : ByteArray :=
  ⟨#[n.toUInt8, (n / 256).toUInt8]⟩

/-- The part of an entry's headers that both have in common. -/
def commonHeader (name contents : ByteArray) : ByteArray :=
  bytes16 0x0800 ++ bytes16 0 ++ word32Bytes 0x00210000 ++ word32Bytes (Crc32.hash contents) ++
    word32Bytes contents.size.toUInt32 ++ word32Bytes contents.size.toUInt32 ++ bytes16 name.size

/-- Appends an entry's header and contents. -/
def pushEntry (out name contents : ByteArray) : ByteArray :=
  out ++ word32Bytes entryMark ++ bytes16 20 ++ commonHeader name contents ++ bytes16 0 ++ name ++
    contents

/-- The entry in the directory for contents whose header lies at `place`. -/
def directoryEntry (name contents : ByteArray) (place : Nat) : ByteArray :=
  word32Bytes directoryMark ++ bytes16 20 ++ bytes16 20 ++ commonHeader name contents ++
    zeros 12 ++ word32Bytes place.toUInt32 ++ name

/-- The archive of stored entries with the given names and contents, in order. -/
def archive (files : List (String × ByteArray)) : ByteArray :=
  let (out, directory) := files.foldl (fun (out, directory) (name, contents) =>
    (pushEntry out name.toUTF8 contents, directory ++ directoryEntry name.toUTF8 contents out.size))
    ((.empty, .empty) : ByteArray × ByteArray)
  out ++ directory ++ word32Bytes endMark ++ zeros 4 ++ bytes16 files.length ++
    bytes16 files.length ++ word32Bytes directory.size.toUInt32 ++ word32Bytes out.size.toUInt32 ++
    bytes16 0

end WasmTrim.Zip
