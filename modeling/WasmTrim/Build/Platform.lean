import WasmTrim.Compression.Data
import WasmTrim.EntryPoints.OfJson
import WasmTrim.FileTree.Disk
import WasmTrim.Frozen.Collect
import WasmTrim.Machine.Binary
import WasmTrim.Session.Basic
import WasmTrim.Toolchain.Basic

/-!
# Platforms

What a build does not do itself: tools turn modules into text and back, a disk holds the files, an
engine runs modules, and libraries read archives and JSON and compress bytes. `Platform.ofTools` has
all of these but the tools.
-/

namespace WasmTrim

/-- Starts a session of a binary module. What was noted is there even if no session starts. -/
abbrev Engine (σ : Type) := ByteArray → σ → (Except SessionError Session × History) × σ

/-- What a build relies on. The tools, the disk and the engine have a state, which is a `σ`. -/
structure Platform (σ : Type) where
  /-- The tools. -/
  tools : Toolchain σ
  /-- The disk. -/
  disk : Disk σ
  /-- The engine that runs modules. -/
  engine : Engine σ
  /-- The reader of archives. -/
  entries? : ArchiveReader
  /-- The reader of JSON. -/
  readObject? : ObjectReader
  /-- The writer of compressed frames. -/
  encode : ByteArray → ByteArray

/-- The platform with some tools and a disk that does what can be done. -/
def Platform.ofTools {σ : Type} (tools : Toolchain σ) : Platform σ where
  tools
  disk := .reliable
  engine bytes state := (Session.ofBinary bytes, state)
  entries? := Zip.entries?
  readObject? := Json.readObject?
  encode := Lz4.encode

end WasmTrim
