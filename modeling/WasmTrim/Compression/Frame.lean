import WasmTrim.Compression.Block
import WasmTrim.Compression.XxHash

/-!
# LZ4 frames

A frame carries bytes as blocks of at most four mebibytes, each with its checksum, and ends with the
checksum of all bytes. A block that would not become shorter is stored as it is. `Lz4.encode` writes
a frame and `Lz4.decode?` reads one.

## Implementation notes

A proposed block is kept only if it is shorter than its bytes and expands to them. So decoding
undoes encoding however matches are found.
-/

namespace WasmTrim.Lz4

/-- The first bytes of every frame, ahead of its description. -/
def magic : ByteArray := ⟨#[0x04, 0x22, 0x4d, 0x18]⟩

/-- The description of a frame: version one, blocks that may refer to earlier ones, checksums for
blocks and for the content, and blocks of at most four mebibytes. -/
def description : ByteArray := ⟨#[0x54, 0x70]⟩

/-- The byte that guards the description. -/
def descriptionCheck : UInt8 :=
  (XxHash.hash description >>> 8).toUInt8

/-- What every frame starts with. -/
def frameHead : ByteArray :=
  (magic ++ description).push descriptionCheck

/-- The number of bytes that a block may hold. -/
def blockSize : Nat := 4 * 1024 * 1024

/-- The bit of a block's size that tells that it is stored. -/
def storedBit : UInt32 := 0x80000000

/-- The size word and the bytes of the block for `source` between two places. -/
def sizeAndBlock (source : ByteArray) (start stop : Nat) : UInt32 × ByteArray :=
  let raw := source.extract start stop
  let block := proposeBlock source start stop
  if block.size < raw.size ∧ decodeBlock? block .empty = some raw then
    (block.size.toUInt32, block)
  else (raw.size.toUInt32 ||| storedBit, raw)

/-- What stands in a frame for one block. -/
def chunk (word : UInt32) (block : ByteArray) : ByteArray :=
  word32Bytes word ++ block ++ word32Bytes (XxHash.hash block)

/-- Appends `n` blocks for the bytes from `start` on. -/
def pushBlocks (out source : ByteArray) (start : Nat) : Nat → ByteArray
  | 0 => out
  | n + 1 =>
    let stop := min (start + blockSize) source.size
    let sized := sizeAndBlock source start stop
    pushBlocks (out ++ chunk sized.1 sized.2) source stop n

/-- The number of blocks for some bytes. -/
def blockCount (bytes : ByteArray) : Nat :=
  (bytes.size + blockSize - 1) / blockSize

/-- The frame that carries the given bytes. -/
def encode (bytes : ByteArray) : ByteArray :=
  let blocks := pushBlocks frameHead bytes 0 (blockCount bytes)
  blocks ++ word32Bytes 0 ++ word32Bytes (XxHash.hash bytes)

/-- Reads blocks from `place` on, appending what they carry, up to the end mark and the checksum of
the content, which must be the last bytes of the frame. -/
def decodeBlocks? (frame : ByteArray) (place : Nat) (out : ByteArray) : Option ByteArray :=
  if frame.size < place + 8 then none
  else
    let word := word32At frame place
    if word = 0 then
      if place + 8 = frame.size ∧ word32At frame (place + 4) = XxHash.hash out then some out
      else none
    else
      let size := (word &&& ~~~storedBit).toNat
      let block := frame.extract (place + 4) (place + 4 + size)
      if frame.size < place + 8 + size ∨ word32At frame (place + 4 + size) ≠ XxHash.hash block then
        none
      else if word &&& storedBit = 0 then
        match decodeBlock? block out with
        | some out => decodeBlocks? frame (place + 8 + size) out
        | none => none
      else decodeBlocks? frame (place + 8 + size) (out ++ block)
termination_by frame.size - place

/-- The bytes that a frame carries. -/
def decode? (frame : ByteArray) : Option ByteArray :=
  if frame.extract 0 7 = frameHead then decodeBlocks? frame 7 .empty else none

end WasmTrim.Lz4
