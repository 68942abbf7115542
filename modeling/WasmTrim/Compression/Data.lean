import WasmTrim.Compression.Frame
import WasmTrim.Frozen.Layout
import WasmTrim.Memory.Overlay
import WasmTrim.Module.DataSegment

/-!
# Compressed data

A module's active data segments are laid into one image, and two compressed frames take their place:
one for the window of the frozen image, one for what lies behind it. A header of eight words tells
the runtime where the frames are and where their contents belong; it expands them when it starts.

`Sexpr.flatten` lays out the image, `Sexpr.compressDataWith` replaces the segments by the frames of
any codec, and `Compression.restore?` does what the runtime does with the header.

## Implementation notes

Addresses and lengths are words of 32 bits, and sums of them wrap around. Only the end of the second
frame is a sum of natural numbers, so that a frame that does not fit is seen as such.
-/

namespace WasmTrim

open Frozen

/-- Why a module's data cannot be compressed. -/
inductive CompressError where
  /-- A segment holds a text that is no quoted string. -/
  | notQuoted (cause : Literal.NotQuoted)
  /-- A byte that is not zero lies below the frozen image. -/
  | dataBelowImage (address : Nat)
  /-- The frames would reach past the start of the frozen image. -/
  | overflow (stop : Nat)
  /-- A segment ends beyond the largest image. -/
  | imageTooLarge (stop : Nat)
  deriving Repr, DecidableEq, Inhabited

namespace Compression

/-- The largest image. -/
def maxImageSize : Nat := 20 * 1024 * 1024

/-- The word that marks a frame's kind in the header. -/
def frameTag : UInt32 := 0x00347a6c

/-- The address of the header. -/
def headerAddress : UInt32 := 1024

/-- The number of bytes of the header. -/
def headerSize : Nat := 32

/-- The address of the first frame. -/
def firstFrameAddress : UInt32 := 2048

/-- The second frame starts at a multiple of this. -/
def frameAlignment : UInt32 := 1024

/-- The names of the fields that carry the header and the two frames. -/
def fieldNames : List String :=
  ["$.compressed_data.header", "$.compressed_data.0", "$.compressed_data.1"]

/-- The least multiple of `step` that is not below `n`, if it is a word. -/
def alignUp (n step : UInt32) : UInt32 :=
  ((n.toNat + step.toNat - 1) / step.toNat).toUInt32 * step

/-- A number in lower-case hexadecimal, marked as such. -/
def hexadecimal (n : Nat) : String :=
  "0x" ++ String.ofList (Nat.toDigits 16 n)

/-- How large the two ranges are, before and after compression. -/
structure Report where
  /-- The bytes of the frozen image's window. -/
  frozenSize : Nat
  /-- The bytes of their frame. -/
  frozenCompressed : Nat
  /-- The bytes behind the window. -/
  staticSize : Nat
  /-- The bytes of their frame. -/
  staticCompressed : Nat
  deriving Repr, DecidableEq, Inhabited

/-- Bytes as a frame, and where they belong. -/
structure Piece where
  /-- The address of the frame. -/
  address : UInt32
  /-- The frame. -/
  frame : ByteArray
  /-- The address where its contents belong. -/
  target : UInt32
  deriving DecidableEq, Inhabited

/-- One more than the last address of the frame. -/
def Piece.stop (p : Piece) : Nat :=
  p.address.toNat + p.frame.size

/-- The four header words of a piece. -/
def Piece.words (p : Piece) : List UInt32 :=
  [frameTag, p.address, p.frame.size.toUInt32, p.target]

/-- The header for some pieces. -/
def headerBytes (pieces : List Piece) : ByteArray :=
  (pieces.flatMap Piece.words).foldl (fun bytes w => bytes ++ word32Bytes w) .empty

end Compression

namespace CompressError

open Compression

/-- The report of a failure. -/
def message : CompressError → String
  | .notQuoted cause => cause.message
  | .dataBelowImage address =>
    s!"non-zero data at {hexadecimal address} lies below the frozen image at " ++
      hexadecimal baseAddress
  | .overflow stop =>
    s!"compressed blobs end at {hexadecimal stop}, past the frozen image at " ++
      hexadecimal baseAddress
  | .imageTooLarge stop =>
    s!"data segment ending at {hexadecimal stop} exceeds the {maxImageSize} byte image limit"

end CompressError

namespace Sexpr

open Compression

/-- The data segment of a field, if it has one and it ends within the largest image. -/
def boundedSegment? (field : Sexpr) : Except CompressError (Option DataSegment) :=
  match field.dataSegment? with
  | .error cause => .error (.notQuoted cause)
  | .ok none => .ok none
  | .ok (some segment) =>
    let stop := segment.offset.toNat + segment.bytes.size
    if maxImageSize < stop then .error (.imageTooLarge stop) else .ok (some segment)

/-- Lays the data segments of fields over `overlay`, in order. -/
def overlayOf (overlay : Overlay) : List Sexpr → Except CompressError Overlay
  | [] => .ok overlay
  | field :: rest =>
    match boundedSegment? field with
    | .error e => .error e
    | .ok none => overlayOf overlay rest
    | .ok (some segment) => overlayOf (overlay.lay segment.offset.toNat segment.bytes) rest

/-- The image that a module's data segments make, up to its last byte that is not zero. -/
def flatten (module : Sexpr) : Except CompressError ByteArray :=
  match overlayOf [] module.fields with
  | .error e => .error e
  | .ok overlay =>
    .ok (trimZeros (overlay.window 0 (overlay.foldl (fun n p => max n p.stop) 0)))

/-- Tells whether a field is an active data segment at a constant address. -/
def isActiveData (field : Sexpr) : Bool :=
  match field.dataSegment? with
  | .ok (some _) => true
  | _ => false

/-- The two ranges of an image: the frozen image's window, without the zeros at its end, and what
lies behind the window. -/
def ranges (image : ByteArray) : ByteArray × ByteArray :=
  (trimZeros (image.extract baseAddress maxAddress), image.extract maxAddress image.size)

/-- The pieces that two frames make. -/
def pieces (frozen static : ByteArray) : Piece × Piece :=
  let second := alignUp (firstFrameAddress + frozen.size.toUInt32) frameAlignment
  (⟨firstFrameAddress, frozen, baseAddress.toUInt32⟩, ⟨second, static, maxAddress.toUInt32⟩)

/-- The fields that carry two pieces and their header. -/
def compressedFields (first second : Piece) : List Sexpr :=
  List.zipWith (fun name (address, bytes) => dataField name address bytes) fieldNames
    [(headerAddress, headerBytes [first, second]), (first.address, first.frame),
      (second.address, second.frame)]

/-- Replaces the data segments of a module by frames that `encode` writes. -/
def compressDataWith (encode : ByteArray → ByteArray) (module : Sexpr) :
    Except CompressError (Sexpr × Report) :=
  match module.flatten with
  | .error e => .error e
  | .ok image =>
    match firstNonZero? image 0 (min baseAddress image.size) with
    | some address => .error (.dataBelowImage address)
    | none =>
      let (frozen, static) := ranges image
      let (first, second) := pieces (encode frozen) (encode static)
      if baseAddress < second.stop then .error (.overflow second.stop)
      else
        let kept := module.fields.filter (!·.isActiveData)
        .ok (module.withFields (kept ++ compressedFields first second),
          ⟨frozen.size, first.frame.size, static.size, second.frame.size⟩)

/-- Replaces the data segments of a module by compressed ones. -/
def compressData (module : Sexpr) : Except CompressError (Sexpr × Report) :=
  module.compressDataWith Lz4.encode

/-- The active data segment of a field, if it is well formed and has one. -/
def activeSegment? (field : Sexpr) : Option DataSegment :=
  match field.dataSegment? with
  | .ok segment? => segment?
  | .error _ => none

/-- The data segments of a module, in the order of their fields. -/
def dataSegments (module : Sexpr) : List DataSegment :=
  module.fields.filterMap activeSegment?

/-- What memory holds when a module starts: its data segments over zeros. -/
def initialMemory (module : Sexpr) : Overlay :=
  module.dataSegments.foldl (fun memory s => memory.lay s.offset.toNat s.bytes) []

end Sexpr

namespace Compression

/-- What is assumed of a codec for frames. -/
structure FrameCodec (encode : ByteArray → ByteArray)
    (decode? : ByteArray → Option ByteArray) : Prop where
  /-- Decoding undoes encoding. -/
  decode?_encode : ∀ bytes, decode? (encode bytes) = some bytes
  /-- The length of a frame for at most the largest image is no negative word. -/
  size_encode_lt : ∀ bytes, bytes.size ≤ maxImageSize → (encode bytes).size < 0x80000000

/-- What the header says about a frame. -/
structure FrameRecord where
  /-- The word that marks the frame's kind. -/
  tag : UInt32
  /-- The address of the frame. -/
  address : UInt32
  /-- The number of bytes of the frame. -/
  size : UInt32
  /-- The address where its contents belong. -/
  target : UInt32
  deriving Repr, DecidableEq, Inhabited

/-- The record whose four words start at an index. -/
def recordAt (bytes : ByteArray) (i : Nat) : FrameRecord :=
  ⟨word32At bytes i, word32At bytes (i + 4), word32At bytes (i + 8), word32At bytes (i + 12)⟩

/-- The two records of the header. -/
def headerRecords (memory : Overlay) : FrameRecord × FrameRecord :=
  let header := memory.window headerAddress.toNat headerSize
  (recordAt header 0, recordAt header 16)

/-- The frame that a record describes. -/
def FrameRecord.frame (record : FrameRecord) (memory : Overlay) : ByteArray :=
  memory.window record.address.toNat record.size.toNat

/-- Expands the frame that a record describes and lays its contents where they belong. -/
def restorePiece? (decode? : ByteArray → Option ByteArray) (memory : Overlay)
    (record : FrameRecord) : Option Overlay :=
  (decode? (record.frame memory)).map (memory.lay record.target.toNat ·)

/-- What memory holds once the runtime has followed the header. -/
def restore? (decode? : ByteArray → Option ByteArray) (memory : Overlay) : Option Overlay := do
  let (first, second) := headerRecords memory
  restorePiece? decode? (← restorePiece? decode? memory first) second

end Compression

end WasmTrim
