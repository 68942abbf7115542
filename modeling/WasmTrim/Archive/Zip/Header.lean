import WasmTrim.Archive.Crc32
import WasmTrim.Archive.Zip.Basic

/-!
# Headers in the directory of an archive

The directory of an archive holds a header for each entry: its name, how its contents are packed,
and where they are. A header ends with extra fields, each with its kind and its size, some of which
give numbers that are too wide for the header, or a better name.

`Header.at?` reads a header. It fails where there is none, and where a field of a known kind breaks
the rules of its kind; fields of other kinds are passed over. Where the fields end in the middle of
one, what they said up to there holds.
-/

namespace WasmTrim.Zip

/-- A header in the directory. -/
structure Header where
  /-- The entry's name. -/
  name : String
  /-- The bytes of the name. -/
  rawName : ByteArray
  /-- The entry's comment. -/
  comment : String
  /-- Tells whether the contents are encrypted. -/
  encrypted : Bool
  /-- Tells whether an extra field describes how they are encrypted. -/
  hasCipher : Bool
  /-- How the contents are packed. -/
  method : Nat
  /-- The checksum of the contents. -/
  check : UInt32
  /-- The size of the packed contents. -/
  packedSize : Nat
  /-- The size that the contents are said to have. -/
  size : Nat
  /-- Where the entry's own header is. -/
  place : Nat
  deriving Inhabited

/-- What reading an extra field leads to. -/
inductive FieldEnd where
  /-- The next field is at a place. -/
  | next (place : Nat)
  /-- The bytes end in the middle of the field. -/
  | cutOff
  /-- The field breaks the rules of its kind. -/
  | invalid
  deriving Repr, DecidableEq, Inhabited

/-- Takes the numbers that the header had no room for; all of them, where the field has room for
three. `i` is the place behind the field's kind and size. -/
def Header.widen (h : Header) (extra : ByteArray) (i size : Nat) : Header × FieldEnd :=
  let behind := fun (i n : Nat) => if 24 ≤ size || n == full32 then i + 8 else i
  let afterSize := behind i h.size
  let afterPacked := behind afterSize h.packedSize
  let afterPlace := behind afterPacked h.place
  let taken := fun (i j n : Nat) => if i < j && j ≤ extra.size then number64 extra i else n
  let h := { h with
    size := taken i afterSize h.size
    packedSize := taken afterSize afterPacked h.packedSize
    place := taken afterPacked afterPlace h.place }
  if extra.size < afterPlace then (h, .cutOff)
  else if i + size < afterPlace then (h, .invalid)
  else if extra.size < i + size then (h, .cutOff)
  else (h, .next (i + size))

/-- Takes what a field tells about encryption: the method of packing that lies below it. -/
def Header.encrypt (h : Header) (extra : ByteArray) (i size : Nat) : Header × FieldEnd :=
  let version := number16 extra i
  let strength := byteAt extra (i + 4)
  if size ≠ 7 then (h, .invalid)
  else if extra.size < i + 7 then (h, .cutOff)
  else if number16 extra (i + 2) ≠ 0x4541 ∨ version = 0 ∨ 2 < version ∨ strength = 0 ∨
      3 < strength then (h, .invalid)
  else ({ h with hasCipher := true, method := number16 extra (i + 5) }, .next (i + 7))

/-- The number of times that a field of times says it holds, by its first byte. -/
def timesIn (flags : UInt8) : Nat :=
  (flags &&& 1).toNat + (flags >>> 1 &&& 1).toNat + (flags >>> 2 &&& 1).toNat

/-- Passes over a field with the times of the file. It holds those that its first byte announces, or
one time only. -/
def timesField (extra : ByteArray) (i size : Nat) : FieldEnd :=
  let flags := byteAt extra i
  if extra.size < i + 1 then .cutOff
  else if 7 < flags then .invalid
  else if size ≠ 5 ∧ size ≠ 1 + 4 * timesIn flags then .invalid
  else if extra.size < i + size then .cutOff
  else .next (i + size)

/-- Passes over a field with the times of the file as another system keeps them. -/
def systemTimesField (extra : ByteArray) (i size : Nat) : FieldEnd :=
  if size ≠ 32 then .invalid
  else if extra.size < i + 6 then .cutOff
  else if number16 extra (i + 4) ≠ 1 then .invalid
  else if extra.size < i + 8 then .cutOff
  else if number16 extra (i + 6) ≠ 24 then .invalid
  else if extra.size < i + 32 then .cutOff
  else .next (i + 32)

/-- Takes a text in place of `former`, whose checksum the field holds. -/
def textField (former extra : ByteArray) (i size : Nat) : Except FieldEnd String :=
  let bytes := extra.extract (i + 5) (i + size)
  if extra.size < i + 5 then .error .cutOff
  else if size < 5 then .error .invalid
  else if extra.size < i + size then .error .cutOff
  else if word32At extra (i + 1) ≠ Crc32.hash former then .error .invalid
  else match String.fromUTF8? bytes with
    | some text => .ok text
    | none => .error .invalid

/-- Takes what a field says. -/
def Header.takeField (h : Header) (extra : ByteArray) (kind i size : Nat) : Header × FieldEnd :=
  match kind with
  | 0x0001 => h.widen extra i size
  | 0x000a => (h, systemTimesField extra i size)
  | 0x5455 => (h, timesField extra i size)
  | 0x6375 =>
    match textField h.comment.toUTF8 extra i size with
    | .ok text => ({ h with comment := text }, .next (i + size))
    | .error e => (h, e)
  | 0x7075 =>
    match textField h.rawName extra i size with
    | .ok text => ({ h with name := text, rawName := text.toUTF8 }, .next (i + size))
    | .error e => (h, e)
  | 0x9901 => h.encrypt extra i size
  | _ => (h, if extra.size < i + size then .cutOff else .next (i + size))

/-- Takes what the fields from a place on say, of which there are `fuel` at most. -/
def Header.takeFields? (h : Header) (extra : ByteArray) (i : Nat) : (fuel : Nat) → Option Header
  | 0 => some h
  | fuel + 1 =>
    if extra.size < i + 4 then some h
    else
      match h.takeField extra (number16 extra i) (i + 4) (number16 extra (i + 2)) with
      | (h, .next place) => takeFields? h extra place fuel
      | (h, .cutOff) => some h
      | (_, .invalid) => none

/-- The method of contents that are encrypted as an extra field describes. -/
def cipherMethod : Nat := 99

/-- Reads the header at a place, and gives the place behind it. -/
def Header.at? (bytes : ByteArray) (place : Nat) : Option (Header × Nat) := do
  if bytes.size < place + 46 ∨ word32At bytes place ≠ directoryMark then none
  let extraPlace := place + 46 + number16 bytes (place + 28)
  let commentPlace := extraPlace + number16 bytes (place + 30)
  let next := commentPlace + number16 bytes (place + 32)
  if bytes.size < next then none
  let flags := number16 bytes (place + 8)
  let text := textOf (flags / 2048 % 2 = 1)
  let rawName := bytes.extract (place + 46) extraPlace
  let extra := bytes.extract extraPlace commentPlace
  let h : Header := {
    name := text rawName
    rawName
    comment := text (bytes.extract commentPlace next)
    encrypted := flags % 2 = 1
    hasCipher := false
    method := number16 bytes (place + 10)
    check := word32At bytes (place + 16)
    packedSize := number32 bytes (place + 20)
    size := number32 bytes (place + 24)
    place := number32 bytes (place + 42) }
  let h ← h.takeFields? extra 0 extra.size
  if h.method = cipherMethod ∧ !h.hasCipher then none
  return (h, next)

end WasmTrim.Zip
