import WasmTrim.Machine.Assembly
import WasmTrim.Machine.Run
import WasmTrim.Machine.Typing
import WasmTrim.Session.Basic

/-!
# Assembled modules

The binary form in which modules are handed around between files: the preamble of a binary module
and one custom section that carries the module's text. A preamble alone is the empty module.

`assemble?` makes the binary of a text that denotes a program, `textOf?` gets the text back, and
`guest?` makes a binary ready to run, if its program is valid.
-/

namespace WasmTrim.Binary

/-- What every binary module starts with. -/
def preamble : ByteArray :=
  ⟨#[0x00, 0x61, 0x73, 0x6d, 0x01, 0x00, 0x00, 0x00]⟩

/-- The name of the custom section that carries the text. -/
def sectionName : ByteArray := "text".toUTF8

/-- A number in groups of seven bits, least significant first; all but the last are marked. -/
def encodeLength (n : Nat) : List UInt8 :=
  if n < 128 then [n.toUInt8] else (n % 128 + 128).toUInt8 :: encodeLength (n / 128)

/-- The number that groups of seven bits denote, and what follows them. -/
def decodeLength? : List UInt8 → Option (Nat × List UInt8)
  | [] => none
  | b :: rest =>
    if b < 128 then some (b.toNat, rest)
    else (decodeLength? rest).map fun (n, rest) => (b.toNat - 128 + 128 * n, rest)

/-- The longest encoding of a length. -/
def maxLengthSize : Nat := 5

/-- The length that is encoded at an index, and the index behind it. -/
def lengthAt? (bytes : ByteArray) (i : Nat) : Option (Nat × Nat) := do
  let (n, rest) ← decodeLength? (bytes.extract i (i + maxLengthSize)).data.toList
  return (n, min (i + maxLengthSize) bytes.size - rest.length)

/-- The binary that carries a text. -/
def ofText (text : String) : ByteArray :=
  let name := ⟨(encodeLength sectionName.size).toArray⟩ ++ sectionName
  let payload := text.toUTF8
  preamble ++ ⟨(0 :: encodeLength (name.size + payload.size)).toArray⟩ ++ name ++ payload

/-- The text that a binary carries. -/
def textOf? (bytes : ByteArray) : Option String := do
  guard (bytes.extract 0 preamble.size = preamble)
  if bytes.size = preamble.size then return "(module)"
  guard (byteAt bytes preamble.size = 0)
  let (size, start) ← lengthAt? bytes (preamble.size + 1)
  guard (start + size = bytes.size)
  let (nameSize, nameStart) ← lengthAt? bytes start
  guard (bytes.extract nameStart (nameStart + nameSize) = sectionName)
  String.fromUTF8? (bytes.extract (nameStart + nameSize) bytes.size)

/-- The binary of a text that denotes a program. -/
def assemble? (text : String) : Option ByteArray :=
  (Program.ofText? text).map fun _ => ofText text

/-- The guest that a binary makes, if its program is valid. -/
def guest? (bytes : ByteArray) : Option Guest := do
  let program ← Program.ofText? (← textOf? bytes)
  if program.isValid then some program.guest else none

end WasmTrim.Binary

namespace WasmTrim.Session

/-- Starts a session of a binary module. -/
def ofBinary (bytes : ByteArray) : Except SessionError Session × History :=
  match Binary.guest? bytes with
  | some guest => start guest
  | none => (.error .invalid, [])

end WasmTrim.Session
