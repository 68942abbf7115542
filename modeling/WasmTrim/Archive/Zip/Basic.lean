import WasmTrim.Memory.Words
import WasmTrim.Text.Utf8

/-!
# The parts of zip archives

The marks that tell the records of an archive apart, the numbers in them, and the names of entries.
-/

namespace WasmTrim.Zip

/-- The number whose two bytes start at an index. -/
def number16 (bytes : ByteArray) (i : Nat) : Nat :=
  (byteAt bytes i).toNat + 256 * (byteAt bytes (i + 1)).toNat

/-- The number whose four bytes start at an index. -/
def number32 (bytes : ByteArray) (i : Nat) : Nat :=
  (word32At bytes i).toNat

/-- The number whose eight bytes start at an index. -/
def number64 (bytes : ByteArray) (i : Nat) : Nat :=
  number32 bytes i + 0x100000000 * number32 bytes (i + 4)

/-- What a number of two bytes holds when the real one stands elsewhere. -/
def full16 : Nat := 0xFFFF

/-- What a number of four bytes holds when the real one stands elsewhere. -/
def full32 : Nat := 0xFFFFFFFF

/-- The mark of an entry's own header. -/
def entryMark : UInt32 := 0x04034b50

/-- The mark of a header in the directory. -/
def directoryMark : UInt32 := 0x02014b50

/-- The mark of the end record. -/
def endMark : UInt32 := 0x06054b50

/-- The mark of the wide end record. -/
def wideEndMark : UInt32 := 0x06064b50

/-- The mark of the record that tells where the wide end record is. -/
def locatorMark : UInt32 := 0x07064b50

/-- The upper half of the character set of texts that are not marked as UTF-8. -/
def upperHalf : String :=
  "ÇüéâäàåçêëèïîìÄÅÉæÆôöòûùÿÖÜ¢£¥₧ƒáíóúñÑªº¿⌐¬½¼¡«»░▒▓│┤╡╢╖╕╣║╗╝╜╛┐└┴┬├─┼╞╟╚╔╩╦╠═╬╧╨╤╥╙╘╒╓╫╪┘┌█▄▌▐▀" ++
    "αßΓπΣσµτΦΘΩδ∞φε∩≡±≥≤⌠⌡÷≈°∙·√ⁿ²■\u00a0"

/-- The text that bytes stand for, given whether they are marked as UTF-8. -/
def textOf (utf8 : Bool) (bytes : ByteArray) : String :=
  if utf8 then Utf8.decodeLossy bytes
  else String.ofList (bytes.data.toList.map fun b =>
    if b < 128 then Char.ofNat b.toNat else upperHalf.toList.getD (b.toNat - 128) ' ')

end WasmTrim.Zip
