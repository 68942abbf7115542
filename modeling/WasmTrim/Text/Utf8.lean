/-!
# Text from bytes that may be no text

Reading bytes as UTF-8 where broken sequences must not stop the reader: every longest start of a
sequence that cannot go on is shown as one replacement character.
-/

namespace WasmTrim.Utf8

/-- The number of bytes that must follow a leading byte, and the range of the first of them; none
for a byte that leads no sequence. -/
def tail? (lead : UInt8) : Option (Nat × UInt8 × UInt8) :=
  if 0xC2 ≤ lead ∧ lead ≤ 0xDF then some (1, 0x80, 0xBF)
  else if lead = 0xE0 then some (2, 0xA0, 0xBF)
  else if lead = 0xED then some (2, 0x80, 0x9F)
  else if 0xE1 ≤ lead ∧ lead ≤ 0xEF then some (2, 0x80, 0xBF)
  else if lead = 0xF0 then some (3, 0x90, 0xBF)
  else if 0xF1 ≤ lead ∧ lead ≤ 0xF3 then some (3, 0x80, 0xBF)
  else if lead = 0xF4 then some (3, 0x80, 0x8F)
  else none

/-- The bits of a leading byte that count, given the number of bytes that follow it. -/
def leadBits (lead : UInt8) (size : Nat) : Nat :=
  lead.toNat % (1 <<< (6 - size))

/-- Reads the bytes that must follow, as far as they do: the code point if all are there, and what
follows those that were read. -/
def takeTail (value : Nat) (low high : UInt8) :
    (size : Nat) → (bytes : List UInt8) → Option Nat × { r : List UInt8 // r.length ≤ bytes.length }
  | 0, bytes => (some value, ⟨bytes, Nat.le_refl _⟩)
  | _ + 1, [] => (none, ⟨[], Nat.le_refl _⟩)
  | size + 1, b :: rest =>
    if low ≤ b ∧ b ≤ high then
      let (value, ⟨r, h⟩) := takeTail (value * 64 + b.toNat % 64) 0x80 0xBF size rest
      (value, ⟨r, Nat.le_succ_of_le h⟩)
    else (none, ⟨b :: rest, Nat.le_refl _⟩)

/-- Reads bytes on; the characters so far are held in reverse. -/
def lossyFrom (read : List Char) : List UInt8 → List Char
  | [] => read.reverse
  | b :: rest =>
    if b < 0x80 then lossyFrom (Char.ofNat b.toNat :: read) rest
    else
      match tail? b with
      | none => lossyFrom ('\uFFFD' :: read) rest
      | some (size, low, high) =>
        match takeTail (leadBits b size) low high size rest with
        | (some value, ⟨rest', _⟩) => lossyFrom (Char.ofNat value :: read) rest'
        | (none, ⟨rest', _⟩) => lossyFrom ('\uFFFD' :: read) rest'
termination_by bytes => bytes.length
decreasing_by all_goals simp_all only [List.length_cons]; omega

/-- The text that bytes stand for, broken sequences replaced. -/
def decodeLossy (bytes : ByteArray) : String :=
  String.ofList (lossyFrom [] bytes.data.toList)

end WasmTrim.Utf8
