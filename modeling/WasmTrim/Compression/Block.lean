import WasmTrim.Memory.Words

/-!
# LZ4 blocks

A block is a sequence of literal runs, each but the last followed by a match: the order to repeat so
many of the bytes written before, from so many bytes back on. A match may overlap what it writes.

`Lz4.decodeBlock?` expands a block behind the bytes that are already there, which its matches may
refer to. `Lz4.proposeBlock` finds matches greedily.

## Implementation notes

Matches start twelve bytes before the end of a block at the latest and leave five bytes, as the
format demands. The search for matches remembers the last place of each hash of four bytes. Nothing
depends on what it finds: `Frame` keeps a proposed block only after expanding it.
-/

namespace WasmTrim.Lz4

/-- Appends `n` bytes, each a copy of the one `distance` bytes back. -/
def copyMatch (out : ByteArray) (distance : Nat) : Nat → ByteArray
  | 0 => out
  | n + 1 => copyMatch (out.push (byteAt out (out.size - distance))) distance n

/-- Reads on a length that fills its four bits: bytes are added up to the first below 255. The
answer is the length and the place behind it. -/
def extendLength? (input : ByteArray) (stop place length : Nat) :
    Option { r : Nat × Nat // place ≤ r.2 } :=
  if place < stop then
    let b := byteAt input place
    if b = 255 then
      match extendLength? input stop (place + 1) (length + 255) with
      | some ⟨r, h⟩ => some ⟨r, by omega⟩
      | none => none
    else some ⟨(length + b.toNat, place + 1), by simp⟩
  else none
termination_by stop - place

/-- Reads the length whose first four bits are given. -/
def length? (input : ByteArray) (stop place : Nat) (bits : UInt8) :
    Option { r : Nat × Nat // place ≤ r.2 } :=
  if bits = 15 then extendLength? input stop place 15 else some ⟨(bits.toNat, place), by simp⟩

/-- Expands the sequences of a block that ends at `stop`, from `place` on. -/
def expand? (input : ByteArray) (stop place : Nat) (out : ByteArray) : Option ByteArray :=
  if place < stop then
    let token := byteAt input place
    match length? input stop (place + 1) (token >>> 4) with
    | none => none
    | some ⟨(literals, first), _⟩ =>
      let last := first + literals
      let out := out ++ input.extract first last
      if last = stop then some out
      else if stop < last + 2 then none
      else
        let distance := (byteAt input last).toNat + 256 * (byteAt input (last + 1)).toNat
        match length? input stop (last + 2) (token &&& 15) with
        | none => none
        | some ⟨(length, next), _⟩ =>
          if distance = 0 ∨ out.size < distance then none
          else expand? input stop next (copyMatch out distance (length + 4))
  else none
termination_by stop - place
decreasing_by
  simp_all only
  omega

/-- Expands a block behind `out`. -/
def decodeBlock? (block out : ByteArray) : Option ByteArray :=
  expand? block block.size 0 out

/-- The four bits that start the writing of a length. -/
def lengthBits (n : Nat) : UInt8 :=
  if n < 15 then n.toUInt8 else 15

/-- Appends the bytes that continue the writing of a length. -/
def pushLength (out : ByteArray) (n : Nat) : ByteArray :=
  if n < 15 then out
  else (out ++ ⟨Array.replicate ((n - 15) / 255) 255⟩).push ((n - 15) % 255).toUInt8

/-- Appends the literals of `source` between two places. The low bits of the token before them are
those of the match that follows, if any. -/
def pushLiterals (out source : ByteArray) (first last : Nat) (low : UInt8) : ByteArray :=
  pushLength (out.push ((lengthBits (last - first) <<< 4) ||| low)) (last - first) ++
    source.extract first last

/-- Appends literals and a match of the given length, which is at least four. -/
def pushMatch (out source : ByteArray) (first last distance length : Nat) : ByteArray :=
  let out := pushLiterals out source first last (lengthBits (length - 4))
  pushLength ((out.push distance.toUInt8).push (distance / 256).toUInt8) (length - 4)

/-- How many of the next `n` bytes at two places agree, counting on from `found`. -/
def agreement (source : ByteArray) (i j found : Nat) : Nat → Nat
  | 0 => found
  | n + 1 =>
    if byteAt source i = byteAt source j then agreement source (i + 1) (j + 1) (found + 1) n
    else found

/-- The slot in the table of recent places for the four bytes of a word. -/
def slot (w : UInt32) : Nat :=
  ((w * 2654435761) >>> 18).toNat

/-- The number of slots. -/
def slotCount : Nat := 16384

/-- Writes the sequences for `source` up to `stop`: literals are pending from `first` on, matches
are sought from `place` on, and `recent` holds one more than the last place of each slot. -/
def propose (source : ByteArray) (stop first place : Nat) (recent : Array Nat) (out : ByteArray) :
    ByteArray :=
  if place + 12 < stop then
    let w := word32At source place
    let seen := recent.getD (slot w) 0
    let recent := recent.setIfInBounds (slot w) (place + 1)
    if 0 < seen ∧ place < seen + 65535 ∧ word32At source (seen - 1) = w then
      let more := agreement source (seen + 3) (place + 4) 0 (stop - 5 - (place + 4))
      let out := pushMatch out source first place (place + 1 - seen) (4 + more)
      propose source stop (place + (4 + more)) (place + (4 + more)) recent out
    else propose source stop first (place + 1) recent out
  else pushLiterals out source first stop 0
termination_by stop - place

/-- A block for the bytes of `source` between two places. -/
def proposeBlock (source : ByteArray) (start stop : Nat) : ByteArray :=
  propose source stop start start (Array.replicate slotCount 0) .empty

end WasmTrim.Lz4
