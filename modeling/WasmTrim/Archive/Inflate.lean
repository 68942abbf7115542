import WasmTrim.Memory.Words

/-!
# Expanding deflated bytes

The reader of the deflate format: blocks that are stored, or coded with fixed or own Huffman codes,
of literal bytes and of references to bytes written before.

`Inflate.run?` gives all bytes up to the end of the last block; it fails where the input breaks off
before that, or is no deflated data. What follows the last block is left alone.

## Implementation notes

A code is kept as the number of its words of each length and its symbols in order of their words, so
that decoding a symbol compares the bits read so far with the range of words of their length. Every
symbol takes at least one bit, so the number of bits bounds the number of symbols. The bytes are
taken to follow a run of zeros, so a reference that reaches back beyond the first byte is to zeros.
-/

namespace WasmTrim.Inflate

/-- A reader of bits: from the index of the next bit to a value and the index behind it, or a
failure. -/
abbrev Reading (α : Type) := StateT Nat Option α

/-- Reads one bit; the low bits of a byte come first. -/
def bit (input : ByteArray) : Reading Nat := fun i =>
  if i / 8 < input.size then some (((byteAt input (i / 8)).toNat >>> (i % 8)) % 2, i + 1) else none

/-- Reads a number of so many bits, the lowest first. -/
def bits (input : ByteArray) : Nat → Reading Nat
  | 0 => return 0
  | n + 1 => do
    let b ← bit input
    return b + 2 * (← bits input n)

/-- A prefix code: how many words of each length it has, and its symbols in order of their words. -/
structure Code where
  /-- The number of words of one bit, of two bits, and so on up to fifteen. -/
  counts : List Nat
  /-- The symbols, those of shorter words first. -/
  symbols : Array Nat
  deriving Inhabited

/-- The code that gives each symbol a word of the given length, or none where the length is zero. -/
def Code.ofLengths (lengths : Array Nat) : Code :=
  let ofLength := fun n => (List.range lengths.size).filter fun s => lengths.getD s 0 == n
  let groups := (List.range 15).map fun n => ofLength (n + 1)
  ⟨groups.map (·.length), groups.flatten.toArray⟩

/-- The number of words of fifteen bits that a code leaves unused, or none if its lengths are
impossible. -/
def Code.unused? (code : Code) : Option Nat :=
  code.counts.foldlM (fun left n => if 2 * left < n then none else some (2 * left - n)) 1

/-- Tells whether the words of a code take up all there are. -/
def Code.isComplete (code : Code) : Bool :=
  code.unused? == some 0

/-- Tells whether a code can stand for bytes or distances: it is complete, or has no word but one of
a single bit. -/
def Code.isUsable (code : Code) : Bool :=
  code.isComplete || code.counts.headD 0 == code.symbols.size && code.symbols.size ≤ 1

/-- Reads on a symbol: `word` is made of the bits read so far, `first` is the first word of their
length, and `index` the number of symbols with shorter words. -/
def symbolFrom (code : Code) (input : ByteArray) (word first index : Nat) :
    List Nat → Reading Nat
  | [] => failure
  | count :: counts => do
    let word := 2 * word + (← bit input)
    if word < first + count then return code.symbols.getD (index + (word - first)) 0
    symbolFrom code input word (2 * (first + count)) (index + count) counts

/-- Reads a symbol. -/
def symbol (code : Code) (input : ByteArray) : Reading Nat :=
  symbolFrom code input 0 0 0 code.counts

/-- The shortest match of each length symbol, and the number of bits that are added to it. -/
def lengthSymbols : Array (Nat × Nat) := #[
  (3, 0), (4, 0), (5, 0), (6, 0), (7, 0), (8, 0), (9, 0), (10, 0), (11, 1), (13, 1), (15, 1),
  (17, 1), (19, 2), (23, 2), (27, 2), (31, 2), (35, 3), (43, 3), (51, 3), (59, 3), (67, 4), (83, 4),
  (99, 4), (115, 4), (131, 5), (163, 5), (195, 5), (227, 5), (258, 0)]

/-- The least distance of each distance symbol, and the number of bits that are added to it. -/
def distanceSymbols : Array (Nat × Nat) := #[
  (1, 0), (2, 0), (3, 0), (4, 0), (5, 1), (7, 1), (9, 2), (13, 2), (17, 3), (25, 3), (33, 4), (49, 4),
  (65, 5), (97, 5), (129, 6), (193, 6), (257, 7), (385, 7), (513, 8), (769, 8), (1025, 9), (1537, 9),
  (2049, 10), (3073, 10), (4097, 11), (6145, 11), (8193, 12), (12289, 12), (16385, 13), (24577, 13)]

/-- Reads the number that a symbol and the bits added to it stand for. -/
def extended (table : Array (Nat × Nat)) (input : ByteArray) (index : Nat) : Reading Nat := do
  match table[index]? with
  | none => failure
  | some (least, more) => return least + (← bits input more)

/-- Reads the length and the distance of a reference, behind the symbol of its length. -/
def reference (distances : Code) (input : ByteArray) (s : Nat) : Reading (Nat × Nat) := do
  let length ← extended lengthSymbols input (s - 257)
  let distance ← extended distanceSymbols input (← symbol distances input)
  return (length, distance)

/-- The byte so far back from the end; before the first one there are zeros. -/
def byteBack (out : ByteArray) (distance : Nat) : UInt8 :=
  if distance ≤ out.size then byteAt out (out.size - distance) else 0

/-- Appends `n` bytes, each a copy of the one `distance` bytes back. -/
def repeatBytes (out : ByteArray) (distance : Nat) : Nat → ByteArray
  | 0 => out
  | n + 1 => repeatBytes (out.push (byteBack out distance)) distance n

/-- Reads the symbols of a block up to its end mark. -/
def symbols (literals distances : Code) (input : ByteArray) (out : ByteArray) :
    (fuel : Nat) → Reading ByteArray
  | 0 => failure
  | fuel + 1 => do
    let s ← symbol literals input
    if s < 256 then symbols literals distances input (out.push s.toUInt8) fuel
    else if s = 256 then return out
    else
      let (length, distance) ← reference distances input s
      symbols literals distances input (repeatBytes out distance length) fuel

/-- The literal code that blocks with fixed codes use. -/
def fixedLiterals : Code :=
  .ofLengths ((List.replicate 144 8 ++ List.replicate 112 9 ++ List.replicate 24 7 ++
    List.replicate 8 8).toArray)

/-- The distance code that blocks with fixed codes use. -/
def fixedDistances : Code :=
  .ofLengths (Array.replicate 30 5)

/-- The order in which the lengths of the words for lengths are written. -/
def lengthOrder : List Nat :=
  [16, 17, 18, 0, 8, 7, 9, 6, 10, 5, 11, 4, 12, 3, 13, 2, 14, 1, 15]

/-- Reads the lengths of the words for lengths. -/
def orderedLengths (input : ByteArray) (lengths : Array Nat) : List Nat → Reading (Array Nat)
  | [] => return lengths
  | place :: rest => do orderedLengths input (lengths.setIfInBounds place (← bits input 3)) rest

/-- Reads the lengths of the words of both codes, `total` of them. -/
def codeLengths (code : Code) (input : ByteArray) (total : Nat) (lengths : Array Nat) :
    (fuel : Nat) → Reading (Array Nat)
  | 0 => failure
  | fuel + 1 => do
    if total ≤ lengths.size then
      if lengths.size = total then return lengths else failure
    let s ← symbol code input
    if s < 16 then codeLengths code input total (lengths.push s) fuel
    else
      let (value, least, more) :=
        if s = 16 then (lengths.back?, 3, 2) else if s = 17 then (some 0, 3, 3)
        else (some 0, 11, 7)
      let times := least + (← bits input more)
      match value with
      | none => failure
      | some n => codeLengths code input total (lengths ++ Array.replicate times n) fuel

/-- Reads the two codes of a block that brings its own. -/
def ownCodes (input : ByteArray) : Reading (Code × Code) := do
  let h ← bits input 5
  let d ← bits input 5
  let c ← bits input 4
  let code := Code.ofLengths
    (← orderedLengths input (Array.replicate 19 0) (lengthOrder.take (c + 4)))
  if !code.isComplete || 286 < h + 257 || 30 < d + 1 then failure
  let total := h + 257 + (d + 1)
  let lengths ← codeLengths code input total #[] (total + 1)
  let literals := Code.ofLengths (lengths.extract 0 (h + 257))
  let distances := Code.ofLengths (lengths.extract (h + 257) total)
  if literals.isUsable && distances.isUsable then return (literals, distances)
  else failure

/-- Reads a stored block, from the next full byte on. -/
def storedBlock (input : ByteArray) (out : ByteArray) : Reading ByteArray := fun i =>
  let place := (i + 7) / 8
  let w := word32At input place
  let next := place + 4 + (w &&& 0xFFFF).toNat
  if input.size < next ∨ w >>> 16 ≠ ~~~w &&& 0xFFFF then none
  else some (out ++ input.extract (place + 4) next, 8 * next)

/-- Reads a block behind the three bits that describe it. -/
def block (input : ByteArray) (kind : Nat) (out : ByteArray) : Reading ByteArray := do
  let fuel := 8 * input.size + 1
  if kind = 0 then storedBlock input out
  else if kind = 1 then symbols fixedLiterals fixedDistances input out fuel
  else if kind = 2 then
    let (literals, distances) ← ownCodes input
    symbols literals distances input out fuel
  else failure

/-- Reads blocks up to the last one. -/
def blocks (input : ByteArray) (out : ByteArray) : (fuel : Nat) → Reading ByteArray
  | 0 => failure
  | fuel + 1 => do
    let description ← bits input 3
    let out ← block input (description / 2) out
    if description % 2 = 1 then return out else blocks input out fuel

/-- The bytes that deflated data stand for; none if the data are damaged. -/
def run? (input : ByteArray) : Option ByteArray :=
  (blocks input .empty (8 * input.size + 1)).run' 0

end WasmTrim.Inflate
