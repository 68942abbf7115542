import WasmTrim.Compression.Data
import WasmTrim.Proofs.Compression.Block

/-!
# Frames that are decoded

Decoding a frame gives back the bytes that it was written for, and a frame is not much longer than
these bytes. So the codec that is used for data has all that restoring data asks of one.

## Implementation notes

The loop that reads blocks is followed block by block: what is written for one block makes the
reader go on behind it with the bytes of the block appended.
-/

namespace WasmTrim.Lz4

/-! ### The stored bit -/

section StoredBit

variable {w : UInt32}

theorem getElem_storedBit {i : Nat} (hi : i < 32) : storedBit.toBitVec[i] = decide (i = 31) := by
  have hbit : storedBit.toBitVec = BitVec.twoPow 32 31 := rfl
  rw [hbit, BitVec.getElem_twoPow]

theorem getElem_of_eq_31 (h : w.toNat < 0x80000000) {i : Nat} (hi : i < 32) (hlast : i = 31) :
    w.toBitVec[i] = false := by
  rw [← BitVec.getLsbD_eq_getElem, BitVec.getLsbD, hlast]
  exact Nat.testBit_lt_two_pow h

/-- A short size has no stored bit. -/
theorem and_storedBit (h : w.toNat < 0x80000000) : w &&& storedBit = 0 := by
  apply UInt32.toBitVec_inj.mp
  ext i hi
  simp only [UInt32.toBitVec_and, BitVec.getElem_and, getElem_storedBit hi]
  by_cases hlast : i = 31
  · rw [getElem_of_eq_31 h hi hlast]
    simp
  · simp [hlast]

/-- Removing the stored bit from a short size changes nothing. -/
theorem and_not_storedBit (h : w.toNat < 0x80000000) : w &&& ~~~storedBit = w := by
  apply UInt32.toBitVec_inj.mp
  ext i hi
  simp only [UInt32.toBitVec_and, UInt32.toBitVec_not, BitVec.getElem_and, BitVec.getElem_not,
    getElem_storedBit hi]
  by_cases hlast : i = 31
  · rw [getElem_of_eq_31 h hi hlast]
    rfl
  · simp [hlast]

/-- Removing the stored bit from a marked size gives the size. -/
theorem or_and_not_storedBit (h : w.toNat < 0x80000000) :
    (w ||| storedBit) &&& ~~~storedBit = w := by
  apply UInt32.toBitVec_inj.mp
  ext i hi
  simp only [UInt32.toBitVec_and, UInt32.toBitVec_or, UInt32.toBitVec_not, BitVec.getElem_and,
    BitVec.getElem_or, BitVec.getElem_not, getElem_storedBit hi]
  by_cases hlast : i = 31
  · rw [getElem_of_eq_31 h hi hlast]
    simp [hlast]
  · simp [hlast]

/-- A marked size has the stored bit. -/
theorem or_and_storedBit (w : UInt32) : (w ||| storedBit) &&& storedBit = storedBit := by
  apply UInt32.toBitVec_inj.mp
  ext i hi
  simp only [UInt32.toBitVec_and, UInt32.toBitVec_or, BitVec.getElem_and, BitVec.getElem_or]
  cases w.toBitVec[i] <;> simp

end StoredBit

/-! ### Blocks -/

/-- What a size word and a block say about the bytes that they carry. -/
structure Carries (word : UInt32) (block raw : ByteArray) : Prop where
  /-- The word is not taken for the end mark. -/
  word_ne_zero : word ≠ 0
  /-- The word tells the size of the block. -/
  size_word : (word &&& ~~~storedBit).toNat = block.size
  /-- A block is no longer than its bytes. -/
  size_le : block.size ≤ raw.size
  /-- The block is compressed or stored, as its word tells. -/
  form : (word &&& storedBit = 0 ∧ ∀ front, decodeBlock? block front = some (front ++ raw)) ∨
    (word &&& storedBit ≠ 0 ∧ block = raw)

/-- A compressed block carries the bytes that it expands to by itself. -/
theorem carries_of_decodeBlock? {block raw : ByteArray}
    (hdecode : decodeBlock? block .empty = some raw) (hshorter : block.size < raw.size)
    (hraw : raw.size < 0x80000000) : Carries block.size.toUInt32 block raw := by
  have hword : block.size.toUInt32.toNat = block.size := toNat_toUInt32 (by omega)
  have hpositive := size_pos_of_decodeBlock? hdecode
  constructor
  case word_ne_zero =>
    intro hzero
    rw [hzero, UInt32.toNat_zero] at hword
    omega
  case size_word => rw [and_not_storedBit (by omega), hword]
  case size_le => exact Nat.le_of_lt hshorter
  case form => exact Or.inl ⟨and_storedBit (by omega), decodeBlock?_behind hdecode⟩

/-- A stored block carries itself. -/
theorem carries_stored {raw : ByteArray} (hraw : raw.size < 0x80000000) :
    Carries (raw.size.toUInt32 ||| storedBit) raw raw := by
  have hword : raw.size.toUInt32.toNat = raw.size := toNat_toUInt32 (by omega)
  have hmarked : (raw.size.toUInt32 ||| storedBit) &&& storedBit ≠ 0 := by
    rw [or_and_storedBit]
    decide
  constructor
  case word_ne_zero =>
    intro hzero
    rw [hzero] at hmarked
    exact hmarked rfl
  case size_word => rw [or_and_not_storedBit (by omega), hword]
  case size_le => exact Nat.le_refl _
  case form => exact Or.inr ⟨hmarked, rfl⟩

/-- The block that is written for some bytes carries these. -/
theorem carries_sizeAndBlock (source : ByteArray) (start stop : Nat)
    (hsize : (source.extract start stop).size < 0x80000000) :
    Carries (sizeAndBlock source start stop).1 (sizeAndBlock source start stop).2
      (source.extract start stop) := by
  rw [sizeAndBlock]
  split
  · next hkept => exact carries_of_decodeBlock? hkept.2 hkept.1 hsize
  · exact carries_stored hsize

theorem size_chunk (word : UInt32) (block : ByteArray) :
    (chunk word block).size = block.size + 8 := by
  simp only [chunk, ByteArray.size_append, size_word32Bytes]
  omega

/-- Reading a block goes on behind it with its bytes appended. -/
theorem decodeBlocks?_chunk {word : UInt32} {block raw : ByteArray} (h : Carries word block raw)
    (front back out : ByteArray) :
    decodeBlocks? (front ++ chunk word block ++ back) front.size out =
      decodeBlocks? (front ++ chunk word block ++ back) (front ++ chunk word block).size
        (out ++ raw) := by
  generalize hframe : front ++ chunk word block ++ back = frame
  have hsplit : frame = front ++ word32Bytes word ++ block ++
      word32Bytes (XxHash.hash block) ++ back := by
    rw [← hframe, chunk]
    simp only [ByteArray.append_assoc]
  have hword : word32At frame front.size = word := by
    rw [hsplit, ByteArray.append_assoc, ByteArray.append_assoc]
    exact word32At_append_word32Bytes front word _
  have hfront : (front ++ word32Bytes word).size = front.size + 4 := ByteArray.size_append
  have hblock : frame.extract (front.size + 4) (front.size + 4 + block.size) = block := by
    rw [hsplit, ByteArray.append_assoc, ← hfront]
    exact extract_middle _ block _
  have hcheck : word32At frame (front.size + 4 + block.size) = XxHash.hash block := by
    rw [hsplit, ← hfront, ← ByteArray.size_append]
    exact word32At_append_word32Bytes _ _ back
  have hnext : front.size + 8 + block.size = (front ++ chunk word block).size := by
    rw [ByteArray.size_append, size_chunk]
    omega
  have hroom : (front ++ chunk word block).size ≤ frame.size := by
    rw [← hframe, ByteArray.size_append (a := front ++ chunk word block)]
    exact Nat.le_add_right ..
  have hsound : ¬(frame.size < (front ++ chunk word block).size ∨
      XxHash.hash block ≠ XxHash.hash block) := by
    rintro (hshort | hdamaged)
    · exact absurd hroom (Nat.not_le.mpr hshort)
    · exact hdamaged rfl
  rw [decodeBlocks?, if_neg (by omega)]
  simp only [hword, h.size_word, hblock, hcheck, hnext]
  rw [if_neg h.word_ne_zero, if_neg hsound]
  rcases h.form with ⟨hcompressed, hdecode⟩ | ⟨hstored, rfl⟩
  · rw [if_pos hcompressed, hdecode]
  · rw [if_neg hstored]

/-! ### Frames -/

theorem pushBlocks_eq (out source : ByteArray) (start n : Nat) :
    pushBlocks out source start n = out ++ pushBlocks .empty source start n := by
  induction n generalizing out start with
  | zero => rw [pushBlocks, pushBlocks, ByteArray.append_empty]
  | succ n ih =>
      rw [pushBlocks, pushBlocks, ih, ih (.empty ++ _), ByteArray.empty_append,
        ByteArray.append_assoc]

/-- Reading the blocks that are written for the bytes from `start` on gives all bytes, and the
reader is then at what follows them. -/
theorem decodeBlocks?_pushBlocks (source : ByteArray) (start n : Nat)
    (hstart : start ≤ source.size) (hlow : source.size ≤ start + n * blockSize)
    (hhigh : start + n * blockSize < source.size + blockSize) (front back : ByteArray) :
    decodeBlocks? (front ++ pushBlocks .empty source start n ++ back) front.size
        (source.extract 0 start) =
      decodeBlocks? (front ++ pushBlocks .empty source start n ++ back)
        (front ++ pushBlocks .empty source start n).size source := by
  have hpositive : 0 < blockSize := by decide
  induction n generalizing start front with
  | zero =>
      have hall : start = source.size := by omega
      rw [pushBlocks, ByteArray.append_empty, hall, ByteArray.extract_zero_size]
  | succ n ih =>
      have hsmall : blockSize < 0x80000000 := by decide
      have hcount : (n + 1) * blockSize = n * blockSize + blockSize := Nat.succ_mul ..
      obtain ⟨stop, hstop⟩ : ∃ stop, stop = min (start + blockSize) source.size := ⟨_, rfl⟩
      have hsize : (source.extract start stop).size < 0x80000000 := by
        rw [ByteArray.size_extract]
        omega
      have hraw : source.extract 0 start ++ source.extract start stop = source.extract 0 stop :=
        (ByteArray.extract_eq_extract_append_extract start (Nat.zero_le start) (by omega)).symm
      have hpush : front ++ pushBlocks .empty source start (n + 1) =
          front ++ chunk (sizeAndBlock source start stop).1 (sizeAndBlock source start stop).2 ++
            pushBlocks .empty source stop n := by
        rw [pushBlocks, pushBlocks_eq, ByteArray.empty_append, ← hstop, ByteArray.append_assoc]
      have hblock := decodeBlocks?_chunk (carries_sizeAndBlock source start stop hsize) front
        (pushBlocks .empty source stop n ++ back) (source.extract 0 start)
      rw [hraw, ← ByteArray.append_assoc] at hblock
      have hrest := ih stop (by omega) (by omega) (by omega)
        (front ++ chunk (sizeAndBlock source start stop).1 (sizeAndBlock source start stop).2)
      rw [hpush, hblock, hrest]

/-- The blocks take no more than their bytes and eight more each. -/
theorem size_pushBlocks_le (source : ByteArray) (start n : Nat) (hstart : start ≤ source.size) :
    (pushBlocks .empty source start n).size ≤ source.size - start + 8 * n := by
  induction n generalizing start with
  | zero => exact Nat.zero_le _
  | succ n ih =>
      have hsmall : blockSize < 0x80000000 := by decide
      obtain ⟨stop, hstop⟩ : ∃ stop, stop = min (start + blockSize) source.size := ⟨_, rfl⟩
      have hraw : (source.extract start stop).size = stop - start := by
        rw [ByteArray.size_extract]
        omega
      have hblock := (carries_sizeAndBlock source start stop (by omega)).size_le
      have hrest := ih stop (by omega)
      rw [pushBlocks, pushBlocks_eq, ByteArray.empty_append, ← hstop, ByteArray.size_append,
        size_chunk]
      omega

/-- At the end mark and the right checksum, reading is done. -/
theorem decodeBlocks?_end (front out : ByteArray) :
    decodeBlocks? (front ++ word32Bytes 0 ++ word32Bytes (XxHash.hash out)) front.size out =
      some out := by
  generalize hframe : front ++ word32Bytes 0 ++ word32Bytes (XxHash.hash out) = frame
  have hsize : frame.size = front.size + 8 := by
    rw [← hframe, ByteArray.size_append, ByteArray.size_append, size_word32Bytes, size_word32Bytes]
  have hmark : word32At frame front.size = 0 := by
    rw [← hframe]
    exact word32At_append_word32Bytes front 0 _
  have hcheck : word32At frame (front.size + 4) = XxHash.hash out := by
    rw [← hframe, ← ByteArray.append_empty (b := front ++ word32Bytes 0 ++ _)]
    have hread := word32At_append_word32Bytes (front ++ word32Bytes 0) (XxHash.hash out) .empty
    rwa [ByteArray.size_append, size_word32Bytes] at hread
  rw [decodeBlocks?, if_neg (by omega)]
  simp only [hmark, hcheck]
  rw [if_pos trivial, if_pos ⟨hsize.symm, trivial⟩]

/-- The blocks cover the bytes, and the last one is not empty. -/
theorem blockCount_bounds (bytes : ByteArray) :
    bytes.size ≤ blockCount bytes * blockSize ∧
      blockCount bytes * blockSize < bytes.size + blockSize := by
  have hvalue : blockSize = 4194304 := rfl
  rw [blockCount, hvalue]
  omega

theorem encode_eq (bytes : ByteArray) :
    encode bytes = frameHead ++ pushBlocks .empty bytes 0 (blockCount bytes) ++ word32Bytes 0 ++
      word32Bytes (XxHash.hash bytes) := by
  rw [encode, pushBlocks_eq]

/-- Decoding a frame gives the bytes that it was written for. -/
theorem decode?_encode (bytes : ByteArray) : decode? (encode bytes) = some bytes := by
  obtain ⟨hlow, hhigh⟩ := blockCount_bounds bytes
  have hsize : frameHead.size = 7 := ByteArray.size_push
  have hhead : (encode bytes).extract 0 7 = frameHead := by
    rw [encode_eq, ByteArray.append_assoc, ByteArray.append_assoc]
    exact ByteArray.extract_append_eq_left hsize.symm
  have hblocks := decodeBlocks?_pushBlocks bytes 0 (blockCount bytes) (Nat.zero_le _) (by omega)
    (by omega) frameHead (word32Bytes 0 ++ word32Bytes (XxHash.hash bytes))
  rw [ByteArray.extract_same, ← ByteArray.append_assoc, ← encode_eq, hsize] at hblocks
  rw [decode?, if_pos hhead, hblocks, encode_eq]
  exact decodeBlocks?_end _ bytes

/-- A frame is at most so much longer than its bytes. -/
theorem size_encode_le (bytes : ByteArray) :
    (encode bytes).size ≤ bytes.size + 8 * blockCount bytes + 15 := by
  have hblocks := size_pushBlocks_le bytes 0 (blockCount bytes) (Nat.zero_le _)
  have hsize : frameHead.size = 7 := ByteArray.size_push
  rw [encode_eq]
  simp only [ByteArray.size_append, size_word32Bytes, hsize]
  omega

/-- The frames that are written for data have all that restoring data asks of them. -/
theorem frameCodec : Compression.FrameCodec encode decode? where
  decode?_encode := decode?_encode
  size_encode_lt bytes h := by
    have himage : Compression.maxImageSize = 20971520 := rfl
    have hvalue : blockSize = 4194304 := rfl
    have hframe := size_encode_le bytes
    rw [blockCount, hvalue] at hframe
    omega

end WasmTrim.Lz4
