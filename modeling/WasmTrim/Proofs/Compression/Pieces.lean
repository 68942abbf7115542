import WasmTrim.Compression.Data
import WasmTrim.Proofs.Memory.Overlay

/-!
# Where the header and the frames lie

The header and the two frames lie one after another below the frozen image, and the header that is
written for two pieces is read back as their records.
-/

namespace WasmTrim.Compression

open Frozen

/-- What the header says about a piece. -/
def Piece.record (p : Piece) : FrameRecord :=
  ⟨frameTag, p.address, p.frame.size.toUInt32, p.target⟩

/-- The header and two frames lie one after another below the frozen image, and the second frame is
aligned. -/
structure Placed (first second : FrameRecord) : Prop where
  /-- The first frame starts behind the header. -/
  header : headerAddress.toNat + headerSize ≤ first.address.toNat
  /-- The second frame starts behind the first one. -/
  frames : first.address.toNat + first.size.toNat ≤ second.address.toNat
  /-- The second frame ends at the frozen image at the latest. -/
  stop : second.address.toNat + second.size.toNat ≤ baseAddress
  /-- The second frame is aligned. -/
  aligned : frameAlignment.toNat ∣ second.address.toNat

/-- Rounding up does not wrap around below the last multiple of the alignment. -/
theorem toNat_alignUp {n : UInt32} (h : n.toNat < 0x100000000 - 1024) :
    (alignUp n frameAlignment).toNat = (n.toNat + 1023) / 1024 * 1024 := by
  have hstep : frameAlignment.toNat = 1024 := rfl
  have hquotient : (n.toNat + 1023) / 1024 < 0x100000000 := by omega
  have hproduct : (n.toNat + 1023) / 1024 * 1024 < 0x100000000 := by omega
  calc
    _ = ((n.toNat + 1023) / 1024).toUInt32.toNat * 1024 % 0x100000000 := by
      rw [alignUp, UInt32.toNat_mul, hstep]
      rfl
    _ = (n.toNat + 1023) / 1024 * 1024 % 0x100000000 := by rw [toNat_toUInt32 hquotient]
    _ = _ := Nat.mod_eq_of_lt hproduct

section Pieces

variable {frozen static : ByteArray}

/-- The address behind the first frame does not wrap around. -/
theorem toNat_firstFrameAddress_add (hfrozen : frozen.size < 0x80000000) :
    (firstFrameAddress + frozen.size.toUInt32).toNat = firstFrameAddress.toNat + frozen.size := by
  have hsize : frozen.size.toUInt32.toNat = frozen.size := toNat_toUInt32 (by omega)
  have hfirst : firstFrameAddress.toNat = 2048 := rfl
  rw [UInt32.toNat_add, hsize]
  exact Nat.mod_eq_of_lt (by omega)

/-- The address of the second frame is the first aligned one behind the first frame. -/
theorem toNat_address_pieces (hfrozen : frozen.size < 0x80000000) (static : ByteArray) :
    (Sexpr.pieces frozen static).2.address.toNat =
      (firstFrameAddress.toNat + frozen.size + 1023) / 1024 * 1024 := by
  have hfirst : firstFrameAddress.toNat = 2048 := rfl
  have hsum := toNat_firstFrameAddress_add hfrozen
  rw [← hsum]
  exact toNat_alignUp (by omega)

/-- Where the second frame ends in time, both frames are small. -/
theorem size_lt_of_stop_le (hfrozen : frozen.size < 0x80000000)
    (hstop : (Sexpr.pieces frozen static).2.stop ≤ baseAddress) :
    frozen.size < 0x100000000 ∧ static.size < 0x100000000 := by
  have hbase : baseAddress = 1048576 := rfl
  have hsecond : (Sexpr.pieces frozen static).2.stop =
    (Sexpr.pieces frozen static).2.address.toNat + static.size := rfl
  omega

/-- Where the second frame ends in time, the header and both frames have room. -/
theorem placed_pieces (hfrozen : frozen.size < 0x80000000)
    (hstop : (Sexpr.pieces frozen static).2.stop ≤ baseAddress) :
    Placed (Sexpr.pieces frozen static).1.record (Sexpr.pieces frozen static).2.record := by
  obtain ⟨hfirst, hsecond⟩ := size_lt_of_stop_le hfrozen hstop
  have haddress := toNat_address_pieces hfrozen static
  constructor
  case header => exact Nat.le_of_ble_eq_true rfl
  case frames =>
    calc
      _ = firstFrameAddress.toNat + frozen.size :=
        congrArg (firstFrameAddress.toNat + ·) (toNat_toUInt32 hfirst)
      _ ≤ (firstFrameAddress.toNat + frozen.size + 1023) / 1024 * 1024 := by omega
      _ = _ := haddress.symm
  case stop =>
    calc
      _ = (Sexpr.pieces frozen static).2.stop :=
        congrArg ((Sexpr.pieces frozen static).2.address.toNat + ·) (toNat_toUInt32 hsecond)
      _ ≤ baseAddress := hstop
  case aligned => exact ⟨_, haddress.trans (Nat.mul_comm ..)⟩

end Pieces

/-- The header has room for the words of two pieces. -/
theorem size_headerBytes (first second : Piece) :
    (headerBytes [first, second]).size = headerSize :=
  size_foldl_word32Bytes .empty _

theorem word32At_headerBytes (pieces : List Piece) {k : Nat}
    (hk : k < (pieces.flatMap Piece.words).length) :
    word32At (headerBytes pieces) (4 * k) = (pieces.flatMap Piece.words)[k] := by
  have hread := word32At_foldl_word32Bytes .empty (pieces.flatMap Piece.words) hk
  rwa [ByteArray.size_empty, Nat.zero_add] at hread

/-- The header is read as the records of its pieces. -/
theorem recordAt_headerBytes (first second : Piece) :
    recordAt (headerBytes [first, second]) 0 = first.record ∧
      recordAt (headerBytes [first, second]) 16 = second.record := by
  have hword : ∀ k (hk : k < 8), word32At (headerBytes [first, second]) (4 * k) =
      (first.words ++ second.words)[k] :=
    fun k hk => word32At_headerBytes [first, second] hk
  constructor
  · rw [recordAt, hword 0 (by omega), hword 1 (by omega), hword 2 (by omega), hword 3 (by omega)]
    rfl
  · rw [recordAt, hword 4 (by omega), hword 5 (by omega), hword 6 (by omega), hword 7 (by omega)]
    rfl

end WasmTrim.Compression
