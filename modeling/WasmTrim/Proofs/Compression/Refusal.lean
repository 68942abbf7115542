import WasmTrim.Proofs.Compression.LastSegment
import WasmTrim.Proofs.Compression.Restore

/-!
# When data is not compressed

A module that has an image is refused for the least address below the frozen image that holds
something. If there is none, it is refused exactly if the second frame ends behind the start of the
frozen image. No step on the way to that end wraps around, so a frame that is too long is never
taken for a short one. The header that compression writes lies below the frozen image itself, so a
module that was compressed is refused.

`Sexpr.compressDataWith_outcomes` has the exact condition of each of the three outcomes, with the
address that is reported: the least one that holds something, or the end of the frames.

## Implementation notes

Of the codec only the length of its frames is used. Whatever the second codec is, it is not reached
when a module is compressed twice.
-/

namespace WasmTrim

open Frozen Compression

namespace Compression

variable {image frozen static : ByteArray} {first second : Piece} {a b : Nat}

/-- Nothing lies below the frozen image. -/
def ZeroBelow (image : ByteArray) : Prop :=
  ∀ a < baseAddress, byteAt image a = 0

/-- The least address below the frozen image that holds something. -/
structure LeastLow (image : ByteArray) (a : Nat) : Prop where
  lt_baseAddress : a < baseAddress
  ne_zero : byteAt image a ≠ 0
  eq_zero_of_lt : ∀ b < a, byteAt image b = 0

/-- Where the second of two frames ends: it starts at the first multiple of 1024 behind
the first. -/
def framesStop (frozen static : ByteArray) : Nat :=
  (firstFrameAddress.toNat + frozen.size + 1023) / 1024 * 1024 + static.size

/-- Nothing on the way to the addresses and lengths of two frames wraps around. -/
structure Unwrapped (frozen static : ByteArray) : Prop where
  /-- The length of the first frame is a word. -/
  first : frozen.size.toUInt32.toNat = frozen.size
  /-- The length of the second frame is a word. -/
  second : static.size.toUInt32.toNat = static.size
  /-- The end of the first frame is a word. -/
  sum : (firstFrameAddress + frozen.size.toUInt32).toNat = firstFrameAddress.toNat + frozen.size
  /-- The next multiple of the alignment is a word. -/
  product : (alignUp (firstFrameAddress + frozen.size.toUInt32) frameAlignment).toNat =
    (firstFrameAddress.toNat + frozen.size + 1023) / 1024 * 1024
  /-- The end of the second frame is a word of 64 bits. -/
  stop : framesStop frozen static < 0x10000000000000000

theorem LeastLow.not_zeroBelow (h : LeastLow image a) : ¬ ZeroBelow image :=
  fun hzero => h.ne_zero (hzero a h.lt_baseAddress)

theorem LeastLow.lt_size (h : LeastLow image a) : a < image.size :=
  Nat.lt_of_not_le fun hend => h.ne_zero (byteAt_of_le hend)

/-- The search below the frozen image finds the least address. -/
theorem firstNonZero?_eq_some_iff_leastLow :
    firstNonZero? image 0 (min baseAddress image.size) = some a ↔ LeastLow image a := by
  rw [firstNonZero?_eq_some_iff]
  constructor
  · rintro ⟨_, hend, hnonzero, hbefore⟩
    exact ⟨by omega, hnonzero, fun b => hbefore b (Nat.zero_le b)⟩
  · intro h
    have hbase := h.lt_baseAddress
    have hsize := h.lt_size
    exact ⟨Nat.zero_le a, by omega, h.ne_zero, fun b _ => h.eq_zero_of_lt b⟩

/-- The search below the frozen image fails where there is nothing. -/
theorem firstNonZero?_eq_none_iff_zeroBelow :
    firstNonZero? image 0 (min baseAddress image.size) = none ↔ ZeroBelow image := by
  rw [firstNonZero?_eq_none_iff]
  constructor
  · intro h a ha
    by_cases hend : a < image.size
    · exact h a (Nat.zero_le a) (by omega)
    · exact byteAt_of_le (Nat.le_of_not_lt hend)
  · intro h a _ ha
    exact h a (by omega)

/-- Frames that are not absurdly long do not make anything wrap around. -/
theorem unwrapped_of_size_lt (hfrozen : frozen.size < 0x80000000)
    (hstatic : static.size < 0x80000000) : Unwrapped frozen static := by
  have hfirst : firstFrameAddress.toNat = 2048 := rfl
  constructor
  case first => exact toNat_toUInt32 (by omega)
  case second => exact toNat_toUInt32 (by omega)
  case sum => exact toNat_firstFrameAddress_add hfrozen
  case product => exact toNat_address_pieces hfrozen static
  case stop =>
    rw [framesStop]
    omega

theorem stop_pieces (hfrozen : frozen.size < 0x80000000) (static : ByteArray) :
    (Sexpr.pieces frozen static).2.stop = framesStop frozen static :=
  congrArg (· + static.size) (toNat_address_pieces hfrozen static)

/-! ### The header as data -/

/-- The header does not start with a zero. -/
theorem byteAt_headerBytes_zero (first second : Piece) :
    byteAt (headerBytes [first, second]) 0 ≠ 0 := by
  have hwords : [first, second].flatMap Piece.words =
      frameTag :: (first.words.tail ++ second.words) := rfl
  have htag : byteAt (.empty ++ word32Bytes frameTag) 0 = 0x6c := rfl
  rw [headerBytes, hwords, List.foldl_cons, foldl_append_bytes,
    byteAt_append_left _ (by rw [ByteArray.empty_append, size_word32Bytes]; omega), htag]
  decide

/-- The header is the first that memory shows where two pieces have room behind it. -/
theorem leastLow_of_framesMemory (hplaced : Placed first.record second.record)
    (hfirst : first.frame.size < 0x100000000) (hsecond : second.frame.size < 0x100000000)
    (himage : ∀ a, byteAt image a = (Sexpr.framesMemory first second).byteAt a) :
    LeastLow image headerAddress.toNat := by
  obtain ⟨hheader, hframes, _⟩ := places_of_placed hplaced hfirst hsecond
  rw [size_headerBytes] at hheader
  have hsize : headerSize = 32 := rfl
  constructor
  case lt_baseAddress => exact Nat.le_of_ble_eq_true rfl
  case ne_zero =>
    have hcovered : headerAddress.toNat ≤ headerAddress.toNat ∧
        headerAddress.toNat < headerAddress.toNat + (headerBytes [first, second]).size := by
      rw [size_headerBytes]
      omega
    rw [himage, framesMemory_eq, Overlay.byteAt_lay, if_neg (by omega), Overlay.byteAt_lay,
      if_neg (by omega), Overlay.byteAt_lay, if_pos hcovered, Nat.sub_self]
    exact byteAt_headerBytes_zero first second
  case eq_zero_of_lt =>
    intro a ha
    rw [himage, framesMemory_eq, Overlay.byteAt_lay, if_neg (by omega), Overlay.byteAt_lay,
      if_neg (by omega), Overlay.byteAt_lay, if_neg (by omega)]
    rfl

end Compression

namespace Sexpr

variable {encode : ByteArray → ByteArray} {module out : Sexpr} {report : Report}
variable {image : ByteArray} {a : Nat}

/-- Where the two frames for an image end. -/
def stopFor (encode : ByteArray → ByteArray) (image : ByteArray) : Nat :=
  framesStop (encode (ranges image).1) (encode (ranges image).2)

/-! ### The three outcomes -/

theorem compressDataWith_of_leastLow (himage : module.flatten = .ok image)
    (hlow : LeastLow image a) : module.compressDataWith encode = .error (.dataBelowImage a) := by
  rw [compressDataWith, himage]
  simp only [firstNonZero?_eq_some_iff_leastLow.mpr hlow]

theorem compressDataWith_of_lt_stop (himage : module.flatten = .ok image)
    (hzero : ZeroBelow image) (hstop : baseAddress < (piecesFor encode image).2.stop) :
    module.compressDataWith encode = .error (.overflow (piecesFor encode image).2.stop) := by
  rw [compressDataWith, himage]
  simp only [firstNonZero?_eq_none_iff_zeroBelow.mpr hzero]
  exact if_pos hstop

/-- Every module that has an image has one of three outcomes. -/
inductive Outcome (encode : ByteArray → ByteArray) (image : ByteArray) :
    Except CompressError (Sexpr × Report) → Prop
  | low {a : Nat} (h : LeastLow image a) : Outcome encode image (.error (.dataBelowImage a))
  | long (hzero : ZeroBelow image) (hstop : baseAddress < stopFor encode image) :
      Outcome encode image (.error (.overflow (stopFor encode image)))
  | compressed (hzero : ZeroBelow image) (hstop : stopFor encode image ≤ baseAddress)
      (out : Sexpr) (report : Report) : Outcome encode image (.ok (out, report))

theorem outcome_compressDataWith (himage : module.flatten = .ok image)
    (hsmall : (encode (ranges image).1).size < 0x80000000) :
    Outcome encode image (module.compressDataWith encode) := by
  have hexact : (piecesFor encode image).2.stop = stopFor encode image := stop_pieces hsmall _
  cases hsearch : firstNonZero? image 0 (min baseAddress image.size) with
  | some a =>
      have hlow := firstNonZero?_eq_some_iff_leastLow.mp hsearch
      rw [compressDataWith_of_leastLow himage hlow]
      exact .low hlow
  | none =>
      have hzero := firstNonZero?_eq_none_iff_zeroBelow.mp hsearch
      by_cases hstop : baseAddress < stopFor encode image
      · rw [compressDataWith_of_lt_stop himage hzero (hexact ▸ hstop), hexact]
        exact .long hzero hstop
      · have hle := Nat.le_of_not_lt hstop
        obtain ⟨out, report, hout⟩ := compressDataWith_of_stop_le himage hzero (hexact ▸ hle)
        rw [hout]
        exact .compressed hzero hle out report

theorem compressDataWith_eq_dataBelowImage_iff (himage : module.flatten = .ok image)
    (hsmall : (encode (ranges image).1).size < 0x80000000) :
    module.compressDataWith encode = .error (.dataBelowImage a) ↔ LeastLow image a := by
  refine ⟨fun h => ?_, compressDataWith_of_leastLow himage⟩
  have houtcome := outcome_compressDataWith himage hsmall
  rw [h] at houtcome
  cases houtcome with
  | low hlow => exact hlow

theorem compressDataWith_eq_overflow_iff (himage : module.flatten = .ok image)
    (hsmall : (encode (ranges image).1).size < 0x80000000) {stop : Nat} :
    module.compressDataWith encode = .error (.overflow stop) ↔
      ZeroBelow image ∧ stop = stopFor encode image ∧ baseAddress < stop := by
  have houtcome := outcome_compressDataWith himage hsmall
  generalize module.compressDataWith encode = result at houtcome
  cases houtcome with
  | low hlow =>
      constructor
      · rintro ⟨⟩
      · exact fun h => absurd h.1 hlow.not_zeroBelow
  | long hzero hstop =>
      constructor
      · rintro ⟨⟩
        exact ⟨hzero, rfl, hstop⟩
      · rintro ⟨_, rfl, _⟩
        rfl
  | compressed _ hle =>
      constructor
      · rintro ⟨⟩
      · rintro ⟨_, rfl, hstop⟩
        exact absurd hstop (Nat.not_lt.mpr hle)

theorem exists_compressDataWith_eq_ok_iff (himage : module.flatten = .ok image)
    (hsmall : (encode (ranges image).1).size < 0x80000000) :
    (∃ out report, module.compressDataWith encode = .ok (out, report)) ↔
      ZeroBelow image ∧ stopFor encode image ≤ baseAddress := by
  have houtcome := outcome_compressDataWith himage hsmall
  generalize module.compressDataWith encode = result at houtcome
  cases houtcome with
  | low hlow =>
      constructor
      · rintro ⟨_, _, ⟨⟩⟩
      · exact fun h => absurd h.1 hlow.not_zeroBelow
  | long _ hstop =>
      constructor
      · rintro ⟨_, _, ⟨⟩⟩
      · exact fun h => absurd h.2 (Nat.not_le.mpr hstop)
  | compressed hzero hle out report => exact ⟨fun _ => ⟨hzero, hle⟩, fun _ => ⟨out, report, rfl⟩⟩

/-! ### Compressing twice -/

/-- All data of a compressed module decodes. -/
theorem allDecode_compressed (module : Sexpr) (fields : List Sexpr) (first second : Piece) :
    AllDecode (module.withFields (fields.filter denotesNoSegment ++
      compressedFields first second)).fields := by
  intro field hmem
  have hitem : field ∈ module.header ++
      (fields.filter denotesNoSegment ++ compressedFields first second) :=
    (List.dropWhile_sublist _).subset hmem
  rcases List.mem_append.mp hitem with hheader | hfield
  · exact ⟨none, dataSegment?_of_isList_eq_false (isList_of_mem_header hheader)⟩
  · rcases List.mem_append.mp hfield with hkept | hadded
    · exact ⟨none, denotesNoSegment_iff.mp (List.mem_filter.mp hkept).2⟩
    · obtain ⟨segment, _, hsegment⟩ := dataSegment?_of_mem_compressedFields hadded
      exact ⟨some segment, hsegment⟩

/-- What compression writes is refused at its header. -/
theorem compressDataWith_compressed
    (hsize : ∀ bytes, bytes.size ≤ maxImageSize → (encode bytes).size < 0x80000000)
    (h : module.compressDataWith encode = .ok (out, report)) (encode' : ByteArray → ByteArray) :
    out.compressDataWith encode' = .error (.dataBelowImage headerAddress.toNat) := by
  obtain ⟨image, himage, _, hstop, rfl⟩ := compressDataWith_eq_ok h
  obtain ⟨hfirst, hsecond, hplaced⟩ := placed_piecesFor hsize himage hstop
  obtain ⟨hheader, hframes, hend⟩ := places_of_placed hplaced hfirst hsecond
  have hbase : baseAddress ≤ maxImageSize := by decide
  have hfits : ∀ s ∈ compressedSegments (piecesFor encode image).1 (piecesFor encode image).2,
      s.stop ≤ maxImageSize := by
    simp only [compressedSegments, List.forall_mem_cons, DataSegment.stop]
    exact ⟨by omega, by omega, by omega, List.forall_mem_nil _⟩
  rw [← dataSegments_compressed module module.fields] at hfits
  obtain ⟨image', himage'⟩ := exists_flatten (allDecode_compressed module module.fields _ _) hfits
  apply compressDataWith_of_leastLow himage'
  apply leastLow_of_framesMemory hplaced hfirst hsecond
  intro a
  rw [byteAt_flatten himage', initialMemory_compressed]

/-- A module with an image is refused for data below the frozen image, or else for frames that end
behind its start, or compressed. A module that was compressed is refused at its header. -/
theorem compressDataWith_outcomes
    (hsize : ∀ bytes, bytes.size ≤ maxImageSize → (encode bytes).size < 0x80000000)
    (himage : module.flatten = .ok image) :
    (∀ a, module.compressDataWith encode = .error (.dataBelowImage a) ↔ LeastLow image a) ∧
    (∀ stop, module.compressDataWith encode = .error (.overflow stop) ↔
      ZeroBelow image ∧ stop = stopFor encode image ∧ baseAddress < stop) ∧
    ((∃ out report, module.compressDataWith encode = .ok (out, report)) ↔
      ZeroBelow image ∧ stopFor encode image ≤ baseAddress) ∧
    Unwrapped (encode (ranges image).1) (encode (ranges image).2) ∧
    ∀ out report, module.compressDataWith encode = .ok (out, report) → ∀ encode',
      out.compressDataWith encode' = .error (.dataBelowImage headerAddress.toNat) := by
  obtain ⟨hfrozen, hstatic⟩ := size_ranges_le image
  have hbound := size_flatten_le himage
  have hfirst := hsize (ranges image).1 (Nat.le_trans hfrozen hbound)
  have hsecond := hsize (ranges image).2 (Nat.le_trans hstatic hbound)
  exact ⟨fun a => compressDataWith_eq_dataBelowImage_iff himage hfirst,
    fun stop => compressDataWith_eq_overflow_iff himage hfirst,
    exists_compressDataWith_eq_ok_iff himage hfirst,
    unwrapped_of_size_lt hfirst hsecond,
    fun out report => compressDataWith_compressed hsize⟩

/-- A byte at the start of the frozen image is compressed once and not twice; nothing else is found
wrong with it. -/
theorem compressData_byteModule_once :
    (∃ out report, byteModule.compressData = .ok (out, report) ∧
      out.compressData = .error (.dataBelowImage 1024)) ∧
    (∀ a, byteModule.compressData ≠ .error (.dataBelowImage a)) ∧
    ∀ stop, byteModule.compressData ≠ .error (.overflow stop) := by
  obtain ⟨image, himage, hzero, hsize, _⟩ := flatten_byteModule
  obtain ⟨hlow, hlong, hdone, _, hagain⟩ :=
    compressDataWith_outcomes Lz4.frameCodec.size_encode_lt himage
  obtain ⟨out, report, hout⟩ := compressData_of_size_le himage hzero hsize
  obtain ⟨_, hstop⟩ := hdone.mp ⟨out, report, hout⟩
  refine ⟨⟨out, report, hout, hagain out report hout Lz4.encode⟩, fun a h => ?_, fun stop h => ?_⟩
  · exact ((hlow a).mp h).not_zeroBelow hzero
  · obtain ⟨_, rfl, hlt⟩ := (hlong stop).mp h
    exact absurd hstop (Nat.not_le.mpr hlt)

end Sexpr

end WasmTrim
