import WasmTrim.Proofs.Compression.Frame
import WasmTrim.Proofs.Compression.Image
import WasmTrim.Proofs.Compression.Pieces
import WasmTrim.Proofs.Module.DataSegment
import WasmTrim.Proofs.Module.Fields

/-!
# Compressed data is restored

Following the header of a compressed module rebuilds the memory that the module had before. Nothing
is used of the codec but that decoding undoes encoding and that frames are not absurdly long. The
fields of the module that are no data are kept.

## Implementation notes

The three patches of a compressed module do not meet, so each is read back whole. They all end below
the frozen image, so the first expansion does not touch the second frame.
-/

namespace WasmTrim

open Frozen Compression

namespace Sexpr

variable {encode : ByteArray → ByteArray} {decode? : ByteArray → Option ByteArray}
variable {module out : Sexpr} {report : Report} {image : ByteArray} {first second : Piece}

/-- The pieces that the frames for an image make. -/
def piecesFor (encode : ByteArray → ByteArray) (image : ByteArray) : Piece × Piece :=
  pieces (encode (ranges image).1) (encode (ranges image).2)

/-- What compression does where it succeeds. -/
theorem compressDataWith_eq_ok (h : module.compressDataWith encode = .ok (out, report)) :
    ∃ image, module.flatten = .ok image ∧ (∀ a < baseAddress, byteAt image a = 0) ∧
      (piecesFor encode image).2.stop ≤ baseAddress ∧
      out = module.withFields (module.fields.filter denotesNoSegment ++
        compressedFields (piecesFor encode image).1 (piecesFor encode image).2) := by
  rw [compressDataWith] at h
  cases himage : module.flatten with
  | error e =>
      rw [himage] at h
      cases h
  | ok image =>
      rw [himage] at h
      cases hzero : firstNonZero? image 0 (min baseAddress image.size) with
      | some address =>
          simp only [hzero] at h
          cases h
      | none =>
          simp only [hzero] at h
          split at h
          · cases h
          · next hstop =>
            refine ⟨image, rfl, ?_, Nat.le_of_not_lt hstop, ?_⟩
            · intro a ha
              by_cases hend : a < image.size
              · exact firstNonZero?_eq_none_iff.mp hzero a (Nat.zero_le a) (by omega)
              · exact byteAt_of_le (Nat.le_of_not_lt hend)
            · cases h
              obtain ⟨overlay, hlaid, _⟩ := flatten_eq_ok himage
              rw [← filter_denotesNoSegment hlaid, piecesFor]

/-- Compression succeeds where the image holds nothing below its window and the frames have room. -/
theorem compressDataWith_of_stop_le (himage : module.flatten = .ok image)
    (hzero : ∀ a < baseAddress, byteAt image a = 0)
    (hstop : (piecesFor encode image).2.stop ≤ baseAddress) :
    ∃ out report, module.compressDataWith encode = .ok (out, report) := by
  have hnone : firstNonZero? image 0 (min baseAddress image.size) = none := by
    apply firstNonZero?_eq_none_iff.mpr
    intro a _ ha
    exact hzero a (by omega)
  rw [compressDataWith, himage]
  simp only [hnone]
  exact ⟨_, _, if_neg (Nat.not_lt.mpr hstop)⟩

/-- Images with up to a million bytes in the window can always be compressed. -/
theorem compressData_of_size_le (himage : module.flatten = .ok image)
    (hzero : ∀ a < baseAddress, byteAt image a = 0)
    (hsize : image.size ≤ baseAddress + 1000000) :
    ∃ out report, module.compressData = .ok (out, report) := by
  have hbase : baseAddress = 1048576 := rfl
  have hend : maxAddress = 8388608 := rfl
  have hblock : Lz4.blockSize = 4194304 := rfl
  have hfirst : firstFrameAddress.toNat = 2048 := rfl
  have hfrozen : (ranges image).1.size ≤ 1000000 := by
    refine Nat.le_trans (size_trimZeros_le _) ?_
    rw [ByteArray.size_extract]
    omega
  have hstatic : (ranges image).2.size = 0 := by
    rw [ranges, ByteArray.size_extract]
    omega
  have hone := Lz4.size_encode_le (ranges image).1
  have htwo := Lz4.size_encode_le (ranges image).2
  rw [Lz4.blockCount, hblock] at hone htwo
  have hsmall : (Lz4.encode (ranges image).1).size < 0x80000000 := by omega
  have haddress := toNat_address_pieces hsmall (Lz4.encode (ranges image).2)
  apply compressDataWith_of_stop_le himage hzero
  calc
    _ = (piecesFor Lz4.encode image).2.address.toNat + (Lz4.encode (ranges image).2).size := rfl
    _ = (2048 + (Lz4.encode (ranges image).1).size + 1023) / 1024 * 1024 +
        (Lz4.encode (ranges image).2).size := by rw [piecesFor, haddress, hfirst]
    _ ≤ baseAddress := by omega

/-- The segments that two pieces and their header are carried in. -/
def compressedSegments (first second : Piece) : List DataSegment :=
  [⟨headerAddress, headerBytes [first, second]⟩, ⟨first.address, first.frame⟩,
    ⟨second.address, second.frame⟩]

/-- What memory holds when a module with two pieces starts. -/
def framesMemory (first second : Piece) : Overlay :=
  (compressedSegments first second).foldl
    (fun memory s => memory.lay s.offset.toNat s.bytes) []

/-- The added fields are read as the segments that they carry. -/
theorem map_dataSegment?_compressedFields (first second : Piece) :
    (compressedFields first second).map dataSegment? =
      (compressedSegments first second).map fun s => .ok (some s) := by
  have hname : ∀ name ∈ fieldNames, isQuoted (.atom name) = false := by decide
  rw [fieldNames] at hname
  simp only [List.forall_mem_cons] at hname
  obtain ⟨hheader, hfirst, hsecond, _⟩ := hname
  rw [compressedFields, fieldNames]
  simp only [List.zipWith, List.map_cons, List.map_nil, dataSegment?_dataField hheader,
    dataSegment?_dataField hfirst, dataSegment?_dataField hsecond]
  rfl

theorem dataSegment?_of_mem_compressedFields {field : Sexpr}
    (h : field ∈ compressedFields first second) :
    ∃ s ∈ compressedSegments first second, field.dataSegment? = .ok (some s) := by
  have hmem := List.mem_map_of_mem (f := dataSegment?) h
  rw [map_dataSegment?_compressedFields] at hmem
  obtain ⟨s, hs, hfield⟩ := List.mem_map.mp hmem
  exact ⟨s, hs, hfield.symm⟩

theorem isList_of_mem_compressedFields {field : Sexpr}
    (h : field ∈ compressedFields first second) : field.isList = true := by
  obtain ⟨s, _, hsegment⟩ := dataSegment?_of_mem_compressedFields h
  cases field with
  | atom => cases hsegment
  | list => rfl

/-- Fields that are all read as segments have these segments. -/
theorem filterMap_activeSegment?_of_map {fields : List Sexpr} {segments : List DataSegment}
    (h : fields.map dataSegment? = segments.map fun s => .ok (some s)) :
    fields.filterMap activeSegment? = segments := by
  induction segments generalizing fields with
  | nil =>
      rw [List.map_eq_nil_iff.mp h]
      rfl
  | cons s rest ih =>
      cases fields with
      | nil => cases h
      | cons field others =>
          obtain ⟨hfield, hothers⟩ := List.cons.inj h
          rw [List.filterMap_cons_some (activeSegment?_of_ok hfield), ih hothers]

theorem filterMap_compressedFields (first second : Piece) :
    (compressedFields first second).filterMap activeSegment? = compressedSegments first second :=
  filterMap_activeSegment?_of_map (map_dataSegment?_compressedFields first second)

/-- Kept fields that are lists and the added ones are all read as fields. -/
theorem fields_compressed (module : Sexpr) (first second : Piece) {kept : List Sexpr}
    (hkept : ∀ field ∈ kept, field.isList = true) :
    (module.withFields (kept ++ compressedFields first second)).fields =
      kept ++ compressedFields first second := by
  apply fields_withFields
  intro field hhead
  rcases List.mem_append.mp (List.mem_of_mem_head? hhead) with hmem | hadded
  · exact hkept field hmem
  · exact isList_of_mem_compressedFields hadded

/-- The segments of a module are those of the fields that were put into it, even where the first of
these are atoms and are taken for a part of the header. -/
theorem dataSegments_withFields (module : Sexpr) (fields : List Sexpr) :
    (module.withFields fields).dataSegments = fields.filterMap activeSegment? := by
  have hleading : ∀ items : List Sexpr,
      (items.dropWhile (!·.isList)).filterMap activeSegment? = items.filterMap activeSegment? := by
    intro items
    induction items with
    | nil => rfl
    | cons item rest ih =>
        rw [List.dropWhile_cons]
        split
        · next hatom =>
          have hnone : item.dataSegment? = .ok none :=
            dataSegment?_of_isList_eq_false (by simpa using hatom)
          rw [ih, List.filterMap_cons_none (activeSegment?_of_ok hnone)]
        · rfl
  have hheader : module.header.filterMap activeSegment? = [] :=
    List.filterMap_eq_nil_iff.mpr fun item hitem =>
      activeSegment?_of_ok (dataSegment?_of_isList_eq_false (isList_of_mem_header hitem))
  rw [dataSegments, Sexpr.fields, hleading, withFields, items_list, List.filterMap_append, hheader,
    List.nil_append]

/-- The kept fields hold no segments, so the ones of a compressed module are those it was given. -/
theorem dataSegments_compressed (module : Sexpr) (fields : List Sexpr) (first second : Piece) :
    (module.withFields (fields.filter denotesNoSegment ++
      compressedFields first second)).dataSegments = compressedSegments first second := by
  have hnone : (fields.filter denotesNoSegment).filterMap activeSegment? = [] := by
    apply List.filterMap_eq_nil_iff.mpr
    intro field hmem
    exact activeSegment?_of_ok (denotesNoSegment_iff.mp (List.mem_filter.mp hmem).2)
  rw [dataSegments_withFields, List.filterMap_append, hnone, filterMap_compressedFields,
    List.nil_append]

/-- A compressed module starts with the header and the frames in memory and nothing else. -/
theorem initialMemory_compressed (module : Sexpr) (fields : List Sexpr) (first second : Piece) :
    (module.withFields (fields.filter denotesNoSegment ++
      compressedFields first second)).initialMemory = framesMemory first second := by
  rw [initialMemory, dataSegments_compressed]
  rfl

/-- Where frames are not absurdly long and end in time, they have room below the frozen image. -/
theorem placed_piecesFor
    (hsize : ∀ bytes, bytes.size ≤ maxImageSize → (encode bytes).size < 0x80000000)
    (himage : module.flatten = .ok image) (hstop : (piecesFor encode image).2.stop ≤ baseAddress) :
    (piecesFor encode image).1.frame.size < 0x100000000 ∧
      (piecesFor encode image).2.frame.size < 0x100000000 ∧
      Placed (piecesFor encode image).1.record (piecesFor encode image).2.record := by
  have hsmall := hsize (ranges image).1
    (Nat.le_trans (size_ranges_le image).1 (size_flatten_le himage))
  obtain ⟨hfirst, hsecond⟩ := size_lt_of_stop_le hsmall hstop
  exact ⟨hfirst, hsecond, placed_pieces hsmall hstop⟩

end Sexpr

namespace Compression

open Sexpr (compressedSegments framesMemory)

section FramesMemory

variable {decode? : ByteArray → Option ByteArray} {first second : Piece}

theorem framesMemory_eq (first second : Piece) :
    framesMemory first second =
      (((Overlay.lay [] headerAddress.toNat (headerBytes [first, second])).lay
        first.address.toNat first.frame).lay second.address.toNat second.frame) :=
  rfl

variable (hplaced : Placed first.record second.record)
  (hfirst : first.frame.size < 0x100000000) (hsecond : second.frame.size < 0x100000000)

include hfirst hsecond

/-- The segments lie where the header and its records say. -/
theorem map_compressedSegments :
    (compressedSegments first second).map (fun s => (s.offset, s.bytes.size)) =
      [(headerAddress, headerSize), (first.record.address, first.record.size.toNat),
        (second.record.address, second.record.size.toNat)] := by
  have hfirst' : first.record.size.toNat = first.frame.size := toNat_toUInt32 hfirst
  have hsecond' : second.record.size.toNat = second.frame.size := toNat_toUInt32 hsecond
  rw [hfirst', hsecond', ← size_headerBytes first second]
  rfl

include hplaced

/-- The places of two pieces, with the sizes of their frames instead of the recorded ones. -/
theorem places_of_placed :
    headerAddress.toNat + (headerBytes [first, second]).size ≤ first.address.toNat ∧
      first.address.toNat + first.frame.size ≤ second.address.toNat ∧
      second.address.toNat + second.frame.size ≤ baseAddress := by
  have hframes : first.address.toNat + first.frame.size.toUInt32.toNat ≤ second.address.toNat :=
    hplaced.frames
  have hstop : second.address.toNat + second.frame.size.toUInt32.toNat ≤ baseAddress :=
    hplaced.stop
  rw [toNat_toUInt32 hfirst] at hframes
  rw [toNat_toUInt32 hsecond] at hstop
  rw [size_headerBytes]
  exact ⟨hplaced.header, hframes, hstop⟩

/-- The header is read back, since no frame covers it. -/
theorem headerRecords_framesMemory :
    headerRecords (framesMemory first second) = (first.record, second.record) := by
  obtain ⟨hheader, hframes, _⟩ := places_of_placed hplaced hfirst hsecond
  have hwindow : (framesMemory first second).window headerAddress.toNat headerSize =
      headerBytes [first, second] := by
    rw [← size_headerBytes first second]
    apply Overlay.window_eq_of_byteAt
    intro i hi
    rw [framesMemory_eq, Overlay.byteAt_lay, if_neg (by omega), Overlay.byteAt_lay,
      if_neg (by omega), Overlay.byteAt_lay, if_pos (by omega), Nat.add_sub_cancel_left]
  obtain ⟨hzero, hone⟩ := recordAt_headerBytes first second
  simp only [headerRecords, hwindow, hzero, hone]

/-- The first frame is read back, since the second one does not cover it. -/
theorem frame_framesMemory_first :
    first.record.frame (framesMemory first second) = first.frame := by
  obtain ⟨_, hframes, _⟩ := places_of_placed hplaced hfirst hsecond
  have haddress : first.record.address = first.address := rfl
  have hsize : first.record.size.toNat = first.frame.size := toNat_toUInt32 hfirst
  rw [FrameRecord.frame, haddress, hsize]
  apply Overlay.window_eq_of_byteAt
  intro i hi
  rw [framesMemory_eq, Overlay.byteAt_lay, if_neg (by omega), Overlay.byteAt_lay,
    if_pos (by omega), Nat.add_sub_cancel_left]

/-- The second frame is read back even when something was laid behind the start of the frozen
image. -/
theorem frame_framesMemory_second {target : Nat} (htarget : baseAddress ≤ target)
    (bytes : ByteArray) :
    second.record.frame ((framesMemory first second).lay target bytes) = second.frame := by
  obtain ⟨_, _, hstop⟩ := places_of_placed hplaced hfirst hsecond
  have haddress : second.record.address = second.address := rfl
  have hsize : second.record.size.toNat = second.frame.size := toNat_toUInt32 hsecond
  rw [FrameRecord.frame, haddress, hsize]
  apply Overlay.window_eq_of_byteAt
  intro i hi
  rw [framesMemory_eq, Overlay.byteAt_lay, if_neg (by omega), Overlay.byteAt_lay,
    if_pos (by omega), Nat.add_sub_cancel_left]

/-- The header and the frames end below the frozen image. -/
theorem stop_le_framesMemory : ∀ p ∈ framesMemory first second, p.stop ≤ baseAddress := by
  obtain ⟨hheader, hframes, hstop⟩ := places_of_placed hplaced hfirst hsecond
  rw [framesMemory_eq]
  apply Overlay.stop_le_lay hstop
  apply Overlay.stop_le_lay (by omega)
  apply Overlay.stop_le_lay (by omega)
  exact fun p hp => absurd hp List.not_mem_nil

/-- Following the header lays what the two frames carry where it belongs. -/
theorem restore?_framesMemory {frozen static : ByteArray}
    (hfrozen : decode? first.frame = some frozen) (hstatic : decode? second.frame = some static)
    (htarget : baseAddress ≤ first.target.toNat) :
    restore? decode? (framesMemory first second) =
      some (((framesMemory first second).lay first.target.toNat frozen).lay
        second.target.toNat static) := by
  have hone : restorePiece? decode? (framesMemory first second) first.record =
      some ((framesMemory first second).lay first.target.toNat frozen) := by
    rw [restorePiece?, frame_framesMemory_first hplaced hfirst hsecond, hfrozen]
    rfl
  have htwo : restorePiece? decode? ((framesMemory first second).lay first.target.toNat frozen)
      second.record = some (((framesMemory first second).lay first.target.toNat frozen).lay
        second.target.toNat static) := by
    rw [restorePiece?, frame_framesMemory_second hplaced hfirst hsecond htarget, hstatic]
    rfl
  rw [restore?, headerRecords_framesMemory hplaced hfirst hsecond]
  simp only [hone, Option.bind_eq_bind, Option.bind_some]
  exact htwo

end FramesMemory

end Compression

namespace Sexpr

variable {encode : ByteArray → ByteArray} {decode? : ByteArray → Option ByteArray}
variable {module out : Sexpr} {report : Report}

/-- A module whose data is compressed starts with the memory that it had before, once the runtime
has followed the header. Header and frames lie apart below the frozen image. -/
theorem compressDataWith_restores (codec : FrameCodec encode decode?)
    (hfields : ∀ field ∈ module.fields, field.isList = true)
    (h : module.compressDataWith encode = .ok (out, report)) :
    ∃ image first second restored,
      module.flatten = .ok image ∧
      headerRecords out.initialMemory = (first, second) ∧
      restore? decode? out.initialMemory = some restored ∧
      (∀ a, baseAddress ≤ a → restored.byteAt a = byteAt image a) ∧
      (∀ a < baseAddress, byteAt image a = 0) ∧
      Placed first second ∧
      out.dataSegments.map (fun s => (s.offset, s.bytes.size)) =
        [(headerAddress, headerSize), (first.address, first.size.toNat),
          (second.address, second.size.toNat)] ∧
      (∃ frozen, decode? (first.frame out.initialMemory) = some frozen ∧
        first.target.toNat + frozen.size ≤ maxAddress) ∧
      ∃ header one two,
        out.fields = module.fields.filter denotesNoSegment ++ [header, one, two] := by
  obtain ⟨image, himage, hzero, hstop, rfl⟩ := compressDataWith_eq_ok h
  obtain ⟨hfirst, hsecond, hplaced⟩ := placed_piecesFor codec.size_encode_lt himage hstop
  have hlists : ∀ field ∈ module.fields.filter denotesNoSegment, field.isList = true :=
    fun field hmem => hfields field (List.mem_filter.mp hmem).1
  have hkept := fields_compressed module (piecesFor encode image).1 (piecesFor encode image).2
    hlists
  rw [initialMemory_compressed, dataSegments_compressed]
  refine ⟨image, _, _, _, himage, headerRecords_framesMemory hplaced hfirst hsecond,
    restore?_framesMemory hplaced hfirst hsecond (codec.decode?_encode (ranges image).1)
      (codec.decode?_encode (ranges image).2) (Nat.le_refl _), ?_, hzero, hplaced, ?_, ?_,
    _, _, _, hkept⟩
  · intro a ha
    exact byteAt_lay_ranges (stop_le_framesMemory hplaced hfirst hsecond) image ha
  · exact map_compressedSegments hfirst hsecond
  · refine ⟨(ranges image).1, ?_, ?_⟩
    · exact (congrArg decode? (frame_framesMemory_first hplaced hfirst hsecond)).trans
        (codec.decode?_encode (ranges image).1)
    · have htarget : (piecesFor encode image).1.record.target.toNat = baseAddress := rfl
      have hrange := size_frozenRange_le image
      have hwindow : baseAddress ≤ maxAddress := by decide
      omega

/-- A module whose data is one byte at the start of the frozen image. -/
def byteModule : Sexpr :=
  .list [.atom "module", dataField "$.data" 1048576 ⟨#[97]⟩]

theorem overlayOf_byteModule :
    overlayOf [] byteModule.fields = .ok [⟨1048576, ⟨#[97]⟩⟩] := by
  have hfields : byteModule.fields = [dataField "$.data" 1048576 ⟨#[97]⟩] := rfl
  have hsegment : (dataField "$.data" 1048576 ⟨#[97]⟩).dataSegment? =
      .ok (some ⟨1048576, ⟨#[97]⟩⟩) := dataSegment?_dataField (by decide) _ _
  rw [hfields, overlayOf, boundedSegment?, hsegment]
  rfl

/-- The image of such a module holds that byte and nothing else. -/
theorem flatten_byteModule : ∃ image, byteModule.flatten = .ok image ∧
    (∀ a < baseAddress, byteAt image a = 0) ∧ image.size ≤ baseAddress + 1000000 ∧
    byteAt image 1048576 = 97 := by
  have himage : byteModule.flatten =
      .ok (trimZeros (Overlay.window [⟨1048576, ⟨#[97]⟩⟩] 0 1048577)) := by
    rw [flatten, overlayOf_byteModule]
    rfl
  have hbytes := byteAt_flatten himage
  rw [initialMemory_of_overlayOf overlayOf_byteModule] at hbytes
  refine ⟨_, himage, ?_, ?_, ?_⟩
  · intro a ha
    have hbelow : ¬(1048576 ≤ a ∧ a < 1048576 + (ByteArray.mk #[97]).size) :=
      fun hcovered => absurd ha (Nat.not_lt.mpr hcovered.1)
    rw [hbytes]
    exact dif_neg hbelow
  · refine Nat.le_trans (size_trimZeros_le _) ?_
    rw [Overlay.size_window]
    decide
  · rw [hbytes]
    rfl

/-- The byte of such a module is there again when the runtime has followed the header. -/
theorem compressData_restores_byte :
    ∃ out report restored, byteModule.compressData = .ok (out, report) ∧
      restore? Lz4.decode? out.initialMemory = some restored ∧ restored.byteAt 1048576 = 97 := by
  obtain ⟨image, himage, hzero, hsize, hbyte⟩ := flatten_byteModule
  obtain ⟨out, report, hout⟩ := compressData_of_size_le himage hzero hsize
  obtain ⟨image', _, _, restored, himage', _, hrestored, hrestores, _⟩ :=
    compressDataWith_restores Lz4.frameCodec (by decide) hout
  rw [himage, Except.ok.injEq] at himage'
  refine ⟨out, report, restored, hout, hrestored, ?_⟩
  rw [hrestores 1048576 (Nat.le_refl _), ← himage', hbyte]

end Sexpr

end WasmTrim
