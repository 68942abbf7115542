import WasmTrim.Proofs.Frozen.Loader
import WasmTrim.Proofs.Module.ConstantOffset
import WasmTrim.Proofs.Module.Passes

/-!
# From the store to the running guest

A store is laid out as an image, the image is written into a module's text as one more data segment,
the text is read, its data is compressed, and the guest expands it when it starts. At the end of
that way the runtime finds in memory what the store held: the modules in their order, and every
interned string at the address that it was given.

`FrozenStore.embedIn_foundIn` is about modules with whatever data segments, and about every codec
whose frames are decoded again. The codec that builds use is one, so nothing is assumed of it.

## Implementation notes

The embedded segment is the last one, so nothing that the module brought shows through it, and
behind it the runtime does not look. Trailing zeros of the image are lost on the way and come back,
since memory is zero where nothing was laid.
-/

namespace WasmTrim

open Frozen Compression

namespace Frozen

/-- The modules that the runtime finds when it walks the table at the start of the window. -/
def modulesIn? (memory : Overlay) : Option (List FrozenModule) :=
  let image := memory.window baseAddress windowSize
  (records? image).bind fun found => found.mapM (Record.module? image)

end Frozen

namespace Sexpr

variable {encode : ByteArray → ByteArray} {decode? : ByteArray → Option ByteArray}
variable {module packed out field : Sexpr} {fields : List Sexpr} {report : Report}

/-! ### Segments that are added -/

theorem boundedSegment?_dataField {name : String} (hname : isQuoted (.atom name) = false)
    {offset : UInt32} {bytes : ByteArray} (h : offset.toNat + bytes.size ≤ maxImageSize) :
    (dataField name offset bytes).boundedSegment? = .ok (some ⟨offset, bytes⟩) :=
  boundedSegment?_of_le (dataSegment?_dataField hname offset bytes) h

theorem overlayOf_cons_of_ok {overlay : Overlay} {segment : DataSegment}
    (h : field.boundedSegment? = .ok (some segment)) (rest : List Sexpr) :
    overlayOf overlay (field :: rest) =
      overlayOf (overlay.lay segment.offset.toNat segment.bytes) rest := by
  rw [overlayOf, h]

/-- A segment that is added behind all others is laid over them. -/
theorem initialMemory_withFields_append {segment : DataSegment}
    (h : field.dataSegment? = .ok (some segment)) :
    (module.withFields (module.fields ++ [field])).initialMemory =
      module.initialMemory.lay segment.offset.toNat segment.bytes := by
  rw [initialMemory, dataSegments_withFields, List.filterMap_append, List.foldl_append,
    List.filterMap_cons_some (activeSegment?_of_ok h)]
  rfl

/-! ### Memory behind the start of the window -/

/-- Compressing a module changes nothing of what memory holds from the start of the window on, once
the runtime has followed the header. -/
theorem byteAt_restored (codec : FrameCodec encode decode?)
    (h : module.compressDataWith encode = .ok (out, report)) :
    ∃ restored, restore? decode? out.initialMemory = some restored ∧
      ∀ a, baseAddress ≤ a → restored.byteAt a = module.initialMemory.byteAt a := by
  obtain ⟨image, himage, _, hstop, rfl⟩ := compressDataWith_eq_ok h
  obtain ⟨hfirst, hsecond, hplaced⟩ := placed_piecesFor codec.size_encode_lt himage hstop
  rw [initialMemory_compressed]
  refine ⟨_, restore?_framesMemory hplaced hfirst hsecond (codec.decode?_encode (ranges image).1)
    (codec.decode?_encode (ranges image).2) (Nat.le_refl _), ?_⟩
  intro a ha
  rw [← byteAt_flatten himage]
  exact byteAt_lay_ranges (stop_le_framesMemory hplaced hfirst hsecond) image ha

end Sexpr

namespace FrozenStore

variable {store : FrozenStore} {image : ByteArray} {memory : Overlay} {module packed : Sexpr}

/-- Memory shows an image from the start of the window on. -/
def Shows (memory : Overlay) (image : ByteArray) : Prop :=
  ∀ i < image.size, memory.byteAt (baseAddress + i) = byteAt image i

/-- A module that an image was embedded in starts with that image in its window, whatever other
segments it has. -/
theorem shows_initialMemory (image : ByteArray) :
    Shows (module.withFields (module.fields ++
      [Sexpr.dataField segmentName baseAddress.toUInt32 image])).initialMemory image := by
  have hname : Sexpr.isQuoted (.atom segmentName) = false := by decide
  have hbase : baseAddress.toUInt32.toNat = baseAddress := rfl
  intro i hi
  have hcovered : baseAddress ≤ baseAddress + i ∧ baseAddress + i < baseAddress + image.size := by
    omega
  rw [Sexpr.initialMemory_withFields_append (Sexpr.dataSegment?_dataField hname _ image), hbase,
    Overlay.byteAt_lay, if_pos hcovered, Nat.add_sub_cancel_left]

/-- The addresses of an image that fits do not wrap around. -/
theorem Fits.span_lt (h : Fits store) :
    baseAddress + (stringsOffset + store.pool.size) + codeSpan store.modules.toList <
      0x100000000 := by
  have hbase : baseAddress = 1048576 := rfl
  have hmax : maxAddress = 8388608 := rfl
  have hwindow := h.window
  rw [windowSize] at hwindow
  omega

theorem mapM_eq_some_of_map {α β : Type} {f : α → Option β} {xs : List α} {ys : List β}
    (h : xs.map f = ys.map some) : xs.mapM f = some ys := by
  induction xs generalizing ys with
  | nil =>
      cases ys with
      | nil => rfl
      | cons => cases h
  | cons x rest ih =>
      cases ys with
      | nil => cases h
      | cons y others =>
          rw [List.map_cons, List.map_cons, List.cons.injEq] at h
          rw [List.mapM_cons, h.1, ih h.2]
          rfl

/-- The runtime finds the modules of a store where memory shows its image. -/
theorem modulesIn?_of_shows (hpath : ∀ m ∈ store.modules.toList, 0 ∉ m.path.toUTF8.data.toList)
    (himage : store.image = .ok image) (hshows : Shows memory image) :
    modulesIn? memory = some store.modules.toList := by
  obtain ⟨back, hwindow⟩ := Overlay.exists_window_eq_append hshows (size_image_le himage)
  obtain ⟨hfits, rfl⟩ := image_eq_ok_iff.mp himage
  rw [modulesIn?, hwindow]
  simp only [records?_layout_append hfits hpath hfits.span_lt back, Option.bind_some]
  exact mapM_eq_some_of_map (map_module?_layout_append hfits hfits.span_lt back)

/-- Where memory shows an image, the addresses that denote strings in it denote them in memory. -/
theorem window_of_denotes {a : UInt32} {s : String} (hdenotes : Denotes image a s)
    (hshows : Shows memory image) :
    memory.window a.toNat (s.utf8ByteSize + 1) = s.toUTF8.push 0 := by
  obtain ⟨hbase, hextract⟩ := hdenotes
  have hsize : (s.toUTF8.push 0).size = s.utf8ByteSize + 1 := ByteArray.size_push
  have hinside := congrArg ByteArray.size hextract
  rw [ByteArray.size_extract, hsize] at hinside
  rw [← hsize]
  apply Overlay.window_eq_of_byteAt
  intro i hi
  rw [hsize] at hi
  have hplace : a.toNat + i = baseAddress + (a.toNat - baseAddress + i) := by omega
  rw [hplace, hshows _ (by omega), ← hextract, byteAt_extract, if_pos (by omega)]

/-- The runtime finds in memory what a store holds. -/
structure FoundIn (store : FrozenStore) (memory : Overlay) : Prop where
  /-- The walk over the table finds the modules in their order. -/
  modules : modulesIn? memory = some store.modules.toList
  /-- Every string that was interned on the way to the store lies, with a zero byte behind it, at
  the address that interning it returned. -/
  strings : ∀ (before : FrozenStore) (s : String), Extends (before.intern s).2 store →
    memory.window (before.intern s).1.toNat (s.utf8ByteSize + 1) = s.toUTF8.push 0

theorem foundIn_of_shows (hpath : ∀ m ∈ store.modules.toList, 0 ∉ m.path.toUTF8.data.toList)
    (himage : store.image = .ok image) (hshows : Shows memory image) : FoundIn store memory where
  modules := modulesIn?_of_shows hpath himage hshows
  strings before s hlater :=
    window_of_denotes (denotes_of_holds himage ((holds_intern before s).of_extends hlater)) hshows

/-- Where the image of a store can be embedded in a module that was read, and the data compressed,
the runtime that follows the header finds all that the store held. -/
theorem embedIn_foundIn {source : String} (hread : Sexpr.parse source = .ok module)
    (hpath : ∀ m ∈ store.modules.toList, 0 ∉ m.path.toUTF8.data.toList)
    (hembed : store.embedIn module = .ok packed) :
    Sexpr.parse packed.toText = .ok packed ∧
      (∀ encode decode?, FrameCodec encode decode? → ∀ out report,
        packed.compressDataWith encode = .ok (out, report) →
        ∃ restored, restore? decode? out.initialMemory = some restored ∧ FoundIn store restored) ∧
      ∀ out report, packed.compressData = .ok (out, report) →
        ∃ restored, restore? Lz4.decode? out.initialMemory = some restored ∧
          FoundIn store restored := by
  obtain ⟨_, hlexable⟩ := Sexpr.lexable_of_parse hread
  obtain ⟨hlist, hpacked⟩ := hlexable.embedIn hembed
  obtain ⟨image, himage, hfields⟩ := embedIn_eq_ok hembed
  have hfound : ∀ encode decode?, FrameCodec encode decode? → ∀ out report,
      packed.compressDataWith encode = .ok (out, report) →
      ∃ restored, restore? decode? out.initialMemory = some restored ∧ FoundIn store restored := by
    intro encode decode? codec out report hcompress
    obtain ⟨restored, hrestored, hbytes⟩ := Sexpr.byteAt_restored codec hcompress
    have hshows : Shows restored image := by
      intro i hi
      rw [hbytes _ (Nat.le_add_right ..), hfields]
      exact shows_initialMemory image i hi
    exact ⟨restored, hrestored, foundIn_of_shows hpath himage hshows⟩
  exact ⟨Sexpr.parse_toText hlist hpacked, hfound, hfound _ _ Lz4.frameCodec⟩

/-- A module with a segment in the window. -/
def occupiedModule : Sexpr :=
  .list [.atom "module", .list [.atom "data", .list [.atom "i32.const", .atom "1048580"],
    .atom "\"old\""]]

/-- That module with the image of a small store. -/
def occupiedPacked : Sexpr :=
  occupiedModule.withFields (occupiedModule.fields ++
    [Sexpr.dataField segmentName baseAddress.toUInt32 smallStore.layout])

theorem lexable_occupiedModule : Sexpr.Lexable occupiedModule := by
  have hwords := Token.lexable_words ["module", "data", "i32.const", "1048580"] (by decide)
  have hplain : Token.PlainText "old" := by decide
  have hstring : Token.Lexable "\"old\"" := Token.lexable_quote hplain
  simpa [occupiedModule, hstring] using hwords

theorem boundedSegment?_old :
    Sexpr.boundedSegment? (.list [.atom "data", .list [.atom "i32.const", .atom "1048580"],
      .atom "\"old\""]) = .ok (some ⟨1048580, "old".toUTF8⟩) := by
  have hdecode : Literal.decode "\"old\"" = .ok "old".toUTF8 := by
    rw [← Literal.decodeInside_toList (s := "old") (by decide)]
    exact Literal.decode_quote "old"
  have hsegment := Sexpr.dataSegment?_dataForm none none
    (.instruction [.atom "i32.const", .atom "1048580"]) (by decide) (.cons hdecode .nil)
  rw [List.foldl_cons, List.foldl_nil, ByteArray.empty_append] at hsegment
  exact Sexpr.boundedSegment?_of_le hsegment (by decide)

theorem fits_smallStore : Fits smallStore :=
  ⟨by decide, by decide, by decide⟩

theorem overlayOf_occupiedPacked :
    Sexpr.overlayOf [] occupiedPacked.fields =
      .ok ((Overlay.lay [] 1048580 "old".toUTF8).lay 1048576 smallStore.layout) := by
  have hfields : occupiedPacked.fields = [.list [.atom "data",
      .list [.atom "i32.const", .atom "1048580"], .atom "\"old\""],
      Sexpr.dataField segmentName baseAddress.toUInt32 smallStore.layout] := rfl
  have hbound : baseAddress.toUInt32.toNat + smallStore.layout.size ≤ maxImageSize := by
    rw [size_layout fits_smallStore]
    decide
  have hname : Sexpr.isQuoted (.atom segmentName) = false := by decide
  rw [hfields, Sexpr.overlayOf_cons_of_ok boundedSegment?_old,
    Sexpr.overlayOf_cons_of_ok (Sexpr.boundedSegment?_dataField hname hbound), Sexpr.overlayOf]
  rfl

/-- The modules and the string of a small store are found although the window was occupied. -/
theorem smallStore_foundIn : ∃ out report restored,
    occupiedPacked.compressData = .ok (out, report) ∧
      restore? Lz4.decode? out.initialMemory = some restored ∧
      modulesIn? restored =
        some [⟨"a.pyc", ⟨#[1, 2, 3]⟩⟩, ⟨"pkg/b.pyc", ⟨#[]⟩⟩] ∧
      restored.window 1081344 9 = "contract".toUTF8.push 0 := by
  have hread : Sexpr.parse occupiedModule.toText = .ok occupiedModule :=
    Sexpr.parse_toText rfl lexable_occupiedModule
  have hembed : smallStore.embedIn occupiedModule = .ok occupiedPacked := by
    rw [embedIn, image_of_fits fits_smallStore]
    rfl
  obtain ⟨image, himage⟩ : ∃ image, occupiedPacked.flatten = .ok image := by
    rw [Sexpr.flatten, overlayOf_occupiedPacked]
    exact ⟨_, rfl⟩
  have hsize : image.size ≤ baseAddress + 1000000 := by
    have hnew : 1048576 + smallStore.layout.size ≤ baseAddress + 1000000 := by
      rw [size_layout fits_smallStore]
      decide
    have hold : 1048580 + "old".toUTF8.size ≤ baseAddress + 1000000 := by decide
    apply Sexpr.size_flatten_le_of_stop_le himage overlayOf_occupiedPacked
    apply Overlay.stop_le_lay hnew
    apply Overlay.stop_le_lay hold
    exact List.forall_mem_nil _
  have hzero : ∀ a < baseAddress, byteAt image a = 0 := by
    intro a ha
    have hbase : baseAddress = 1048576 := rfl
    rw [Sexpr.byteAt_flatten himage, Sexpr.initialMemory_of_overlayOf overlayOf_occupiedPacked,
      Overlay.byteAt_lay, if_neg (by omega), Overlay.byteAt_lay, if_neg (by omega)]
    rfl
  obtain ⟨out, report, hout⟩ := Sexpr.compressData_of_size_le himage hzero hsize
  obtain ⟨_, _, hfound⟩ := embedIn_foundIn hread (by decide) hembed
  obtain ⟨restored, hrestored, hmodules, hstrings⟩ := hfound out report hout
  refine ⟨out, report, restored, hout, hrestored, hmodules, ?_⟩
  have hlater : Extends (smallStore.intern "contract").2 smallStore := Extends.refl smallStore
  exact hstrings smallStore "contract" hlater

end FrozenStore

end WasmTrim
