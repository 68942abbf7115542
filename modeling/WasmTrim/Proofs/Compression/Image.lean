import WasmTrim.Compression.Data
import WasmTrim.Proofs.Memory.Overlay

/-!
# The image of a module's data

The image that is compressed and the memory that a module starts with show the same bytes. No image
is larger than the bound that every segment was checked against.
-/

namespace WasmTrim

/-- One more than the last address of a segment. -/
def DataSegment.stop (s : DataSegment) : Nat :=
  s.offset.toNat + s.bytes.size

namespace Sexpr

open Compression Frozen

variable {field : Sexpr} {fields : List Sexpr} {overlay laid : Overlay} {segment : DataSegment}

theorem boundedSegment?_of_none (h : field.dataSegment? = .ok none) :
    field.boundedSegment? = .ok none := by
  rw [boundedSegment?, h]

theorem boundedSegment?_of_le (h : field.dataSegment? = .ok (some segment))
    (hstop : segment.stop ≤ maxImageSize) : field.boundedSegment? = .ok (some segment) := by
  rw [boundedSegment?, h]
  exact if_neg (Nat.not_lt.mpr hstop)

theorem boundedSegment?_of_lt (h : field.dataSegment? = .ok (some segment))
    (hstop : maxImageSize < segment.stop) :
    field.boundedSegment? = .error (.imageTooLarge segment.stop) := by
  rw [boundedSegment?, h]
  exact if_pos hstop

/-- Tells whether a field denotes no data segment. -/
def denotesNoSegment (field : Sexpr) : Bool :=
  match field.dataSegment? with
  | .ok none => true
  | _ => false

theorem denotesNoSegment_iff :
    field.denotesNoSegment = true ↔ field.dataSegment? = .ok none := by
  rw [denotesNoSegment]
  split
  · next h => simp [h]
  · next h =>
    constructor
    · rintro ⟨⟩
    · exact fun hnone => absurd hnone h

/-- What is laid for one field: nothing, or a segment that ends within the largest image. -/
theorem overlayOf_cons (h : overlayOf overlay (field :: fields) = .ok laid) :
    (field.dataSegment? = .ok none ∧ overlayOf overlay fields = .ok laid) ∨
      ∃ segment, field.dataSegment? = .ok (some segment) ∧
        segment.offset.toNat + segment.bytes.size ≤ maxImageSize ∧
        overlayOf (overlay.lay segment.offset.toNat segment.bytes) fields = .ok laid := by
  rw [overlayOf, boundedSegment?] at h
  cases hfield : field.dataSegment? with
  | error e =>
      rw [hfield] at h
      cases h
  | ok segment? =>
      rw [hfield] at h
      cases segment? with
      | none => exact Or.inl ⟨rfl, h⟩
      | some segment =>
          refine Or.inr ⟨segment, rfl, ?_⟩
          by_cases hbound : maxImageSize < segment.offset.toNat + segment.bytes.size
          · simp only [if_pos hbound] at h
            cases h
          · simp only [if_neg hbound] at h
            exact ⟨Nat.le_of_not_lt hbound, h⟩

/-- Where the image can be laid out, every field says whether it is a segment. -/
theorem dataSegment?_of_overlayOf (h : overlayOf overlay fields = .ok laid) :
    ∀ field ∈ fields, ∃ segment?, field.dataSegment? = .ok segment? := by
  induction fields generalizing overlay with
  | nil =>
      intro field hmem
      cases hmem
  | cons first rest ih =>
      intro field hmem
      rcases List.mem_cons.mp hmem with rfl | hrest
      · rcases overlayOf_cons h with ⟨hnone, _⟩ | ⟨segment, hsome, _⟩
        · exact ⟨none, hnone⟩
        · exact ⟨some segment, hsome⟩
      · rcases overlayOf_cons h with ⟨_, hnext⟩ | ⟨_, _, _, hnext⟩
        · exact ih hnext field hrest
        · exact ih hnext field hrest

/-- No patch of the image ends beyond the largest image. -/
theorem stop_le_of_overlayOf (hbound : ∀ p ∈ overlay, p.stop ≤ maxImageSize)
    (h : overlayOf overlay fields = .ok laid) : ∀ p ∈ laid, p.stop ≤ maxImageSize := by
  induction fields generalizing overlay with
  | nil =>
      cases h
      exact hbound
  | cons field rest ih =>
      rcases overlayOf_cons h with ⟨_, hnext⟩ | ⟨segment, _, hfits, hnext⟩
      · exact ih hbound hnext
      · apply ih _ hnext
        intro p hp
        rcases List.mem_cons.mp hp with rfl | hearlier
        · exact hfits
        · exact hbound p hearlier

theorem foldl_stop_le {bound n : Nat} (hn : n ≤ bound) (h : ∀ p ∈ overlay, p.stop ≤ bound) :
    overlay.foldl (fun n p => max n p.stop) n ≤ bound := by
  induction overlay generalizing n with
  | nil => exact hn
  | cons p earlier ih =>
      have hp := h p (List.mem_cons_self ..)
      exact ih (Nat.max_le.mpr ⟨hn, hp⟩) fun q hq => h q (List.mem_cons_of_mem p hq)

/-- An image is a window on what was laid out. -/
theorem flatten_eq_ok {module : Sexpr} {image : ByteArray} (h : module.flatten = .ok image) :
    ∃ overlay, overlayOf [] module.fields = .ok overlay ∧
      image = trimZeros (overlay.window 0 (overlay.foldl (fun n p => max n p.stop) 0)) := by
  rw [flatten] at h
  cases hlaid : overlayOf [] module.fields with
  | error e =>
      rw [hlaid] at h
      cases h
  | ok overlay =>
      rw [hlaid] at h
      cases h
      exact ⟨overlay, rfl, rfl⟩

/-- An image ends where the patches end at the latest. -/
theorem size_flatten_le_of_stop_le {module : Sexpr} {image : ByteArray} {bound : Nat}
    (h : module.flatten = .ok image) (hlaid : overlayOf [] module.fields = .ok laid)
    (hbound : ∀ p ∈ laid, p.stop ≤ bound) : image.size ≤ bound := by
  obtain ⟨overlay, hoverlay, rfl⟩ := flatten_eq_ok h
  rw [hlaid, Except.ok.injEq] at hoverlay
  subst hoverlay
  calc
    _ ≤ (laid.window 0 (laid.foldl (fun n p => max n p.stop) 0)).size := size_trimZeros_le _
    _ = laid.foldl (fun n p => max n p.stop) 0 := Overlay.size_window ..
    _ ≤ bound := foldl_stop_le (Nat.zero_le _) hbound

/-- An image is no larger than the largest image. -/
theorem size_flatten_le {module : Sexpr} {image : ByteArray} (h : module.flatten = .ok image) :
    image.size ≤ maxImageSize := by
  obtain ⟨overlay, hlaid, _⟩ := flatten_eq_ok h
  exact size_flatten_le_of_stop_le h hlaid (stop_le_of_overlayOf (fun p hp => by cases hp) hlaid)

theorem activeSegment?_of_ok {segment? : Option DataSegment}
    (h : field.dataSegment? = .ok segment?) : field.activeSegment? = segment? := by
  rw [activeSegment?, h]

/-- Atoms denote no segment. -/
theorem dataSegment?_of_isList_eq_false (h : field.isList = false) :
    field.dataSegment? = .ok none := by
  cases field with
  | atom => rfl
  | list => cases h

/-- What is laid out is what memory holds when the module starts. -/
theorem overlayOf_eq_foldl (h : overlayOf overlay fields = .ok laid) :
    laid = (fields.filterMap activeSegment?).foldl
      (fun memory s => memory.lay s.offset.toNat s.bytes) overlay := by
  induction fields generalizing overlay with
  | nil =>
      cases h
      rfl
  | cons field rest ih =>
      rcases overlayOf_cons h with ⟨hnone, hnext⟩ | ⟨segment, hsome, _, hnext⟩
      · rw [ih hnext, List.filterMap_cons_none (activeSegment?_of_ok hnone)]
      · rw [ih hnext, List.filterMap_cons_some (activeSegment?_of_ok hsome), List.foldl_cons]

theorem initialMemory_of_overlayOf {module : Sexpr} (h : overlayOf [] module.fields = .ok laid) :
    module.initialMemory = laid :=
  (overlayOf_eq_foldl h).symm

theorem le_foldl_stop (overlay : Overlay) (n : Nat) :
    n ≤ overlay.foldl (fun n p => max n p.stop) n ∧
      ∀ p ∈ overlay, p.stop ≤ overlay.foldl (fun n p => max n p.stop) n := by
  induction overlay generalizing n with
  | nil => exact ⟨Nat.le_refl n, fun p hp => by cases hp⟩
  | cons first earlier ih =>
      obtain ⟨hstart, hearlier⟩ := ih (max n first.stop)
      refine ⟨Nat.le_trans (Nat.le_max_left ..) hstart, fun p hp => ?_⟩
      rcases List.mem_cons.mp hp with rfl | hmem
      · exact Nat.le_trans (Nat.le_max_right ..) hstart
      · exact hearlier p hmem

/-- The image of a module shows what memory holds when the module starts. -/
theorem byteAt_flatten {module : Sexpr} {image : ByteArray} (h : module.flatten = .ok image)
    (a : Nat) : byteAt image a = module.initialMemory.byteAt a := by
  obtain ⟨overlay, hlaid, rfl⟩ := flatten_eq_ok h
  obtain ⟨_, hstop⟩ := le_foldl_stop overlay 0
  rw [initialMemory_of_overlayOf hlaid, byteAt_trimZeros]
  by_cases ha : a < overlay.foldl (fun n p => max n p.stop) 0
  · rw [Overlay.byteAt_window overlay 0 ha, Nat.zero_add]
  · rw [byteAt_of_le (by rw [Overlay.size_window]; omega),
      Overlay.byteAt_eq_zero fun p hp => Nat.le_trans (hstop p hp) (Nat.le_of_not_lt ha)]

/-- The fields that are no segments are the ones that say so, where every field says. -/
theorem filter_denotesNoSegment (h : overlayOf overlay fields = .ok laid) :
    fields.filter (!·.isActiveData) = fields.filter denotesNoSegment := by
  apply List.filter_congr
  intro field hmem
  obtain ⟨segment?, hsegment⟩ := dataSegment?_of_overlayOf h field hmem
  rw [isActiveData, denotesNoSegment, hsegment]
  cases segment? <;> rfl

/-! ### The two ranges -/

theorem byteAt_frozenRange (image : ByteArray) (i : Nat) :
    byteAt (ranges image).1 i =
      if baseAddress + i < maxAddress then byteAt image (baseAddress + i) else 0 := by
  rw [ranges, byteAt_trimZeros, byteAt_extract]

theorem byteAt_staticRange (image : ByteArray) (i : Nat) :
    byteAt (ranges image).2 i = byteAt image (maxAddress + i) := by
  rw [ranges, byteAt_extract]
  split
  · rfl
  · next h => rw [byteAt_of_le (Nat.le_of_not_lt h)]

/-- The first range fits into the window of the frozen image. -/
theorem size_frozenRange_le (image : ByteArray) :
    (ranges image).1.size ≤ maxAddress - baseAddress := by
  refine Nat.le_trans (size_trimZeros_le _) ?_
  rw [ByteArray.size_extract]
  omega

theorem size_ranges_le (image : ByteArray) :
    (ranges image).1.size ≤ image.size ∧ (ranges image).2.size ≤ image.size := by
  have htrim := size_trimZeros_le (image.extract baseAddress maxAddress)
  rw [ByteArray.size_extract] at htrim
  refine ⟨Nat.le_trans htrim (by omega), ?_⟩
  rw [ranges, ByteArray.size_extract]
  omega

/-- Laid where they belong, the two ranges show the image from the frozen window on. -/
theorem byteAt_lay_ranges {memory : Overlay} (hmemory : ∀ p ∈ memory, p.stop ≤ baseAddress)
    (image : ByteArray) {a : Nat} (ha : baseAddress ≤ a) :
    ((memory.lay baseAddress (ranges image).1).lay maxAddress (ranges image).2).byteAt a =
      byteAt image a := by
  have hfrozen := byteAt_frozenRange image (a - baseAddress)
  have hsize := size_frozenRange_le image
  have hwindow : baseAddress ≤ maxAddress := by decide
  rw [Nat.add_sub_cancel' ha] at hfrozen
  rw [Overlay.byteAt_lay, Overlay.byteAt_lay]
  split
  · next hstatic => rw [byteAt_staticRange, Nat.add_sub_cancel' hstatic.1]
  · next hstatic =>
    split
    · next hinside => rw [hfrozen, if_pos (by omega)]
    · next houtside =>
      rw [Overlay.byteAt_eq_zero fun p hp => Nat.le_trans (hmemory p hp) ha]
      -- Neither range reaches the address, so the image is zero there or has ended.
      by_cases hbelow : a < maxAddress
      · rw [← if_pos (c := a < maxAddress) (t := byteAt image a) (e := 0) hbelow, ← hfrozen,
          byteAt_of_le (by omega)]
      · have hafter := byteAt_staticRange image (a - maxAddress)
        rw [Nat.add_sub_cancel' (Nat.le_of_not_lt hbelow)] at hafter
        rw [← hafter, byteAt_of_le (by omega)]

end Sexpr

end WasmTrim
