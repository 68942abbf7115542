import Mathlib.Data.List.Induction
import WasmTrim.Proofs.Compression.Image
import WasmTrim.Proofs.Module.DataSegment

/-!
# Which segment shows

The image of a module shows at every address the last segment that covers it, and zero where none
does, and it does not end in a zero. There is an image unless some segment ends beyond the largest
one, and then the first such segment is reported with its end, a sum of natural numbers.

`ShowsAt` says what some segments show at an address without laying them out.
-/

namespace WasmTrim

namespace DataSegment

variable {segments before : List DataSegment} {s : DataSegment} {a : Nat} {b c : UInt8}

/-- An address at which a segment has a byte. -/
def Covers (s : DataSegment) (a : Nat) : Prop :=
  s.offset.toNat ≤ a ∧ a < s.stop

instance (s : DataSegment) (a : Nat) : Decidable (s.Covers a) :=
  inferInstanceAs (Decidable (_ ∧ _))

/-- The byte of a segment at an address. -/
def byteAt (s : DataSegment) (a : Nat) : UInt8 :=
  WasmTrim.byteAt s.bytes (a - s.offset.toNat)

/-- What segments show at an address: the byte of the last one that covers it, or zero. -/
inductive ShowsAt (segments : List DataSegment) (a : Nat) : UInt8 → Prop
  | covered {before after : List DataSegment} {s : DataSegment}
      (hsplit : segments = before ++ s :: after) (hcovers : s.Covers a)
      (hlast : ∀ t ∈ after, ¬ t.Covers a) : ShowsAt segments a (s.byteAt a)
  | uncovered (h : ∀ s ∈ segments, ¬ s.Covers a) : ShowsAt segments a 0

/-- The first of some segments that ends beyond the largest image. -/
structure FirstBeyond (segments : List DataSegment) (s : DataSegment) : Prop where
  exists_split : ∃ before after, segments = before ++ s :: after ∧
    ∀ t ∈ before, t.stop ≤ Compression.maxImageSize
  lt_stop : Compression.maxImageSize < s.stop

theorem showsAt_nil : ShowsAt [] a 0 :=
  .uncovered fun _ hmem => absurd hmem List.not_mem_nil

theorem showsAt_append_of_covers (h : s.Covers a) :
    ShowsAt (before ++ [s]) a (s.byteAt a) :=
  .covered rfl h fun _ hmem => absurd hmem List.not_mem_nil

/-- A segment that does not cover an address shows nothing there. -/
theorem ShowsAt.append_of_not_covers (h : ShowsAt before a b) (hs : ¬ s.Covers a) :
    ShowsAt (before ++ [s]) a b := by
  cases h with
  | @covered front after t hsplit hcovers hlast =>
      have hsplit' : before ++ [s] = front ++ t :: (after ++ [s]) := by
        rw [hsplit, List.append_assoc, List.cons_append]
      refine .covered hsplit' hcovers ?_
      exact List.forall_mem_append.mpr ⟨hlast, List.forall_mem_singleton.mpr hs⟩
  | uncovered h => exact .uncovered (List.forall_mem_append.mpr ⟨h, List.forall_mem_singleton.mpr hs⟩)

/-- Segments show one byte at each address. -/
theorem ShowsAt.unique (h : ShowsAt segments a b) (h' : ShowsAt segments a c) : b = c := by
  cases h with
  | @covered before after s hsplit hcovers hlast =>
      cases h' with
      | @covered before' after' s' hsplit' hcovers' hlast' =>
          rw [hsplit, List.append_eq_append_iff] at hsplit'
          rcases hsplit' with ⟨between, _, hback⟩ | ⟨between, _, hback⟩
          · cases between with
            | nil => exact congrArg (byteAt · a) (List.cons.inj hback).1
            | cons t between =>
                obtain ⟨_, rfl⟩ := List.cons.inj hback
                exact absurd hcovers' (hlast s' (List.mem_append_right _ (List.mem_cons_self ..)))
          · cases between with
            | nil => exact congrArg (byteAt · a) (List.cons.inj hback).1.symm
            | cons t between =>
                obtain ⟨_, rfl⟩ := List.cons.inj hback
                exact absurd hcovers (hlast' s (List.mem_append_right _ (List.mem_cons_self ..)))
      | uncovered hnone =>
          exact absurd hcovers (hnone s (hsplit ▸ List.mem_append_right _ (List.mem_cons_self ..)))
  | uncovered hnone =>
      cases h' with
      | covered hsplit hcovers _ =>
          exact absurd hcovers
            (hnone _ (hsplit ▸ List.mem_append_right _ (List.mem_cons_self ..)))
      | uncovered _ => rfl

/-- Laying segments one after another shows the last of them. -/
theorem showsAt_foldl_lay (segments : List DataSegment) (a : Nat) :
    ShowsAt segments a (Overlay.byteAt
      (segments.foldl (fun memory s => memory.lay s.offset.toNat s.bytes) []) a) := by
  induction segments using List.reverseRecOn with
  | nil => exact showsAt_nil
  | append_singleton before s ih =>
      rw [List.foldl_append, List.foldl_cons, List.foldl_nil, Overlay.byteAt_lay]
      split
      · next hcovers => exact showsAt_append_of_covers hcovers
      · next hcovers => exact ih.append_of_not_covers hcovers

theorem FirstBeyond.mem (h : FirstBeyond segments s) : s ∈ segments := by
  obtain ⟨⟨before, after, rfl, _⟩, _⟩ := h
  exact List.mem_append_right _ (List.mem_cons_self ..)

/-- All segments end within the largest image, or there is a first one that does not. -/
theorem fits_or_firstBeyond (segments : List DataSegment) :
    (∀ s ∈ segments, s.stop ≤ Compression.maxImageSize) ∨ ∃ s, FirstBeyond segments s := by
  induction segments with
  | nil => exact Or.inl (List.forall_mem_nil _)
  | cons first rest ih =>
      by_cases hfirst : Compression.maxImageSize < first.stop
      · exact Or.inr ⟨first, ⟨[], rest, rfl, List.forall_mem_nil _⟩, hfirst⟩
      · have hle := Nat.le_of_not_lt hfirst
        rcases ih with hrest | ⟨s, ⟨before, after, rfl, hbefore⟩, hs⟩
        · exact Or.inl (List.forall_mem_cons.mpr ⟨hle, hrest⟩)
        · refine Or.inr ⟨s, ⟨first :: before, after, rfl, ?_⟩, hs⟩
          exact List.forall_mem_cons.mpr ⟨hle, hbefore⟩

end DataSegment

namespace Sexpr

open Compression DataSegment

variable {module field : Sexpr} {fields : List Sexpr} {overlay : Overlay}
variable {segment s : DataSegment} {before after : List DataSegment}

/-- Fields that are no data denote no segment. -/
theorem dataSegment?_of_not_data (h : field.isForm "data" = false) :
    field.dataSegment? = .ok none := by
  rw [dataSegment?.eq_def]
  split
  · next keyword items =>
    have hkeyword : keyword ≠ "data" := by
      rintro rfl
      cases h
    exact if_neg hkeyword
  · rfl

/-- All fields say whether they are segments. -/
def AllDecode (fields : List Sexpr) : Prop :=
  ∀ field ∈ fields, ∃ segment?, field.dataSegment? = .ok segment?

theorem allDecode_of_data
    (h : ∀ field ∈ fields, field.isForm "data" = true → ∃ segment?, field.dataSegment? = .ok segment?) :
    AllDecode fields := by
  intro field hmem
  cases hdata : field.isForm "data" with
  | false => exact ⟨none, dataSegment?_of_not_data hdata⟩
  | true => exact h field hmem hdata

/-- Segments that end within the largest image are laid out. -/
theorem exists_overlayOf (overlay : Overlay) (hdecode : AllDecode fields)
    (h : ∀ s ∈ fields.filterMap activeSegment?, s.stop ≤ maxImageSize) :
    ∃ laid, overlayOf overlay fields = .ok laid := by
  induction fields generalizing overlay with
  | nil => exact ⟨overlay, rfl⟩
  | cons field rest ih =>
      obtain ⟨⟨segment?, hsegment⟩, hrest⟩ := List.forall_mem_cons.mp hdecode
      rw [overlayOf]
      cases segment? with
      | none =>
          rw [List.filterMap_cons_none (activeSegment?_of_ok hsegment)] at h
          rw [boundedSegment?_of_none hsegment]
          exact ih overlay hrest h
      | some segment =>
          rw [List.filterMap_cons_some (activeSegment?_of_ok hsegment), List.forall_mem_cons] at h
          rw [boundedSegment?_of_le hsegment h.1]
          exact ih _ hrest h.2

/-- The first segment that ends beyond the largest image is reported with its end. -/
theorem overlayOf_of_split (hdecode : AllDecode fields)
    (hsplit : fields.filterMap activeSegment? = before ++ s :: after)
    (hbefore : ∀ t ∈ before, t.stop ≤ maxImageSize) (hs : maxImageSize < s.stop) :
    overlayOf overlay fields = .error (.imageTooLarge s.stop) := by
  induction fields generalizing overlay before with
  | nil => exact absurd hsplit (List.append_ne_nil_of_right_ne_nil _ (List.cons_ne_nil _ _)).symm
  | cons field rest ih =>
      obtain ⟨⟨segment?, hsegment⟩, hrest⟩ := List.forall_mem_cons.mp hdecode
      rw [overlayOf]
      cases segment? with
      | none =>
          rw [List.filterMap_cons_none (activeSegment?_of_ok hsegment)] at hsplit
          rw [boundedSegment?_of_none hsegment]
          exact ih hrest hsplit hbefore
      | some segment =>
          rw [List.filterMap_cons_some (activeSegment?_of_ok hsegment)] at hsplit
          cases before with
          | nil =>
              obtain ⟨rfl, _⟩ := List.cons.inj hsplit
              rw [boundedSegment?_of_lt hsegment hs]
          | cons first before =>
              obtain ⟨rfl, htail⟩ := List.cons.inj hsplit
              obtain ⟨hfirst, hothers⟩ := List.forall_mem_cons.mp hbefore
              rw [boundedSegment?_of_le hsegment hfirst]
              exact ih hrest htail hothers

theorem flatten_of_firstBeyond (hdecode : AllDecode module.fields)
    (h : FirstBeyond module.dataSegments s) :
    module.flatten = .error (.imageTooLarge s.stop) := by
  obtain ⟨⟨before, after, hsplit, hbefore⟩, hs⟩ := h
  rw [flatten, overlayOf_of_split hdecode hsplit hbefore hs]

theorem exists_flatten (hdecode : AllDecode module.fields)
    (h : ∀ s ∈ module.dataSegments, s.stop ≤ maxImageSize) :
    ∃ image, module.flatten = .ok image := by
  obtain ⟨laid, hlaid⟩ := exists_overlayOf [] hdecode h
  rw [flatten, hlaid]
  exact ⟨_, rfl⟩

/-- An image shows the last segment that covers an address. -/
theorem showsAt_flatten {image : ByteArray} (h : module.flatten = .ok image) (a : Nat) :
    ShowsAt module.dataSegments a (WasmTrim.byteAt image a) := by
  rw [byteAt_flatten h]
  exact showsAt_foldl_lay module.dataSegments a

theorem byteAt_last_flatten {image : ByteArray} {last : Nat} (h : module.flatten = .ok image)
    (hsize : image.size = last + 1) : WasmTrim.byteAt image last ≠ 0 := by
  obtain ⟨overlay, _, rfl⟩ := flatten_eq_ok h
  exact byteAt_last_trimZeros hsize

/-- There is no image exactly if some segment ends beyond the largest one, and the first such
is reported. Otherwise the image shows at each address what the last segment covering it
holds there. -/
theorem flatten_shows_last (module : Sexpr)
    (hdecode : ∀ field ∈ module.fields, field.isForm "data" = true →
      ∃ segment?, field.dataSegment? = .ok segment?) :
    ((∃ stop, module.flatten = .error (.imageTooLarge stop)) ↔
      ∃ s ∈ module.dataSegments, maxImageSize < s.stop) ∧
    (∀ s, FirstBeyond module.dataSegments s →
      module.flatten = .error (.imageTooLarge s.stop)) ∧
    ((∀ s ∈ module.dataSegments, s.stop ≤ maxImageSize) →
      ∃ image, module.flatten = .ok image ∧
        (∀ last, image.size = last + 1 → WasmTrim.byteAt image last ≠ 0) ∧
        ∀ a b, WasmTrim.byteAt image a = b ↔ ShowsAt module.dataSegments a b) := by
  have hall := allDecode_of_data hdecode
  refine ⟨?_, fun s => flatten_of_firstBeyond hall, ?_⟩
  · rcases fits_or_firstBeyond module.dataSegments with hfits | ⟨s, hfirst⟩
    · obtain ⟨image, himage⟩ := exists_flatten hall hfits
      constructor
      · rintro ⟨stop, herror⟩
        rw [himage] at herror
        cases herror
      · rintro ⟨s, hmem, hs⟩
        exact absurd hs (Nat.not_lt.mpr (hfits s hmem))
    · constructor
      · intro _
        exact ⟨s, hfirst.mem, hfirst.lt_stop⟩
      · intro _
        exact ⟨s.stop, flatten_of_firstBeyond hall hfirst⟩
  · intro hfits
    obtain ⟨image, himage⟩ := exists_flatten hall hfits
    refine ⟨image, himage, fun last => byteAt_last_flatten himage, fun a b => ⟨?_, ?_⟩⟩
    · rintro rfl
      exact showsAt_flatten himage a
    · exact (showsAt_flatten himage a).unique

/-- The module that has some segments and nothing else. -/
def ofSegments (segments : List DataSegment) : Sexpr :=
  .list (.atom "module" :: segments.map fun s => dataField "$.data" s.offset s.bytes)

theorem fields_ofSegments (segments : List DataSegment) :
    (ofSegments segments).fields = segments.map fun s => dataField "$.data" s.offset s.bytes := by
  cases segments <;> rfl

theorem dataSegment?_of_mem_ofSegments {segments : List DataSegment}
    (h : field ∈ (ofSegments segments).fields) :
    ∃ segment?, field.dataSegment? = .ok segment? := by
  rw [fields_ofSegments] at h
  obtain ⟨s, _, rfl⟩ := List.mem_map.mp h
  exact ⟨some s, dataSegment?_dataField (by decide) s.offset s.bytes⟩

theorem dataSegments_ofSegments (segments : List DataSegment) :
    (ofSegments segments).dataSegments = segments := by
  have hsegment : ∀ s : DataSegment,
      (dataField "$.data" s.offset s.bytes).activeSegment? = some s := fun s =>
    activeSegment?_of_ok (dataSegment?_dataField (by decide) s.offset s.bytes)
  rw [dataSegments, fields_ofSegments, List.filterMap_map, Function.comp_def, funext hsegment,
    List.filterMap_some]

/-- The second of two segments shows where both lie, also with its zeros, and the first one before
it. A segment that ends beyond the last address is not taken for a low one. -/
theorem flatten_layered :
    (∃ image, (ofSegments [⟨4, ⟨#[97, 98, 99, 100]⟩⟩, ⟨6, ⟨#[88, 89, 0, 0]⟩⟩]).flatten = .ok image ∧
      WasmTrim.byteAt image 5 = 98 ∧ WasmTrim.byteAt image 6 = 88 ∧
      WasmTrim.byteAt image 8 = 0) ∧
    (ofSegments [⟨0, ⟨#[97]⟩⟩, ⟨4294967295, ⟨#[97, 98]⟩⟩]).flatten =
      .error (.imageTooLarge 4294967297) := by
  let low : DataSegment := ⟨4, ⟨#[97, 98, 99, 100]⟩⟩
  let high : DataSegment := ⟨6, ⟨#[88, 89, 0, 0]⟩⟩
  constructor
  · obtain ⟨_, _, hshows⟩ := flatten_shows_last (ofSegments [low, high])
      fun _ hmem _ => dataSegment?_of_mem_ofSegments hmem
    rw [dataSegments_ofSegments] at hshows
    obtain ⟨image, himage, _, hbytes⟩ := hshows (by decide)
    have hfirst : [low, high] = [] ++ low :: [high] := rfl
    have hsecond : [low, high] = [low] ++ high :: [] := rfl
    refine ⟨image, himage, (hbytes 5 98).mpr ?_, (hbytes 6 88).mpr ?_, (hbytes 8 0).mpr ?_⟩
    · exact .covered hfirst (by decide) (by decide)
    · exact .covered hsecond (by decide) (by decide)
    · exact .covered hsecond (by decide) (by decide)
  · obtain ⟨_, hreports, _⟩ := flatten_shows_last
      (ofSegments [⟨0, ⟨#[97]⟩⟩, ⟨4294967295, ⟨#[97, 98]⟩⟩])
      fun _ hmem _ => dataSegment?_of_mem_ofSegments hmem
    rw [dataSegments_ofSegments] at hreports
    exact hreports ⟨4294967295, ⟨#[97, 98]⟩⟩ ⟨⟨[_], [], rfl, by decide⟩, by decide⟩

end Sexpr

end WasmTrim
