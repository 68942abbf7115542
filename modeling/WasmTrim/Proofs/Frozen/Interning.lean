import Mathlib.Data.List.Induction
import WasmTrim.Proofs.Frozen.Image

/-!
# Strings that are interned while a store grows

A store grows by modules that are added and strings that are interned, in any order. Its pool is
then the strings, each once, in the order in which they were first asked for. A string keeps the
address that it was first given, different strings have different addresses as long as the pool is
no larger than the window of the image, and in every image the bytes of the string lie at its
address, between the table and the code of the modules.

`FrozenStore.strings_interned` says so. The place of a string in an image is counted without
wrapping around, and its zero byte is behind it.

## Implementation notes

Addresses wrap around, so two places may have one address in a store that is large enough. An image
rules that out for all addresses that were ever given, since the pool never shrinks.
-/

namespace WasmTrim

open Frozen

namespace FrozenStore

/-- What a store is asked for while it grows. -/
inductive Request where
  /-- The address of a string. -/
  | intern (s : String)
  /-- Room for a module. -/
  | addModule (path : String) (code : ByteArray)

variable {store : FrozenStore} {requests : List Request} {s t : String} {image : ByteArray}

/-- What is left of a store behind a request. -/
def perform (store : FrozenStore) : Request → FrozenStore
  | .intern s => (store.intern s).2
  | .addModule path code => store.addModule path code

/-- What is left of a store behind requests. -/
def after (store : FrozenStore) (requests : List Request) : FrozenStore :=
  requests.foldl perform store

/-- The string that a request asks for. -/
def Request.string? : Request → Option String
  | .intern s => some s
  | .addModule .. => none

/-- The strings that requests ask for, as often as they do. -/
def requested (requests : List Request) : List String :=
  requests.filterMap Request.string?

/-- The address that is given to a string that is asked for behind requests. -/
def addressBehind (requests : List Request) (s : String) : UInt32 :=
  ((empty.after requests).intern s).1

theorem after_append (store : FrozenStore) (front back : List Request) :
    store.after (front ++ back) = (store.after front).after back :=
  List.foldl_append

theorem extends_perform (store : FrozenStore) (request : Request) :
    Extends store (store.perform request) := by
  cases request with
  | intern s => exact extends_intern store s
  | addModule path code => exact Extends.refl store

theorem extends_after (store : FrozenStore) (requests : List Request) :
    Extends store (store.after requests) := by
  induction requests generalizing store with
  | nil => exact Extends.refl store
  | cons request rest ih => exact (extends_perform store request).trans (ih _)

/-- The strings of a store are those that it was asked for, each once. -/
theorem strings_after (requests : List Request) :
    (empty.after requests).strings.toList = (requested requests).eraseDups := by
  induction requests using List.reverseRecOn with
  | nil => rfl
  | append_singleton front request ih =>
      have hsplit : (requested (front ++ [request])).eraseDups =
          (empty.after front).strings.toList ++
            ((requested [request]).removeAll (requested front)).eraseDups := by
        rw [ih, requested, List.filterMap_append, List.eraseDups_append]
        rfl
      rw [hsplit, after_append]
      cases request with
      | addModule path code => exact (List.append_nil _).symm
      | intern s =>
          have hmem : s ∈ (empty.after front).strings.toList ↔ s ∈ requested front := by
            rw [ih, List.mem_eraseDups]
          have hasked : requested [.intern s] = [s] := rfl
          have hafter : (empty.after front).after [.intern s] = ((empty.after front).intern s).2 := rfl
          rw [hasked, hafter]
          rcases strings_intern (empty.after front) s with ⟨hold, hsame⟩ | ⟨hnew, hpushed⟩
          · rw [hsame]
            simp [List.removeAll, hmem.mp hold]
          · rw [hpushed]
            simp [List.removeAll, mt hmem.mpr hnew, List.eraseDups_cons]

/-! ### Addresses that are given again -/

/-- The first place of a string does not change when strings are added behind it. -/
theorem offsetFrom?_append {offset place : Nat} {front : List String} (back : List String)
    (h : offsetFrom? s offset front = some place) :
    offsetFrom? s offset (front ++ back) = some place := by
  induction front generalizing offset with
  | nil => cases h
  | cons first rest ih =>
      rw [offsetFrom?] at h
      rw [List.cons_append, offsetFrom?]
      split at h
      · next hfound => rw [if_pos hfound, h]
      · next hother => rw [if_neg hother, ih h]

/-- A new string is found behind those before it. -/
theorem offsetFrom?_append_cons {offset : Nat} {front : List String} (back : List String)
    (h : offsetFrom? s offset front = none) :
    offsetFrom? s offset (front ++ s :: back) = some (offset + spanOf front) := by
  induction front generalizing offset with
  | nil => exact if_pos rfl
  | cons first rest ih =>
      rw [offsetFrom?] at h
      split at h
      · cases h
      · next hother =>
        rw [List.cons_append, offsetFrom?, if_neg hother, ih h, spanOf]
        congr 1
        omega

/-- A string that was interned is found at the address that it was given. -/
theorem exists_offsetFrom?_intern (store : FrozenStore) (s : String) :
    ∃ place, offsetFrom? s 0 (store.intern s).2.strings.toList = some place ∧
      (store.intern s).1 = address (stringsOffset + place) := by
  rw [intern]
  split
  · next place hfound => exact ⟨place, hfound, rfl⟩
  · next hnone =>
    refine ⟨store.poolSize, ?_, rfl⟩
    rw [Array.toList_push, offsetFrom?_append_cons [] hnone, poolSize_eq, Nat.zero_add]

/-- A string is given the same address again in every store that has grown since. -/
theorem fst_intern_of_extends {later : FrozenStore} (h : Extends (store.intern s).2 later) :
    (later.intern s).1 = (store.intern s).1 := by
  obtain ⟨place, hplace, haddress⟩ := exists_offsetFrom?_intern store s
  obtain ⟨added, hadded⟩ := h
  have hfound := offsetFrom?_append added hplace
  rw [hadded] at hfound
  rw [haddress, intern, hfound]

/-! ### Addresses of different strings -/

/-- Strings that take the same room before them are at one place. -/
theorem eq_of_spanOf_eq {front front' back back' : List String}
    (hstrings : front ++ s :: back = front' ++ t :: back') (hspan : spanOf front = spanOf front') :
    s = t := by
  rcases List.append_eq_append_iff.mp hstrings with ⟨between, hfront, hback⟩ | ⟨between, hfront, hback⟩
  · cases between with
    | nil => exact (List.cons.inj hback).1
    | cons first others =>
        rw [hfront, spanOf_append, spanOf] at hspan
        omega
  · cases between with
    | nil => exact (List.cons.inj hback).1.symm
    | cons first others =>
        rw [hfront, spanOf_append, spanOf] at hspan
        omega

/-- Places within the window have addresses of their own. -/
theorem eq_of_address_eq {m n : Nat} (hm : m < windowSize) (hn : n < windowSize)
    (h : address (stringsOffset + m) = address (stringsOffset + n)) : m = n := by
  have hbase : baseAddress = 1048576 := rfl
  have hsize : windowSize = 7340032 := rfl
  have hstrings : stringsOffset = 32768 := rfl
  have hnat := congrArg UInt32.toNat h
  rw [address, address, toNat_toUInt32 (by omega), toNat_toUInt32 (by omega)] at hnat
  omega

/-- Strings that are interned while the pool is smaller than the window have one address only if
they are one string. -/
theorem eq_of_fst_intern_eq {later : FrozenStore} (h : Extends (store.intern s).2 later)
    (hpool : later.pool.size < windowSize) (heq : (store.intern s).1 = (later.intern t).1) :
    s = t := by
  obtain ⟨front, back, hstrings, haddress, _⟩ := exists_place_intern store s
  obtain ⟨front', back', hstrings', haddress', hspan'⟩ := exists_place_intern later t
  obtain ⟨added, hadded⟩ := h.trans (extends_intern later t)
  obtain ⟨between, hbetween⟩ := h
  rw [pool_eq, size_bytesOf] at hpool
  have hspan : spanOf front ≤ spanOf later.strings.toList := by
    rw [← hbetween, hstrings, List.append_assoc, spanOf_append]
    exact Nat.le_add_right _ _
  rw [haddress, haddress'] at heq
  have hplaces := eq_of_address_eq (Nat.lt_of_le_of_lt hspan hpool)
    (Nat.lt_of_le_of_lt hspan' hpool) heq
  rw [hstrings, hstrings', List.append_assoc, List.cons_append] at hadded
  exact eq_of_spanOf_eq hadded hplaces

theorem after_append_intern (before : List Request) (s : String) (later : List Request) :
    empty.after (before ++ .intern s :: later) = ((empty.after before).intern s).2.after later :=
  after_append empty before (.intern s :: later)

/-- A pool has the strings that were asked for, each once, in the order of first requests. Equal
strings have equal addresses, and different ones do not; in an image each lies at its address. -/
theorem strings_interned :
    (∀ requests, (empty.after requests).pool = bytesOf (requested requests).eraseDups) ∧
    (∀ before s between t,
      (s = t → addressBehind before s = addressBehind (before ++ .intern s :: between) t) ∧
      ((empty.after (before ++ .intern s :: between)).pool.size < windowSize → s ≠ t →
        addressBehind before s ≠ addressBehind (before ++ .intern s :: between) t)) ∧
    ∀ before s later image, (empty.after (before ++ .intern s :: later)).image = .ok image →
      ∃ front back table,
        (requested (before ++ .intern s :: later)).eraseDups = front ++ s :: back ∧
        (addressBehind before s).toNat = baseAddress + (stringsOffset + (bytesOf front).size) ∧
        Denotes image (addressBehind before s) s ∧
        image = table ++ bytesOf (front ++ s :: back) ++
          (empty.after (before ++ .intern s :: later)).blobs ∧
        table.size = stringsOffset := by
  refine ⟨?_, ?_, ?_⟩
  · intro requests
    rw [pool_eq, strings_after]
  · intro before s between t
    have hextends : Extends ((empty.after before).intern s).2
        (empty.after (before ++ .intern s :: between)) := by
      rw [after_append_intern]
      exact extends_after _ between
    constructor
    · rintro rfl
      exact (fst_intern_of_extends hextends).symm
    · intro hpool hne heq
      exact hne (eq_of_fst_intern_eq hextends hpool heq)
  · intro before s later image himage
    obtain ⟨front, back, hstrings, haddress, _⟩ := exists_place_intern (empty.after before) s
    have hextends := extends_after ((empty.after before).intern s).2 later
    rw [← after_append_intern] at hextends
    obtain ⟨added, hadded⟩ := hextends
    rw [hstrings, List.append_assoc, List.cons_append] at hadded
    obtain ⟨_, table, htable, hsplit⟩ := image_eq_ok himage
    have hplace := toNat_address_of_image himage hadded.symm
    refine ⟨front, back ++ added, table, ?_, ?_, ?_, ?_, htable⟩
    · rw [← strings_after, ← hadded]
    · rw [addressBehind, haddress, hplace, size_bytesOf]
    · exact denotes_of_holds himage ⟨front, back ++ added, hadded.symm, haddress⟩
    · rw [hsplit, pool_eq, ← hadded]

/-- Requests for a string, for a module and for a suffix of the string. -/
def mixedRequests : List Request :=
  [.intern "ab", .addModule "a.pyc" ⟨#[1]⟩, .intern "b"]

/-- Behind these requests the suffix lies at an address of its own, and the image shows it there. -/
theorem mixedRequests_interned :
    (empty.after (mixedRequests ++ [.intern "ab"])).pool = bytesOf ["ab", "b"] ∧
      addressBehind [] "ab" = addressBehind mixedRequests "ab" ∧
      addressBehind [] "ab" ≠ addressBehind mixedRequests "b" ∧
      ∃ image, (empty.after mixedRequests).image = .ok image ∧
        Denotes image (addressBehind [.intern "ab", .addModule "a.pyc" ⟨#[1]⟩] "b") "b" := by
  obtain ⟨hpool, haddresses, himages⟩ := strings_interned
  have hstrings : (requested (mixedRequests ++ [.intern "ab"])).eraseDups = ["ab", "b"] := by decide
  have hsmall : (empty.after mixedRequests).pool.size < windowSize := by
    rw [hpool, size_bytesOf]
    decide
  obtain ⟨image, himage⟩ : ∃ image, (empty.after mixedRequests).image = .ok image :=
    exists_image (by decide) (by decide) (by decide)
  obtain ⟨_, _, _, _, _, hdenotes, _⟩ :=
    himages [.intern "ab", .addModule "a.pyc" ⟨#[1]⟩] "b" [] image himage
  refine ⟨?_, (haddresses [] "ab" _ "ab").1 rfl, ?_, image, himage, hdenotes⟩
  · rw [hpool, hstrings]
  · exact (haddresses [] "ab" _ "b").2 hsmall (by decide)

end FrozenStore

end WasmTrim
