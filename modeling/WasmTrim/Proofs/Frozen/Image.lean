import WasmTrim.Proofs.Frozen.Pool

/-!
# The layout of the frozen image

Every record takes 64 bytes, so the strings start behind the table, and every address that a store
holds denotes its string in the image.
-/

namespace WasmTrim.FrozenStore

open Frozen

variable {store : FrozenStore} {s : String} {a : UInt32} {image : ByteArray}

/-- A record of a path that is short enough takes its 64 bytes. -/
theorem size_record {module : FrozenModule} (hpath : module.path.utf8ByteSize < pathLimit)
    (offset : Nat) : (record module offset).size = recordSize := by
  have hlimit : pathLimit = 56 := rfl
  have hrecord : recordSize = 64 := rfl
  have hsize : module.path.toUTF8.size = module.path.utf8ByteSize := rfl
  simp only [record, ByteArray.size_append, size_word32Bytes, size_zeros, hsize]
  omega

/-- The table has a record for every module. -/
theorem size_records {modules : List FrozenModule} {table full : ByteArray} {offset : Nat}
    (h : records table offset modules = .ok full) :
    full.size = table.size + recordSize * modules.length := by
  induction modules generalizing table offset with
  | nil =>
      cases h
      rfl
  | cons m rest ih =>
      rw [records] at h
      split at h
      · cases h
      · next hpath =>
        rw [ih h, ByteArray.size_append, size_record (Nat.lt_of_not_le hpath), List.length_cons,
          Nat.mul_succ]
        omega

/-- Modules with short paths have a table. -/
theorem exists_records {modules : List FrozenModule}
    (h : ∀ m ∈ modules, m.path.utf8ByteSize < pathLimit) (table : ByteArray) (offset : Nat) :
    ∃ full, records table offset modules = .ok full := by
  induction modules generalizing table offset with
  | nil => exact ⟨table, rfl⟩
  | cons m rest ih =>
      rw [records, if_neg (Nat.not_le.mpr (h m (List.mem_cons_self ..)))]
      exact ih (fun m' hm => h m' (List.mem_cons_of_mem m hm)) _ _

/-- An image is a table of fixed size, the strings, and the code of the modules. -/
theorem image_eq_ok (h : store.image = .ok image) :
    store.imageSize ≤ windowSize ∧
      ∃ table, table.size = stringsOffset ∧ image = table ++ store.pool ++ store.blobs := by
  rw [FrozenStore.image] at h
  split at h
  · cases h
  · next hmodules =>
    split at h
    · cases h
    · next hwindow =>
      cases htable : records .empty (stringsOffset + store.poolSize) store.modules.toList with
      | error e =>
          rw [htable] at h
          cases h
      | ok table =>
          rw [htable] at h
          cases h
          refine ⟨Nat.le_of_not_lt hwindow, table ++ zeros (stringsOffset - table.size), ?_, rfl⟩
          have hsize := size_records htable
          have hslots : slots = 512 := rfl
          have hrecord : recordSize = 64 := rfl
          have hstrings : stringsOffset = 32768 := rfl
          rw [ByteArray.size_empty, Array.length_toList, hrecord] at hsize
          rw [ByteArray.size_append, size_zeros]
          omega

/-- Where modules and strings fit, there is an image. -/
theorem exists_image (hmodules : store.modules.size < slots)
    (hwindow : store.imageSize ≤ windowSize)
    (hpaths : ∀ m ∈ store.modules.toList, m.path.utf8ByteSize < pathLimit) :
    ∃ image, store.image = .ok image := by
  obtain ⟨table, htable⟩ := exists_records hpaths .empty (stringsOffset + store.poolSize)
  rw [FrozenStore.image, if_neg (Nat.not_le.mpr hmodules), if_neg (Nat.not_lt.mpr hwindow), htable]
  exact ⟨_, rfl⟩

/-- Embedding adds the image as one more data segment behind all fields. -/
theorem embedIn_eq_ok {module packed : Sexpr} (h : store.embedIn module = .ok packed) :
    ∃ image, store.image = .ok image ∧
      packed = module.withFields
        (module.fields ++ [Sexpr.dataField segmentName baseAddress.toUInt32 image]) := by
  rw [embedIn] at h
  cases himage : store.image with
  | error e =>
      rw [himage] at h
      cases h
  | ok image =>
      rw [himage] at h
      cases h
      exact ⟨image, rfl, rfl⟩

/-- In a store that has an image, the places of strings have addresses that do not wrap around. -/
theorem toNat_address_of_image {front back : List String} (himage : store.image = .ok image)
    (hstrings : store.strings.toList = front ++ back) :
    (address (stringsOffset + spanOf front)).toNat =
      baseAddress + (stringsOffset + spanOf front) := by
  obtain ⟨hwindow, _⟩ := image_eq_ok himage
  have hbase : baseAddress = 1048576 := rfl
  have hsize : windowSize = 7340032 := rfl
  rw [imageSize, poolSize_eq, hstrings, spanOf_append] at hwindow
  exact toNat_toUInt32 (by omega)

/-- In an image, the addresses that the store holds denote their strings. -/
theorem denotes_of_holds (himage : store.image = .ok image) (hholds : Holds store a s) :
    Denotes image a s := by
  obtain ⟨front, back, hstrings, rfl⟩ := hholds
  have haddress := toNat_address_of_image himage hstrings
  obtain ⟨_, table, htable, rfl⟩ := image_eq_ok himage
  have hsplit : table ++ store.pool ++ store.blobs =
      (table ++ bytesOf front) ++ stringBytes s ++ (bytesOf back ++ store.blobs) := by
    rw [pool_eq, hstrings, bytesOf_append, bytesOf_cons]
    simp only [ByteArray.append_assoc]
  have hplace : (table ++ bytesOf front).size = stringsOffset + spanOf front := by
    rw [ByteArray.size_append, htable, size_bytesOf]
  refine ⟨by omega, ?_⟩
  rw [haddress, Nat.add_sub_cancel_left, hsplit, ← hplace, Nat.add_assoc, ← size_stringBytes]
  exact extract_middle _ (stringBytes s) _

end WasmTrim.FrozenStore
