import WasmTrim.Frozen.Loader
import WasmTrim.Proofs.Frozen.Image

/-!
# The runtime finds what was packed

A store has an image exactly when its modules, its bytes and its paths keep three bounds, and
otherwise the first bound that is broken is reported. From an image the runtime reads back the
modules of the store, in their order, and their code fills the rest of the image without a gap.

`FrozenStore.image_read_back` says so, and where the parts of an image lie: the strings follow the
table, and the code follows the strings up to the end of the image, at addresses that do not wrap
around.
-/

namespace WasmTrim

open Frozen

namespace FrozenStore

variable {store : FrozenStore} {image table full front back : ByteArray} {m : FrozenModule}
variable {modules rest : List FrozenModule} {e : PackError} {offset : Nat}

/-! ### Which stores have an image -/

/-- The number of bytes of the code of modules. -/
def codeSpan : List FrozenModule → Nat
  | [] => 0
  | m :: rest => m.code.size + codeSpan rest

/-- The code of modules back to back. -/
def codesOf (modules : List FrozenModule) : ByteArray :=
  modules.foldl (fun bytes m => bytes ++ m.code) .empty

/-- The records of modules whose code lies back to back from `offset` on. -/
def tableOf (offset : Nat) : List FrozenModule → ByteArray
  | [] => .empty
  | m :: rest => record m offset ++ tableOf (offset + m.code.size) rest

/-- The bounds that modules, bytes and paths must keep. -/
structure Fits (store : FrozenStore) : Prop where
  modules : store.modules.size ≤ 511
  window : stringsOffset + store.pool.size + codeSpan store.modules.toList ≤ windowSize
  paths : ∀ m ∈ store.modules.toList, m.path.utf8ByteSize < 56

/-- What is reported of a store that breaks a bound. -/
inductive Refused (store : FrozenStore) : PackError → Prop
  | tooManyModules (h : 511 < store.modules.size) :
      Refused store (.tooManyModules store.modules.size)
  | windowExceeded (hmodules : store.modules.size ≤ 511)
      (h : windowSize < stringsOffset + store.pool.size + codeSpan store.modules.toList) :
      Refused store
        (.windowExceeded (stringsOffset + store.pool.size + codeSpan store.modules.toList))
  | pathTooLong (hmodules : store.modules.size ≤ 511)
      (hwindow : stringsOffset + store.pool.size + codeSpan store.modules.toList ≤ windowSize)
      {before after : List FrozenModule} {m : FrozenModule}
      (hsplit : store.modules.toList = before ++ m :: after)
      (hshort : ∀ m' ∈ before, m'.path.utf8ByteSize < 56) (h : 56 ≤ m.path.utf8ByteSize) :
      Refused store (.pathTooLong m.path m.path.utf8ByteSize)

theorem codesOf_cons (m : FrozenModule) (rest : List FrozenModule) :
    codesOf (m :: rest) = m.code ++ codesOf rest := by
  rw [codesOf, List.foldl_cons, foldl_append_bytes, ByteArray.empty_append]
  rfl

theorem size_codesOf (modules : List FrozenModule) : (codesOf modules).size = codeSpan modules := by
  induction modules with
  | nil => rfl
  | cons m rest ih => rw [codesOf_cons, ByteArray.size_append, ih, codeSpan]

theorem blobs_eq (store : FrozenStore) : store.blobs = codesOf store.modules.toList := by
  rw [blobs, codesOf, Array.foldl_toList]

theorem imageSize_eq (store : FrozenStore) :
    store.imageSize = stringsOffset + store.pool.size + codeSpan store.modules.toList := by
  have hfold : ∀ (modules : List FrozenModule) (n : Nat),
      modules.foldl (fun n m => n + m.code.size) n = n + codeSpan modules := by
    intro modules
    induction modules with
    | nil => exact fun n => rfl
    | cons m rest ih =>
        intro n
        rw [List.foldl_cons, ih, codeSpan]
        omega
  rw [imageSize, codeSize, ← Array.foldl_toList, hfold, Nat.zero_add, poolSize_eq, pool_eq,
    size_bytesOf]

theorem records_eq_ok_iff :
    records table offset modules = .ok full ↔
      (∀ m ∈ modules, m.path.utf8ByteSize < 56) ∧ full = table ++ tableOf offset modules := by
  induction modules generalizing table offset with
  | nil => simp [records, tableOf, eq_comm]
  | cons m rest ih =>
      rw [records, tableOf]
      split
      · next hlong =>
        constructor
        · rintro ⟨⟩
        · rintro ⟨hshort, _⟩
          exact absurd (hshort m (List.mem_cons_self ..)) (Nat.not_lt.mpr hlong)
      · next hshort =>
        have hm : m.path.utf8ByteSize < 56 := Nat.lt_of_not_le hshort
        rw [ih, List.forall_mem_cons, ByteArray.append_assoc]
        simp only [hm, true_and]

theorem records_eq_error_iff :
    records table offset modules = .error e ↔
      ∃ before m after, modules = before ++ m :: after ∧
        (∀ m' ∈ before, m'.path.utf8ByteSize < 56) ∧ 56 ≤ m.path.utf8ByteSize ∧
        e = .pathTooLong m.path m.path.utf8ByteSize := by
  induction modules generalizing table offset with
  | nil => simp [records]
  | cons m rest ih =>
      rw [records]
      split
      · next hlong =>
        constructor
        · rintro ⟨⟩
          exact ⟨[], m, rest, rfl, by simp, hlong, rfl⟩
        · rintro ⟨before, m', after, hsplit, hshort, _, rfl⟩
          cases before with
          | nil =>
              obtain ⟨rfl, _⟩ := List.cons.inj hsplit
              rfl
          | cons first before =>
              obtain ⟨rfl, _⟩ := List.cons.inj hsplit
              exact absurd (hshort m (List.mem_cons_self ..)) (Nat.not_lt.mpr hlong)
      · next hshort =>
        rw [ih]
        constructor
        · rintro ⟨before, m', after, rfl, hbefore, hlong, he⟩
          refine ⟨m :: before, m', after, rfl, ?_, hlong, he⟩
          exact List.forall_mem_cons.mpr ⟨Nat.lt_of_not_le hshort, hbefore⟩
        · rintro ⟨before, m', after, hsplit, hbefore, hlong, he⟩
          cases before with
          | nil =>
              obtain ⟨rfl, _⟩ := List.cons.inj hsplit
              exact absurd hlong hshort
          | cons first before =>
              obtain ⟨rfl, rfl⟩ := List.cons.inj hsplit
              exact ⟨before, m', after, rfl, (List.forall_mem_cons.mp hbefore).2, hlong, he⟩

/-- The table with the zeros that fill it up, the strings and the code. -/
def layout (store : FrozenStore) : ByteArray :=
  tableOf (stringsOffset + store.pool.size) store.modules.toList ++
    zeros (recordSize * (slots - store.modules.size)) ++ store.pool ++ store.blobs

/-- Where neither the modules nor the bytes are too many, the records decide. -/
theorem image_eq_of_le (hmodules : store.modules.size ≤ 511)
    (hwindow : stringsOffset + store.pool.size + codeSpan store.modules.toList ≤ windowSize) :
    store.image = (records .empty (stringsOffset + store.pool.size) store.modules.toList).map
      fun table => table ++ zeros (stringsOffset - table.size) ++ store.pool ++ store.blobs := by
  have hslots : ¬slots ≤ store.modules.size := Nat.not_le.mpr (Nat.lt_succ_of_le hmodules)
  rw [FrozenStore.image, imageSize_eq, if_neg hslots, if_neg (Nat.not_lt.mpr hwindow), poolSize_eq,
    pool_eq, size_bytesOf]
  rfl

theorem records_of_fits (h : Fits store) :
    records .empty (stringsOffset + store.pool.size) store.modules.toList =
      .ok (tableOf (stringsOffset + store.pool.size) store.modules.toList) :=
  records_eq_ok_iff.mpr ⟨h.paths, ByteArray.empty_append.symm⟩

theorem size_tableOf (h : Fits store) :
    (tableOf (stringsOffset + store.pool.size) store.modules.toList).size =
      recordSize * store.modules.size := by
  rw [size_records (records_of_fits h), ByteArray.size_empty, Nat.zero_add, Array.length_toList]

theorem image_of_fits (h : Fits store) : store.image = .ok store.layout := by
  rw [image_eq_of_le h.modules h.window, records_of_fits h, Except.map, size_tableOf h, layout,
    stringsOffset, Nat.mul_sub]

theorem image_of_refused (h : Refused store e) : store.image = .error e := by
  cases h with
  | tooManyModules h =>
      have hslots : slots ≤ store.modules.size := h
      rw [FrozenStore.image, if_pos hslots]
  | windowExceeded hmodules h =>
      have hslots : ¬slots ≤ store.modules.size := Nat.not_le.mpr (Nat.lt_succ_of_le hmodules)
      rw [FrozenStore.image, imageSize_eq, if_neg hslots, if_pos h]
  | pathTooLong hmodules hwindow hsplit hshort h =>
      rw [image_eq_of_le hmodules hwindow,
        records_eq_error_iff.mpr ⟨_, _, _, hsplit, hshort, h, rfl⟩]
      rfl

theorem fits_or_refused (store : FrozenStore) : Fits store ∨ ∃ e, Refused store e := by
  by_cases hmodules : store.modules.size ≤ 511
  · by_cases hwindow : stringsOffset + store.pool.size + codeSpan store.modules.toList ≤ windowSize
    · cases hrecords : records .empty 0 store.modules.toList with
      | ok full => exact Or.inl ⟨hmodules, hwindow, (records_eq_ok_iff.mp hrecords).1⟩
      | error e =>
          obtain ⟨before, m, after, hsplit, hshort, hlong, _⟩ := records_eq_error_iff.mp hrecords
          exact Or.inr ⟨_, .pathTooLong hmodules hwindow hsplit hshort hlong⟩
    · exact Or.inr ⟨_, .windowExceeded hmodules (Nat.lt_of_not_le hwindow)⟩
  · exact Or.inr ⟨_, .tooManyModules (Nat.lt_of_not_le hmodules)⟩

/-- A store that keeps all bounds has its layout as its image, and no other store has one. -/
theorem image_eq_ok_iff : store.image = .ok image ↔ Fits store ∧ image = store.layout := by
  constructor
  · intro h
    rcases fits_or_refused store with hfits | ⟨e, hrefused⟩
    · rw [image_of_fits hfits, Except.ok.injEq] at h
      exact ⟨hfits, h.symm⟩
    · rw [image_of_refused hrefused] at h
      cases h
  · rintro ⟨hfits, rfl⟩
    exact image_of_fits hfits

theorem image_eq_error_iff : store.image = .error e ↔ Refused store e := by
  constructor
  · intro h
    rcases fits_or_refused store with hfits | ⟨e', hrefused⟩
    · rw [image_of_fits hfits] at h
      cases h
    · rw [image_of_refused hrefused, Except.error.injEq] at h
      exact h ▸ hrefused
  · exact image_of_refused

/-! ### The walk over the table -/

/-- The records that the runtime finds of modules whose code lies back to back from `offset` on. -/
def recordsOf (offset : Nat) : List FrozenModule → List Record
  | [] => []
  | m :: rest =>
    ⟨address offset, m.code.size.toUInt32, m.path.toUTF8⟩ :: recordsOf (offset + m.code.size) rest

/-- Records whose code fills the addresses from the first number up to the second without a gap. -/
inductive BackToBack : Nat → List Record → Nat → Prop
  | done (n : Nat) : BackToBack n [] n
  | next {r : Record} {rest : List Record} {start stop : Nat} (hstart : r.address.toNat = start)
      (hrest : BackToBack (start + r.size.toNat) rest stop) : BackToBack start (r :: rest) stop

/-- What stands before a run of zeros is read back if no zero is in it. -/
theorem beforeZero_append_zeros {path : ByteArray} (hpath : 0 ∉ path.data.toList) {n : Nat}
    (hn : 0 < n) (back : ByteArray) : beforeZero (path ++ (zeros n ++ back)) = path := by
  obtain ⟨k, rfl⟩ := Nat.exists_eq_add_one_of_ne_zero (Nat.ne_of_gt hn)
  have hall : ∀ b ∈ path.data.toList, (b != 0) = true := by
    intro b hb
    rw [bne_iff_ne]
    rintro rfl
    exact hpath hb
  apply ByteArray.ext
  apply Array.toList_inj.mp
  rw [beforeZero, Array.toList_takeWhile, ByteArray.toList_data_append,
    List.takeWhile_append_of_pos hall, ByteArray.toList_data_append, zeros, Array.toList_replicate,
    List.replicate_succ, List.cons_append, List.takeWhile_cons_of_neg (by decide), List.append_nil]

/-- A record is read as its two words and what follows them up to a zero byte. -/
theorem recordAt_words (a n : UInt32) (front back : ByteArray) :
    recordAt (front ++ word32Bytes a ++ word32Bytes n ++ back) front.size =
      ⟨a, n, beforeZero back⟩ := by
  have haddress : word32At (front ++ word32Bytes a ++ word32Bytes n ++ back) front.size = a := by
    rw [ByteArray.append_assoc]
    exact word32At_append_word32Bytes front _ _
  have hplace : front.size + 4 = (front ++ word32Bytes a).size := by
    rw [ByteArray.size_append, size_word32Bytes]
  have hsize : word32At (front ++ word32Bytes a ++ word32Bytes n ++ back) (front.size + 4) = n := by
    rw [hplace]
    exact word32At_append_word32Bytes _ _ _
  have hend : front.size + 8 = (front ++ word32Bytes a ++ word32Bytes n).size := by
    simp only [ByteArray.size_append, size_word32Bytes]
  rw [recordAt, haddress, hsize, hend, ByteArray.extract_append_eq_right rfl ByteArray.size_append]

/-- A record is read back, wherever it stands. -/
theorem recordAt_append (hshort : m.path.utf8ByteSize < 56)
    (hpath : 0 ∉ m.path.toUTF8.data.toList) (offset : Nat) (front back : ByteArray) :
    recordAt (front ++ record m offset ++ back) front.size =
      ⟨address offset, m.code.size.toUInt32, m.path.toUTF8⟩ := by
  have hsplit : front ++ record m offset ++ back =
      front ++ word32Bytes (address offset) ++ word32Bytes m.code.size.toUInt32 ++
        (m.path.toUTF8 ++ (zeros (recordSize - 8 - m.path.utf8ByteSize) ++ back)) := by
    simp only [record, ByteArray.append_assoc]
  have hpadding : 0 < recordSize - 8 - m.path.utf8ByteSize := by
    rw [recordSize]
    omega
  rw [hsplit, recordAt_words, beforeZero_append_zeros hpath hpadding]

theorem word32At_zeros (n place : Nat) : word32At (zeros n) place = 0 := by
  simp only [word32At, byteAt_zeros]
  decide

/-- No record is taken for the end of the table, since its address is not zero. -/
theorem record_ne_zeros (m : FrozenModule) (h : baseAddress + offset < 0x100000000) :
    record m offset ≠ zeros recordSize := by
  intro hzeros
  have hword : word32At (record m offset) 0 = address offset := by
    simp only [record, ByteArray.append_assoc]
    rw [← ByteArray.empty_append (b := word32Bytes (address offset) ++ _), ← ByteArray.append_assoc]
    exact word32At_append_word32Bytes .empty _ _
  rw [hzeros, word32At_zeros] at hword
  have hnat := congrArg UInt32.toNat hword
  rw [address, toNat_toUInt32 h, UInt32.toNat_zero] at hnat
  have hbase : baseAddress = 1048576 := rfl
  omega

/-- Behind the records of a table comes a blank one, and the walk ends there with all of them. -/
theorem recordsFrom?_tableOf (hshort : ∀ m ∈ modules, m.path.utf8ByteSize < 56)
    (hpath : ∀ m ∈ modules, 0 ∉ m.path.toUTF8.data.toList)
    (hfit : baseAddress + offset + codeSpan modules < 0x100000000) {n : Nat}
    (hn : modules.length < n) (front back : ByteArray) :
    recordsFrom? (front ++ tableOf offset modules ++ (zeros recordSize ++ back)) front.size n =
      some (recordsOf offset modules) := by
  induction modules generalizing offset n front with
  | nil =>
      obtain ⟨n, rfl⟩ := Nat.exists_eq_add_one_of_ne_zero (Nat.ne_of_gt hn)
      have hblank := extract_middle front (zeros recordSize) back
      rw [size_zeros] at hblank
      rw [tableOf, ByteArray.append_empty, ← ByteArray.append_assoc, recordsFrom?, if_pos hblank,
        recordsOf]
  | cons m rest ih =>
      obtain ⟨n, rfl⟩ := Nat.exists_eq_add_one_of_ne_zero (Nat.ne_of_gt (Nat.zero_lt_of_lt hn))
      have hm := hshort m (List.mem_cons_self ..)
      have hsize := size_record hm offset
      rw [codeSpan] at hfit
      have hrest : baseAddress + (offset + m.code.size) + codeSpan rest < 0x100000000 := by omega
      have htail := ih (fun m' hm' => hshort m' (List.mem_cons_of_mem m hm'))
        (fun m' hm' => hpath m' (List.mem_cons_of_mem m hm')) hrest (Nat.lt_of_succ_lt_succ hn)
        (front ++ record m offset)
      rw [ByteArray.size_append, hsize] at htail
      have hsplit : front ++ tableOf offset (m :: rest) ++ (zeros recordSize ++ back) =
          front ++ record m offset ++
            (tableOf (offset + m.code.size) rest ++ (zeros recordSize ++ back)) := by
        simp only [tableOf, ByteArray.append_assoc]
      have hrecord := extract_middle front (record m offset)
        (tableOf (offset + m.code.size) rest ++ (zeros recordSize ++ back))
      rw [hsize] at hrecord
      rw [hsplit, recordsFrom?, hrecord, if_neg (record_ne_zeros m (by omega)),
        recordAt_append hm (hpath m (List.mem_cons_self ..)), ← ByteArray.append_assoc, htail, recordsOf,
        Option.map_some]

/-! ### What the records stand for -/

/-- A record leads to the code of its module. -/
theorem module?_append (hfit : baseAddress + front.size + m.code.size < 0x100000000) :
    Record.module? (front ++ m.code ++ back)
      ⟨address front.size, m.code.size.toUInt32, m.path.toUTF8⟩ = some m := by
  have hplace : (address front.size).toNat - baseAddress = front.size := by
    rw [address, toNat_toUInt32 (by omega), Nat.add_sub_cancel_left]
  have hpath : String.fromUTF8? m.path.toUTF8 = some m.path := by
    simp only [String.fromUTF8?, String.toUTF8_eq_toByteArray, dif_pos m.path.isValidUTF8]
    rfl
  simp only [Record.module?, hplace, hpath, toNat_toUInt32 (show m.code.size < 0x100000000 by omega),
    extract_middle, Option.map_some]

theorem map_module?_recordsOf (hfront : front.size = offset)
    (hfit : baseAddress + offset + codeSpan modules < 0x100000000) (back : ByteArray) :
    (recordsOf offset modules).map (Record.module? (front ++ codesOf modules ++ back)) =
      modules.map some := by
  induction modules generalizing offset front with
  | nil => rfl
  | cons m rest ih =>
      subst hfront
      rw [codeSpan] at hfit
      have hsplit : front ++ codesOf (m :: rest) ++ back =
          front ++ m.code ++ (codesOf rest ++ back) := by
        simp only [codesOf_cons, ByteArray.append_assoc]
      have hsize : (front ++ m.code).size = front.size + m.code.size := ByteArray.size_append
      have htail := ih hsize (by omega)
      rw [ByteArray.append_assoc] at htail
      rw [recordsOf, List.map_cons, hsplit, module?_append (by omega), htail, List.map_cons]

theorem backToBack_recordsOf
    (hfit : baseAddress + offset + codeSpan modules < 0x100000000) :
    BackToBack (baseAddress + offset) (recordsOf offset modules)
      (baseAddress + offset + codeSpan modules) := by
  induction modules generalizing offset with
  | nil => exact .done _
  | cons m rest ih =>
      rw [codeSpan] at hfit
      have hrest : baseAddress + (offset + m.code.size) + codeSpan rest < 0x100000000 := by omega
      have htail := ih hrest
      have haddress : (address offset).toNat = baseAddress + offset := toNat_toUInt32 (by omega)
      have hsize : m.code.size.toUInt32.toNat = m.code.size := toNat_toUInt32 (by omega)
      rw [recordsOf, codeSpan]
      apply BackToBack.next haddress
      rw [hsize, ← Nat.add_assoc]
      rwa [← Nat.add_assoc] at htail

/-! ### Images as a whole -/

theorem zeros_add (m n : Nat) : zeros (m + n) = zeros m ++ zeros n := by
  apply ByteArray.ext
  rw [ByteArray.data_append]
  exact Array.replicate_append_replicate.symm

theorem size_filledTable (h : Fits store) :
    (tableOf (stringsOffset + store.pool.size) store.modules.toList ++
      zeros (recordSize * (slots - store.modules.size))).size = stringsOffset := by
  have hslots : slots = 512 := rfl
  have hmodules := h.modules
  rw [ByteArray.size_append, size_tableOf h, size_zeros, stringsOffset, ← Nat.mul_add]
  congr 1
  omega

theorem size_layout (h : Fits store) :
    store.layout.size = stringsOffset + store.pool.size + codeSpan store.modules.toList := by
  rw [layout, ByteArray.size_append, ByteArray.size_append, size_filledTable h, blobs_eq,
    size_codesOf]

/-- An image fits into its window. -/
theorem size_image_le (himage : store.image = .ok image) : image.size ≤ windowSize := by
  obtain ⟨hfits, rfl⟩ := image_eq_ok_iff.mp himage
  rw [size_layout hfits]
  exact hfits.window

theorem extract_layout_pool (h : Fits store) :
    store.layout.extract stringsOffset (stringsOffset + store.pool.size) = store.pool := by
  have hpool := extract_middle (tableOf (stringsOffset + store.pool.size) store.modules.toList ++
    zeros (recordSize * (slots - store.modules.size))) store.pool store.blobs
  rwa [size_filledTable h, ← layout] at hpool

/-- The walk over the table does not see what follows an image in memory. -/
theorem records?_layout_append (h : Fits store)
    (hpath : ∀ m ∈ store.modules.toList, 0 ∉ m.path.toUTF8.data.toList)
    (hfit : baseAddress + (stringsOffset + store.pool.size) + codeSpan store.modules.toList <
      0x100000000) (back : ByteArray) :
    records? (store.layout ++ back) =
      some (recordsOf (stringsOffset + store.pool.size) store.modules.toList) := by
  have hmodules : store.modules.size < slots := Nat.lt_succ_of_le h.modules
  obtain ⟨k, hk⟩ := Nat.exists_eq_add_of_lt hmodules
  have hblank : zeros (recordSize * (slots - store.modules.size)) =
      zeros recordSize ++ zeros (recordSize * k) := by
    have hcount : slots - store.modules.size = 1 + k := by omega
    rw [hcount, Nat.mul_add, Nat.mul_one, zeros_add]
  have hlayout : store.layout ++ back =
      .empty ++ tableOf (stringsOffset + store.pool.size) store.modules.toList ++
        (zeros recordSize ++ (zeros (recordSize * k) ++ store.pool ++ store.blobs ++ back)) := by
    simp only [layout, hblank, ByteArray.append_assoc, ByteArray.empty_append]
  rw [records?, hlayout]
  exact recordsFrom?_tableOf h.paths hpath hfit hmodules .empty _

theorem records?_layout (h : Fits store)
    (hpath : ∀ m ∈ store.modules.toList, 0 ∉ m.path.toUTF8.data.toList)
    (hfit : baseAddress + (stringsOffset + store.pool.size) + codeSpan store.modules.toList <
      0x100000000) :
    records? store.layout =
      some (recordsOf (stringsOffset + store.pool.size) store.modules.toList) := by
  have hwalk := records?_layout_append h hpath hfit .empty
  rwa [ByteArray.append_empty] at hwalk

theorem map_module?_layout_append (h : Fits store)
    (hfit : baseAddress + (stringsOffset + store.pool.size) + codeSpan store.modules.toList <
      0x100000000) (back : ByteArray) :
    (recordsOf (stringsOffset + store.pool.size) store.modules.toList).map
      (Record.module? (store.layout ++ back)) = store.modules.toList.map some := by
  have hsize : (tableOf (stringsOffset + store.pool.size) store.modules.toList ++
      zeros (recordSize * (slots - store.modules.size)) ++ store.pool).size =
        stringsOffset + store.pool.size := by
    rw [ByteArray.size_append, size_filledTable h]
  have hmodules := map_module?_recordsOf hsize hfit back
  rwa [← blobs_eq, ← layout] at hmodules

theorem map_module?_layout (h : Fits store)
    (hfit : baseAddress + (stringsOffset + store.pool.size) + codeSpan store.modules.toList <
      0x100000000) :
    (recordsOf (stringsOffset + store.pool.size) store.modules.toList).map
      (Record.module? store.layout) = store.modules.toList.map some := by
  have hmodules := map_module?_layout_append h hfit .empty
  rwa [ByteArray.append_empty] at hmodules

/-- A store has an image exactly when it fits, and otherwise the first bound that it breaks is
reported. From an image the runtime reads back the modules of the store in order. -/
theorem image_read_back (store : FrozenStore) :
    ((∃ image, store.image = .ok image) ↔ Fits store) ∧
    (∀ e, store.image = .error e ↔ Refused store e) ∧
    ∀ image, store.image = .ok image →
      (∀ m ∈ store.modules.toList, 0 ∉ m.path.toUTF8.data.toList) →
      image.extract stringsOffset (stringsOffset + store.pool.size) = store.pool ∧
      baseAddress + image.size ≤ maxAddress ∧
      ∃ found, records? image = some found ∧
        found.map (Record.module? image) = store.modules.toList.map some ∧
        BackToBack (baseAddress + stringsOffset + store.pool.size) found
          (baseAddress + image.size) := by
  refine ⟨?_, fun e => image_eq_error_iff, ?_⟩
  · constructor
    · rintro ⟨image, himage⟩
      exact (image_eq_ok_iff.mp himage).1
    · intro hfits
      exact ⟨_, image_of_fits hfits⟩
  · intro image himage hpath
    obtain ⟨hfits, rfl⟩ := image_eq_ok_iff.mp himage
    have hbase : baseAddress = 1048576 := rfl
    have hmax : maxAddress = 8388608 := rfl
    have hwindow := hfits.window
    rw [windowSize] at hwindow
    have hfit : baseAddress + (stringsOffset + store.pool.size) + codeSpan store.modules.toList <
        0x100000000 := by
      omega
    have hcode := backToBack_recordsOf hfit
    refine ⟨extract_layout_pool hfits, ?_, _, records?_layout hfits hpath hfit,
      map_module?_layout hfits hfit, ?_⟩
    · rw [size_layout hfits]
      omega
    · rw [size_layout hfits]
      simpa only [Nat.add_assoc] using hcode

/-- A store with a string and two modules, the second of them without any code. -/
def smallStore : FrozenStore where
  modules := #[⟨"a.pyc", ⟨#[1, 2, 3]⟩⟩, ⟨"pkg/b.pyc", ⟨#[]⟩⟩]
  strings := #["contract"]

/-- Both modules are found in the image of such a store. -/
theorem smallStore_read_back : ∃ image found, smallStore.image = .ok image ∧
    records? image = some found ∧
    found.map (Record.module? image) =
      [some ⟨"a.pyc", ⟨#[1, 2, 3]⟩⟩, some ⟨"pkg/b.pyc", ⟨#[]⟩⟩] := by
  have hfits : Fits smallStore := ⟨by decide, by decide, by decide⟩
  obtain ⟨image, himage⟩ := (image_read_back smallStore).1.mpr hfits
  obtain ⟨_, _, found, hfound, hmodules, _⟩ :=
    (image_read_back smallStore).2.2 image himage (by decide)
  exact ⟨image, found, himage, hfound, hmodules⟩

end FrozenStore

end WasmTrim
