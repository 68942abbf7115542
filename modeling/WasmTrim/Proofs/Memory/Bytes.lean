import WasmTrim.Memory.Words

/-!
# Byte strings by their bytes

`byteAt` extends a byte string by zeros, so two strings can be compared at every index, and cutting,
joining and trimming become equations that hold without bounds.
-/

namespace WasmTrim

theorem byteAt_of_lt {bytes : ByteArray} {i : Nat} (h : i < bytes.size) :
    byteAt bytes i = bytes[i] := by
  simp [byteAt, h]

theorem byteAt_of_le {bytes : ByteArray} {i : Nat} (h : bytes.size ≤ i) : byteAt bytes i = 0 := by
  simp [byteAt, Nat.not_lt.mpr h]

/-- Strings of one size that agree at each of their indices are equal. -/
theorem ext_byteAt {a b : ByteArray} (hsize : a.size = b.size)
    (h : ∀ i < a.size, byteAt a i = byteAt b i) : a = b := by
  apply ByteArray.ext_getElem hsize
  intro i hi hi'
  rw [← byteAt_of_lt hi, ← byteAt_of_lt hi', h i hi]

theorem byteAt_append (a b : ByteArray) (i : Nat) :
    byteAt (a ++ b) i = if i < a.size then byteAt a i else byteAt b (i - a.size) := by
  by_cases hi : i < (a ++ b).size
  · rw [byteAt_of_lt hi]
    rw [ByteArray.size_append] at hi
    by_cases ha : i < a.size
    · rw [if_pos ha, byteAt_of_lt ha, ByteArray.getElem_append_left ha]
    · have hb : i - a.size < b.size := by omega
      rw [if_neg ha, byteAt_of_lt hb, ByteArray.getElem_append_right (by omega)]
  · rw [byteAt_of_le (by omega)]
    rw [ByteArray.size_append] at hi
    rw [if_neg (by omega), byteAt_of_le (by omega)]

theorem byteAt_append_left {a : ByteArray} (b : ByteArray) {i : Nat} (h : i < a.size) :
    byteAt (a ++ b) i = byteAt a i := by
  rw [byteAt_append, if_pos h]

theorem byteAt_append_right (a b : ByteArray) (i : Nat) :
    byteAt (a ++ b) (a.size + i) = byteAt b i := by
  rw [byteAt_append, if_neg (by omega), Nat.add_sub_cancel_left]

theorem push_eq_append (bytes : ByteArray) (b : UInt8) : bytes.push b = bytes ++ ⟨#[b]⟩ := by
  apply ByteArray.ext
  rw [ByteArray.data_push, ByteArray.data_append]
  rfl

theorem byteAt_extract (bytes : ByteArray) (start stop i : Nat) :
    byteAt (bytes.extract start stop) i =
      if start + i < stop then byteAt bytes (start + i) else 0 := by
  have hsize : (bytes.extract start stop).size = min stop bytes.size - start :=
    ByteArray.size_extract
  by_cases hi : i < (bytes.extract start stop).size
  · rw [if_pos (by omega), byteAt_of_lt hi, byteAt_of_lt (by omega), ByteArray.getElem_extract]
  · rw [byteAt_of_le (by omega)]
    split
    · rw [byteAt_of_le (by omega)]
    · rfl

/-- What stands between two strings is read back by its place. -/
theorem extract_middle (front middle back : ByteArray) :
    (front ++ middle ++ back).extract front.size (front.size + middle.size) = middle := by
  rw [ByteArray.extract_append, ByteArray.extract_append_eq_right rfl rfl, ByteArray.size_append,
    Nat.sub_self, ByteArray.extract_eq_empty_iff.mpr (by omega), ByteArray.append_empty]

/-- Byte strings written one after another stand behind what was written before them. -/
theorem foldl_append_bytes {α : Type} (f : α → ByteArray) (acc : ByteArray) (xs : List α) :
    xs.foldl (fun bytes x => bytes ++ f x) acc =
      acc ++ xs.foldl (fun bytes x => bytes ++ f x) .empty := by
  induction xs generalizing acc with
  | nil => exact ByteArray.append_empty.symm
  | cons x rest ih =>
      rw [List.foldl_cons, List.foldl_cons, ih, ih (.empty ++ f x), ByteArray.empty_append,
        ByteArray.append_assoc]

@[simp] theorem size_zeros (n : Nat) : (zeros n).size = n := by
  simp [zeros, ByteArray.size]

@[simp] theorem byteAt_zeros (n i : Nat) : byteAt (zeros n) i = 0 := by
  by_cases h : i < (zeros n).size
  · rw [byteAt_of_lt h]
    simp [zeros, ByteArray.getElem_eq_getElem_data]
  · exact byteAt_of_le (by omega)

/-! ### Trimming -/

theorem usedBelow_le (bytes : ByteArray) (n : Nat) : usedBelow bytes n ≤ n := by
  induction n with
  | zero => exact Nat.le_refl 0
  | succ n ih =>
      rw [usedBelow]
      split <;> omega

/-- All bytes between the used ones and the bound are zero. -/
theorem byteAt_of_usedBelow_le (bytes : ByteArray) {n i : Nat} (h : usedBelow bytes n ≤ i)
    (hi : i < n) : byteAt bytes i = 0 := by
  induction n with
  | zero => omega
  | succ n ih =>
      rw [usedBelow] at h
      split at h
      · next hn =>
        rcases Nat.lt_succ_iff_lt_or_eq.mp hi with hlt | rfl
        · exact ih h hlt
        · exact hn
      · omega

/-- The last of the used bytes is not zero. -/
theorem byteAt_ne_zero_of_usedBelow {bytes : ByteArray} {n last : Nat}
    (h : usedBelow bytes n = last + 1) : byteAt bytes last ≠ 0 := by
  induction n with
  | zero => cases h
  | succ n ih =>
      rw [usedBelow] at h
      split at h
      · exact ih h
      · next hn =>
        obtain rfl : n = last := by omega
        exact hn

theorem size_trimZeros (bytes : ByteArray) :
    (trimZeros bytes).size = usedBelow bytes bytes.size := by
  have h := usedBelow_le bytes bytes.size
  rw [trimZeros, ByteArray.size_extract]
  omega

theorem size_trimZeros_le (bytes : ByteArray) : (trimZeros bytes).size ≤ bytes.size := by
  rw [size_trimZeros]
  exact usedBelow_le bytes bytes.size

/-- Trimming changes no byte. -/
@[simp] theorem byteAt_trimZeros (bytes : ByteArray) (i : Nat) :
    byteAt (trimZeros bytes) i = byteAt bytes i := by
  rw [trimZeros, byteAt_extract, Nat.zero_add]
  split
  · rfl
  · next h =>
    by_cases hi : i < bytes.size
    · exact (byteAt_of_usedBelow_le bytes (Nat.le_of_not_lt h) hi).symm
    · exact (byteAt_of_le (Nat.le_of_not_lt hi)).symm

/-- What is left after trimming does not end in a zero. -/
theorem byteAt_last_trimZeros {bytes : ByteArray} {last : Nat}
    (h : (trimZeros bytes).size = last + 1) : byteAt (trimZeros bytes) last ≠ 0 := by
  rw [size_trimZeros] at h
  rw [byteAt_trimZeros]
  exact byteAt_ne_zero_of_usedBelow h

/-- The search for a byte that is not zero fails only where there is none. -/
theorem firstNonZero?_eq_none_iff {bytes : ByteArray} {i n : Nat} :
    firstNonZero? bytes i n = none ↔ ∀ j, i ≤ j → j < i + n → byteAt bytes j = 0 := by
  induction n generalizing i with
  | zero =>
      simp only [firstNonZero?, Nat.add_zero, true_iff]
      intro j hlow hhigh
      omega
  | succ n ih =>
      rw [firstNonZero?]
      split
      · next hzero =>
        rw [ih]
        constructor
        · intro h j hlow hhigh
          rcases Nat.eq_or_lt_of_le hlow with rfl | hlt
          · exact hzero
          · exact h j hlt (by omega)
        · intro h j hlow hhigh
          exact h j (by omega) (by omega)
      · next hnonzero =>
        constructor
        · intro h
          cases h
        · intro h
          exact absurd (h i (Nat.le_refl i) (by omega)) hnonzero

/-- The search finds the first byte that is not zero. -/
theorem firstNonZero?_eq_some_iff {bytes : ByteArray} {i n j : Nat} :
    firstNonZero? bytes i n = some j ↔
      i ≤ j ∧ j < i + n ∧ byteAt bytes j ≠ 0 ∧ ∀ k, i ≤ k → k < j → byteAt bytes k = 0 := by
  induction n generalizing i with
  | zero =>
      constructor
      · intro h
        cases h
      · rintro ⟨hlow, hhigh, _⟩
        omega
  | succ n ih =>
      rw [firstNonZero?]
      split
      · next hzero =>
        rw [ih]
        constructor
        · rintro ⟨hlow, hhigh, hnonzero, hbefore⟩
          refine ⟨by omega, by omega, hnonzero, fun k hk hkj => ?_⟩
          rcases Nat.eq_or_lt_of_le hk with rfl | hlt
          · exact hzero
          · exact hbefore k hlt hkj
        · rintro ⟨hlow, hhigh, hnonzero, hbefore⟩
          have hne : i ≠ j := by
            rintro rfl
            exact hnonzero hzero
          exact ⟨by omega, by omega, hnonzero, fun k hk hkj => hbefore k (by omega) hkj⟩
      · next hnonzero =>
        constructor
        · intro h
          cases h
          exact ⟨Nat.le_refl _, by omega, hnonzero, fun k hk hkj => by omega⟩
        · rintro ⟨hlow, _, _, hbefore⟩
          rcases Nat.eq_or_lt_of_le hlow with rfl | hlt
          · rfl
          · exact absurd (hbefore i (Nat.le_refl i) hlt) hnonzero

/-! ### Up to a zero -/

/-- Bytes are those before the first zero and more that start with a zero or are none. -/
theorem exists_eq_beforeZero_append (bytes : ByteArray) :
    ∃ back, bytes = beforeZero bytes ++ back ∧ byteAt back 0 = 0 := by
  refine ⟨⟨(bytes.data.toList.dropWhile (· != 0)).toArray⟩, ?_, ?_⟩
  · apply ByteArray.ext
    apply Array.toList_inj.mp
    rw [ByteArray.toList_data_append, beforeZero, Array.toList_takeWhile,
      List.takeWhile_append_dropWhile]
  · cases hback : bytes.data.toList.dropWhile (· != 0) with
    | nil => rfl
    | cons first rest =>
        have hfirst := List.head?_dropWhile_not (· != 0) bytes.data.toList
        rw [hback] at hfirst
        have hzero : first = 0 := by simpa using hfirst
        rw [hzero]
        rfl

theorem byteAt_ne_zero_of_not_mem {bytes : ByteArray} (h : 0 ∉ bytes.data.toList) {i : Nat}
    (hi : i < bytes.size) : byteAt bytes i ≠ 0 := by
  intro hbyte
  apply h
  rw [← hbyte, byteAt_of_lt hi, ByteArray.getElem_eq_getElem_data]
  exact Array.getElem_mem_toList _

theorem byteAt_beforeZero_ne_zero {bytes : ByteArray} {i : Nat}
    (hi : i < (beforeZero bytes).size) : byteAt (beforeZero bytes) i ≠ 0 := by
  refine byteAt_ne_zero_of_not_mem (fun hmem => ?_) hi
  rw [beforeZero, Array.toList_takeWhile] at hmem
  simpa using List.all_eq_true.mp List.all_takeWhile _ hmem

/-! ### Words -/

theorem toNat_toUInt32 {n : Nat} (h : n < 0x100000000) : n.toUInt32.toNat = n :=
  UInt32.toNat_ofNat_of_lt' h

@[simp] theorem size_word32Bytes (w : UInt32) : (word32Bytes w).size = 4 := rfl

/-- A word is read from four bytes only. -/
theorem word32At_congr {a b : ByteArray} {i j : Nat}
    (h : ∀ k < 4, byteAt a (i + k) = byteAt b (j + k)) : word32At a i = word32At b j := by
  have h0 := h 0 (by omega)
  simp only [Nat.add_zero] at h0
  simp only [word32At, h0, h 1 (by omega), h 2 (by omega), h 3 (by omega)]

/-- The bytes of a word are read as that word. -/
@[simp] theorem word32At_word32Bytes (w : UInt32) : word32At (word32Bytes w) 0 = w := by
  have hbytes : word32At (word32Bytes w) 0 =
      w.toUInt8.toUInt32 ||| ((w >>> 8).toUInt8.toUInt32 <<< 8) |||
        ((w >>> 16).toUInt8.toUInt32 <<< 16) ||| ((w >>> 24).toUInt8.toUInt32 <<< 24) := rfl
  rw [hbytes]
  apply UInt32.toBitVec_inj.mp
  ext i hi
  simp only [UInt32.toBitVec_or, UInt32.toBitVec_shiftLeft, UInt32.toBitVec_shiftRight,
    UInt8.toBitVec_toUInt32, UInt32.toBitVec_toUInt8, UInt32.toBitVec_ofNat, BitVec.getElem_or,
    BitVec.shiftLeft_eq', BitVec.ushiftRight_eq', BitVec.getElem_shiftLeft,
    BitVec.getElem_setWidth, BitVec.getLsbD_setWidth, BitVec.getLsbD_ushiftRight]
  simp only [BitVec.toNat_umod, BitVec.toNat_ofNat, Nat.reducePow, Nat.reduceMod]
  -- Each bit of the word comes from the one byte that covers it.
  have hrange : i < 8 ∨ (8 ≤ i ∧ i < 16) ∨ (16 ≤ i ∧ i < 24) ∨ (24 ≤ i ∧ i < 32) := by omega
  rcases hrange with h | h | h | h <;> grind

/-- The bytes of the word that four bytes make are these bytes. -/
theorem word32Bytes_or (b₀ b₁ b₂ b₃ : UInt8) :
    word32Bytes (b₀.toUInt32 ||| (b₁.toUInt32 <<< 8) ||| (b₂.toUInt32 <<< 16) |||
      (b₃.toUInt32 <<< 24)) = ⟨#[b₀, b₁, b₂, b₃]⟩ := by
  simp only [word32Bytes, ByteArray.mk.injEq, Array.mk.injEq, List.cons.injEq, and_true,
    ← UInt8.toBitVec_inj]
  -- Each bit of a byte comes from the one of the four that was shifted there.
  refine ⟨?_, ?_, ?_, ?_⟩ <;> ext i hi <;> simp <;> grind

/-- Four bytes are those of the word that is read from them. -/
theorem word32Bytes_word32At {bytes : ByteArray} (h : bytes.size = 4) :
    word32Bytes (word32At bytes 0) = bytes := by
  rw [word32At, word32Bytes_or]
  apply ext_byteAt
  · exact h.symm
  · intro i hi
    match i, hi with
    | 0, _ | 1, _ | 2, _ | 3, _ => rfl

/-- A word is read back from between other bytes. -/
theorem word32At_append_word32Bytes (a : ByteArray) (w : UInt32) (b : ByteArray) :
    word32At (a ++ word32Bytes w ++ b) a.size = w := by
  rw [← word32At_word32Bytes w]
  apply word32At_congr
  intro k hk
  rw [ByteArray.append_assoc, byteAt_append_right, byteAt_append_left _ (by simpa using hk),
    Nat.zero_add, word32At_word32Bytes]

theorem size_foldl_word32Bytes (acc : ByteArray) (words : List UInt32) :
    (words.foldl (fun bytes w => bytes ++ word32Bytes w) acc).size =
      acc.size + 4 * words.length := by
  induction words generalizing acc with
  | nil => simp
  | cons w rest ih =>
      rw [List.foldl_cons, ih, ByteArray.size_append, size_word32Bytes, List.length_cons]
      omega

/-- Words written one after another are read back by their places. -/
theorem word32At_foldl_word32Bytes (acc : ByteArray) (words : List UInt32) {k : Nat}
    (h : k < words.length) :
    word32At (words.foldl (fun bytes w => bytes ++ word32Bytes w) acc) (acc.size + 4 * k) =
      words[k] := by
  induction words generalizing acc k with
  | nil => cases h
  | cons w rest ih =>
      rw [List.foldl_cons]
      cases k with
      | zero =>
          rw [foldl_append_bytes]
          exact word32At_append_word32Bytes acc w _
      | succ k =>
          have hplace : acc.size + 4 * (k + 1) = (acc ++ word32Bytes w).size + 4 * k := by
            rw [ByteArray.size_append, size_word32Bytes]
            omega
          rw [hplace, ih (acc ++ word32Bytes w) (by simpa using h)]
          rfl

end WasmTrim
