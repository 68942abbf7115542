import WasmTrim.Text.Utf8

/-!
# Text that survives being read as bytes

Reading the bytes of a text gives the text back: no sequence of a well-formed text is taken for a
broken one. `Utf8.decodeLossy_toUTF8` says so of whole texts and is proved character by character,
by how many bytes a character takes.

## Implementation notes

The bytes of a character are computed from its code point by divisions. So are the bounds that the
reader puts on the byte behind the leading one; that these never refuse a character is where it
counts that code points are bounded and leave out the surrogates.
-/

namespace WasmTrim.Utf8

variable {read : List Char} {rest tail : List UInt8} {b low high : UInt8} {value size n v : Nat}

theorem toNat_ofNat_of_lt (h : n < 256) : (UInt8.ofNat n).toNat = n :=
  UInt8.toNat_ofNat_of_lt' h

/-! ### The bytes of one sequence -/

/-- All bytes that must follow are there: the code point that they complete, and what is left. -/
def Takes (value : Nat) (low high : UInt8) (size : Nat) (tail : List UInt8) (found : Nat)
    (rest : List UInt8) : Prop :=
  (takeTail value low high size tail).1 = some found ∧
    (takeTail value low high size tail).2.val = rest

theorem Takes.done (value : Nat) (low high : UInt8) (rest : List UInt8) :
    Takes value low high 0 rest value rest :=
  ⟨rfl, rfl⟩

/-- The byte behind the leading one must lie in the range given, and the others in the
common one. -/
theorem Takes.cons {found : Nat} (hlow : low ≤ b) (hhigh : b ≤ high)
    (h : Takes (value * 64 + b.toNat % 64) 0x80 0xBF size tail found rest) :
    Takes value low high (size + 1) (b :: tail) found rest := by
  rw [Takes, takeTail, if_pos ⟨hlow, hhigh⟩]
  exact h

/-- Six bits of a code point are read back from their byte. -/
theorem Takes.bits {found : Nat} (hlow : low ≤ UInt8.ofNat (v % 64 + 128))
    (hhigh : UInt8.ofNat (v % 64 + 128) ≤ high)
    (h : Takes (value * 64 + v % 64) 0x80 0xBF size tail found rest) :
    Takes value low high (size + 1) (UInt8.ofNat (v % 64 + 128) :: tail) found rest := by
  have hbyte : (UInt8.ofNat (v % 64 + 128)).toNat = v % 64 + 128 := toNat_ofNat_of_lt (by omega)
  have hbits : (v % 64 + 128) % 64 = v % 64 := by omega
  apply Takes.cons hlow hhigh
  rwa [hbyte, hbits]

/-- The bytes that carry six bits each lie in the common range. -/
theorem Takes.continuation {found : Nat}
    (h : Takes (value * 64 + v % 64) 0x80 0xBF size tail found rest) :
    Takes value 0x80 0xBF (size + 1) (UInt8.ofNat (v % 64 + 128) :: tail) found rest := by
  have hbyte : (UInt8.ofNat (v % 64 + 128)).toNat = v % 64 + 128 := toNat_ofNat_of_lt (by omega)
  apply Takes.bits _ _ h
  · rw [UInt8.le_iff_toNat_le, hbyte]
    exact Nat.le_add_left ..
  · rw [UInt8.le_iff_toNat_le, hbyte]
    change _ ≤ 191
    omega

/-- A sequence whose bytes are all there is read as one character. -/
theorem lossyFrom_of_takes (hlead : 0x80 ≤ b) (htail : tail? b = some (size, low, high))
    (htakes : Takes (leadBits b size) low high size tail value rest) :
    lossyFrom read (b :: tail) = lossyFrom (Char.ofNat value :: read) rest := by
  obtain ⟨hvalue, hrest⟩ := htakes
  rw [lossyFrom, if_neg (UInt8.not_lt.mpr hlead), htail]
  cases htake : takeTail (leadBits b size) low high size tail with
  | mk found left =>
      rw [htake] at hvalue hrest
      subst hvalue hrest
      simp only [htake]

/-- The bits of a leading byte that count are those that were added to its mark. -/
theorem leadBits_ofNat {mark bits : Nat} (hmark : mark % (1 <<< (6 - size)) = 0)
    (hbits : bits < 1 <<< (6 - size)) (hlt : bits + mark < 256) :
    leadBits (UInt8.ofNat (bits + mark)) size = bits := by
  rw [leadBits, toNat_ofNat_of_lt hlt, Nat.add_mod, hmark, Nat.add_zero, Nat.mod_mod,
    Nat.mod_eq_of_lt hbits]

/-! ### One character -/

/-- A leading byte is not taken for a character of its own. -/
theorem le_lead (h : 128 ≤ n) (hlt : n < 256) : 0x80 ≤ UInt8.ofNat n := by
  rw [UInt8.le_iff_toNat_le, toNat_ofNat_of_lt hlt]
  exact h

/-- No character of two bytes is an overlong form of one. -/
theorem tail?_one (h : 0x80 ≤ v) (hle : v ≤ 0x7FF) :
    tail? (UInt8.ofNat (v / 64 % 32 + 192)) = some (1, 0x80, 0xBF) := by
  have hlead : (UInt8.ofNat (v / 64 % 32 + 192)).toNat = v / 64 % 32 + 192 :=
    toNat_ofNat_of_lt (by omega)
  simp only [tail?, UInt8.le_iff_toNat_le, hlead, UInt8.reduceToNat]
  rw [if_pos (by omega)]

/-- The byte behind the leading one of three is accepted: no character of three bytes is an overlong
form of a shorter one, and none is a surrogate. -/
theorem exists_tail?_two (h : 0x800 ≤ v) (hle : v ≤ 0xFFFF) (hvalid : v.isValidChar) :
    ∃ low high, tail? (UInt8.ofNat (v / 4096 % 16 + 224)) = some (2, low, high) ∧
      low ≤ UInt8.ofNat (v / 64 % 64 + 128) ∧ UInt8.ofNat (v / 64 % 64 + 128) ≤ high := by
  have hlead : (UInt8.ofNat (v / 4096 % 16 + 224)).toNat = v / 4096 % 16 + 224 :=
    toNat_ofNat_of_lt (by omega)
  have hnext : (UInt8.ofNat (v / 64 % 64 + 128)).toNat = v / 64 % 64 + 128 :=
    toNat_ofNat_of_lt (by omega)
  simp only [tail?, UInt8.le_iff_toNat_le, ← UInt8.toNat_inj, hlead, hnext, UInt8.reduceToNat]
  simp only [Nat.isValidChar] at hvalid
  rw [if_neg (by omega)]
  by_cases hlong : v / 4096 = 0
  · rw [if_pos (by omega)]
    refine ⟨_, _, rfl, ?_⟩
    simp only [UInt8.reduceToNat]
    omega
  by_cases hsurrogate : v / 4096 = 13
  · rw [if_neg (by omega), if_pos (by omega)]
    refine ⟨_, _, rfl, ?_⟩
    simp only [UInt8.reduceToNat]
    omega
  · rw [if_neg (by omega), if_neg (by omega), if_pos (by omega)]
    refine ⟨_, _, rfl, ?_⟩
    simp only [UInt8.reduceToNat]
    omega

/-- The byte behind the leading one of four is accepted: no character of four bytes is an overlong
form of a shorter one, and code points are bounded. -/
theorem exists_tail?_three (h : 0x10000 ≤ v) (hvalid : v.isValidChar) :
    ∃ low high, tail? (UInt8.ofNat (v / 262144 % 8 + 240)) = some (3, low, high) ∧
      low ≤ UInt8.ofNat (v / 4096 % 64 + 128) ∧ UInt8.ofNat (v / 4096 % 64 + 128) ≤ high := by
  have hlead : (UInt8.ofNat (v / 262144 % 8 + 240)).toNat = v / 262144 % 8 + 240 :=
    toNat_ofNat_of_lt (by omega)
  have hnext : (UInt8.ofNat (v / 4096 % 64 + 128)).toNat = v / 4096 % 64 + 128 :=
    toNat_ofNat_of_lt (by omega)
  simp only [tail?, UInt8.le_iff_toNat_le, ← UInt8.toNat_inj, hlead, hnext, UInt8.reduceToNat]
  simp only [Nat.isValidChar] at hvalid
  rw [if_neg (by omega), if_neg (by omega), if_neg (by omega), if_neg (by omega)]
  by_cases hlong : v / 262144 = 0
  · rw [if_pos (by omega)]
    refine ⟨_, _, rfl, ?_⟩
    simp only [UInt8.reduceToNat]
    omega
  by_cases hlast : v / 262144 = 4
  · rw [if_neg (by omega), if_neg (by omega), if_pos (by omega)]
    refine ⟨_, _, rfl, ?_⟩
    simp only [UInt8.reduceToNat]
    omega
  · rw [if_neg (by omega), if_pos (by omega)]
    refine ⟨_, _, rfl, ?_⟩
    simp only [UInt8.reduceToNat]
    omega

/-- The bytes of a character are read as that character. -/
theorem lossyFrom_utf8EncodeChar (read : List Char) (c : Char) (rest : List UInt8) :
    lossyFrom read (String.utf8EncodeChar c ++ rest) = lossyFrom (c :: read) rest := by
  have hchar : Char.ofNat c.val.toNat = c := Char.ofNat_toNat c
  have hvalid : c.val.toNat.isValidChar := c.valid
  rw [String.utf8EncodeChar]
  generalize c.val.toNat = v at hchar hvalid
  split
  · next hle =>
    have hbyte : (UInt8.ofNat v).toNat = v := toNat_ofNat_of_lt (by omega)
    rw [List.singleton_append, lossyFrom, if_pos, hbyte, hchar]
    rw [UInt8.lt_iff_toNat_lt, hbyte]
    exact Nat.lt_succ_of_le hle
  split
  · next hgt hle =>
    have hbits : leadBits (UInt8.ofNat (v / 64 % 32 + 192)) 1 = v / 64 % 32 :=
      leadBits_ofNat (by decide) (Nat.mod_lt _ (by decide)) (by omega)
    have htotal : v / 64 % 32 * 64 + v % 64 = v := by omega
    rw [← hchar]
    apply lossyFrom_of_takes (le_lead (by omega) (by omega)) (tail?_one (by omega) hle)
    rw [hbits]
    apply Takes.continuation
    rw [htotal]
    exact Takes.done ..
  split
  · next hgt hle =>
    obtain ⟨low, high, htail, hlow, hhigh⟩ := exists_tail?_two (by omega) hle hvalid
    have hbits : leadBits (UInt8.ofNat (v / 4096 % 16 + 224)) 2 = v / 4096 % 16 :=
      leadBits_ofNat (by decide) (Nat.mod_lt _ (by decide)) (by omega)
    have htotal : (v / 4096 % 16 * 64 + v / 64 % 64) * 64 + v % 64 = v := by omega
    rw [← hchar]
    apply lossyFrom_of_takes (le_lead (by omega) (by omega)) htail
    rw [hbits]
    apply Takes.bits hlow hhigh
    apply Takes.continuation
    rw [htotal]
    exact Takes.done ..
  · next hgt =>
    obtain ⟨low, high, htail, hlow, hhigh⟩ := exists_tail?_three (by omega) hvalid
    have hbits : leadBits (UInt8.ofNat (v / 262144 % 8 + 240)) 3 = v / 262144 % 8 :=
      leadBits_ofNat (by decide) (Nat.mod_lt _ (by decide)) (by omega)
    have htotal : ((v / 262144 % 8 * 64 + v / 4096 % 64) * 64 + v / 64 % 64) * 64 + v % 64 = v := by
      simp only [Nat.isValidChar] at hvalid
      omega
    rw [← hchar]
    apply lossyFrom_of_takes (le_lead (by omega) (by omega)) htail
    rw [hbits]
    apply Takes.bits hlow hhigh
    apply Takes.continuation
    apply Takes.continuation
    rw [htotal]
    exact Takes.done ..

/-! ### Texts -/

/-- The bytes of characters are read as those characters, one after another. -/
theorem lossyFrom_flatMap (read cs : List Char) :
    lossyFrom read (cs.flatMap String.utf8EncodeChar) = read.reverse ++ cs := by
  induction cs generalizing read with
  | nil => rw [List.flatMap_nil, lossyFrom, List.append_nil]
  | cons c cs ih =>
      rw [List.flatMap_cons, lossyFrom_utf8EncodeChar, ih, List.reverse_cons, List.append_assoc,
        List.singleton_append]

/-- The bytes of a text are read as that text. -/
theorem decodeLossy_toUTF8 (s : String) : decodeLossy s.toUTF8 = s := by
  have hbytes : s.toUTF8.data.toList = s.toList.flatMap String.utf8EncodeChar := by
    rw [String.toUTF8_eq_toByteArray, ← String.utf8Encode_toList, List.utf8Encode]
    simp
  rw [decodeLossy, hbytes, lossyFrom_flatMap, List.reverse_nil, List.nil_append, String.ofList_toList]

end WasmTrim.Utf8
