import WasmTrim.Sexpr.Literal

/-!
# Quoted strings that are read back

Every byte string is read back from the quoted string that writes it. The reader takes the
characters of one byte at a time, whatever follows them.
-/

namespace WasmTrim

theorem hexDigit?_digitChar {n : Nat} (h : n < 16) : hexDigit? (Nat.digitChar n) = some n := by
  revert n
  decide

namespace Literal

variable (out : ByteArray) {b : UInt8} {c d : Char} (rest : List Char)

theorem decodeInside_short (h : shortEscape? c = some b) :
    decodeInside out ('\\' :: c :: rest) = decodeInside (out.push b) rest := by
  rw [decodeInside.eq_def]
  simp only [h]

theorem decodeInside_hex (hshort : shortEscape? c = none) (hhex : hexEscape? c d = some b) :
    decodeInside out ('\\' :: c :: d :: rest) = decodeInside (out.push b) rest := by
  rw [decodeInside.eq_def]
  simp only [hshort, hhex]

theorem decodeInside_plain (h : c ≠ '\\') :
    decodeInside out (c :: rest) = decodeInside (pushChar out c) rest := by
  rw [decodeInside]
  rintro _ _ hc _
  exact h hc

theorem shortEscape?_digitChar {n : Nat} (h : n < 16) : shortEscape? (Nat.digitChar n) = none := by
  revert n
  decide

theorem hexEscape?_hexByte (b : UInt8) :
    hexEscape? (Nat.digitChar (b.toNat / 16)) (Nat.digitChar (b.toNat % 16)) = some b := by
  have hb := b.toNat_lt
  have hvalue : b.toNat / 16 * 16 + b.toNat % 16 = b.toNat := by omega
  rw [hexEscape?, hexDigit?_digitChar (by omega), hexDigit?_digitChar (by omega)]
  rw [Option.bind_eq_bind, Option.bind_some, Option.bind_some, hvalue]
  exact congrArg some UInt8.ofNat_toNat

/-- A character of the printable range stands for the one byte that is its number. -/
theorem pushChar_ofNat (h : b.toNat < 128) : pushChar out (Char.ofNat b.toNat) = out.push b := by
  have hencode : ∀ n < 128, String.utf8EncodeChar (Char.ofNat n) = [n.toUInt8] := by decide
  rw [pushChar, hencode b.toNat h]
  exact congrArg out.push UInt8.ofNat_toNat

theorem ofNat_ne_backslash (hne : b ≠ 92) (h : b.toNat < 128) : Char.ofNat b.toNat ≠ '\\' := by
  have hnat : ∀ n < 128, n ≠ 92 → Char.ofNat n ≠ '\\' := by decide
  apply hnat b.toNat h
  intro heq
  exact hne (UInt8.toNat_inj.mp heq)

/-- The characters that write a byte are read as that byte, whatever follows them. -/
theorem decodeInside_encodeByte (b : UInt8) :
    decodeInside out (encodeByte b ++ rest) = decodeInside (out.push b) rest := by
  rw [encodeByte]
  split
  · next hquote =>
    subst hquote
    exact decodeInside_short out rest rfl
  split
  · next hquote =>
    subst hquote
    exact decodeInside_short out rest rfl
  split
  · next hslash =>
    subst hslash
    exact decodeInside_short out rest rfl
  · next hslash =>
    split
    · next hprintable =>
      have hascii : b.toNat < 128 := by
        have h := UInt8.le_iff_toNat_le.mp hprintable.2
        simp only [UInt8.reduceToNat] at h
        omega
      rw [List.singleton_append, decodeInside_plain out rest (ofNat_ne_backslash hslash hascii),
        pushChar_ofNat out hascii]
    · have hb := b.toNat_lt
      exact decodeInside_hex out rest (shortEscape?_digitChar (by omega)) (hexEscape?_hexByte b)

theorem decodeInside_flatMap_encodeByte (bytes : List UInt8) :
    decodeInside out (bytes.flatMap encodeByte) = out ++ bytes.toByteArray := by
  induction bytes generalizing out with
  | nil => simp [decodeInside]
  | cons b rest ih =>
      rw [List.flatMap_cons, decodeInside_encodeByte, ih, ← ByteArray.append_toByteArray_singleton,
        ByteArray.append_assoc, ← List.toByteArray_append, List.singleton_append]

/-- What stands between the quotes of a quoted string that was written. -/
theorem inside?_encode (bytes : ByteArray) :
    inside? (encode bytes) = some (bytes.data.toList.flatMap encodeByte) := by
  rw [inside?, encode, String.toList_ofList, List.cons_append]
  simp

/-- Bytes are read back from the quoted string that writes them. -/
theorem decode_encode (bytes : ByteArray) : decode (encode bytes) = .ok bytes := by
  have hbytes : bytes.data.toList.toByteArray = bytes := by
    apply ByteArray.ext
    simp
  rw [decode, inside?_encode]
  simp only [decodeInside_flatMap_encodeByte, ByteArray.empty_append, hbytes]

/-! ### Text without escapes -/

theorem pushChar_eq (c : Char) : pushChar out c = out ++ (String.utf8EncodeChar c).toByteArray := by
  rw [pushChar]
  generalize String.utf8EncodeChar c = bytes
  induction bytes generalizing out with
  | nil => exact ByteArray.append_empty.symm
  | cons b rest ih =>
      rw [List.foldl_cons, ih, ← ByteArray.append_toByteArray_singleton, ByteArray.append_assoc,
        ← List.toByteArray_append, List.singleton_append]

/-- Characters that escape nothing stand for their UTF-8 bytes. -/
theorem decodeInside_of_plain {cs : List Char} (h : '\\' ∉ cs) :
    decodeInside out cs = out ++ cs.utf8Encode := by
  induction cs generalizing out with
  | nil => simp [decodeInside]
  | cons c rest ih =>
      rw [List.mem_cons, not_or] at h
      rw [decodeInside_plain out rest (Ne.symm h.1), ih _ h.2, pushChar_eq, ByteArray.append_assoc,
        List.utf8Encode_cons, List.utf8Encode_singleton]

/-- What stands between two quotes is read as the inside of a quoted string, whatever it is. -/
theorem decode_quote (s : String) :
    decode ("\"" ++ s ++ "\"") = .ok (decodeInside .empty s.toList) := by
  have hinside : inside? ("\"" ++ s ++ "\"") = some s.toList := by
    rw [inside?, String.toList_append, String.toList_append]
    simp
  rw [decode, hinside]

/-- Text without backslashes denotes its own bytes. -/
theorem decodeInside_toList {s : String} (h : '\\' ∉ s.toList) :
    decodeInside .empty s.toList = s.toUTF8 := by
  rw [decodeInside_of_plain _ h, ByteArray.empty_append, ← String.toByteArray_ofList,
    String.ofList_toList]
  rfl

end Literal

end WasmTrim
