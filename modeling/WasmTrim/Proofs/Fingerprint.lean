import WasmTrim.Proofs.Memory.Bytes
import WasmTrim.Strip.Policy

/-!
# Fingerprints of names that are nearly alike

Every round of the hash can be undone. The prime is odd, so there is a word that undoes the
multiplication by it, and a byte that was mixed in is taken out by mixing it in again. So what two
byte strings end in together neither brings their hashes together nor keeps them apart, and byte
strings that differ in one byte only have different hashes.

`fingerprints_tell_apart` says so of byte strings and of names, and what it means for the evidence
on which functions are kept.
-/

namespace WasmTrim

variable {hash hash' : UInt32} {b c : UInt8} {p q s first second : ByteArray}
variable {name other : String}

/-! ### Rounds -/

/-- The state before a round, given the state after it and the byte that was mixed in. -/
def fnvUnstep (hash : UInt32) (b : UInt8) : UInt32 :=
  hash * 0x359c449b ^^^ b.toUInt32

theorem fnvUnstep_fnvStep (hash : UInt32) (b : UInt8) : fnvUnstep (fnvStep hash b) b = hash := by
  have hinverse : (0x01000193 * 0x359c449b : UInt32) = 1 := by decide
  rw [fnvUnstep, fnvStep, UInt32.mul_assoc, hinverse, UInt32.mul_one, UInt32.xor_assoc,
    UInt32.xor_self, UInt32.xor_zero]

/-- A round keeps states apart. -/
theorem fnvStep_inj_left : fnvStep hash b = fnvStep hash' b ↔ hash = hash' := by
  constructor
  · intro h
    rw [← fnvUnstep_fnvStep hash b, h, fnvUnstep_fnvStep]
  · rintro rfl
    rfl

/-- A round keeps bytes apart. -/
theorem fnvStep_inj_right : fnvStep hash b = fnvStep hash c ↔ b = c := by
  constructor
  · intro h
    have hmixed : hash ^^^ b.toUInt32 = hash ^^^ c.toUInt32 := by
      have hundone := congrArg (fnvUnstep · 0) h
      have hinverse : (0x01000193 * 0x359c449b : UInt32) = 1 := by decide
      simpa [fnvUnstep, fnvStep, UInt32.mul_assoc, hinverse] using hundone
    exact UInt8.toUInt32_inj.mp ((UInt32.xor_right_inj hash).mp hmixed)
  · rintro rfl
    rfl

/-- Rounds with the same bytes keep states apart. -/
theorem foldl_fnvStep_inj (bytes : List UInt8) :
    bytes.foldl fnvStep hash = bytes.foldl fnvStep hash' ↔ hash = hash' := by
  induction bytes generalizing hash hash' with
  | nil => exact Iff.rfl
  | cons b rest ih => exact ih.trans fnvStep_inj_left

/-! ### Byte strings -/

theorem fnv1a_append (p s : ByteArray) :
    fnv1a (p ++ s) = s.data.toList.foldl fnvStep (fnv1a p) := by
  rw [fnv1a, fnv1a, ByteArray.data_append, Array.foldl_append, Array.foldl_toList]

/-- What two byte strings end in together does not matter. -/
theorem fnv1a_append_inj : fnv1a (p ++ s) = fnv1a (q ++ s) ↔ fnv1a p = fnv1a q := by
  rw [fnv1a_append, fnv1a_append]
  exact foldl_fnvStep_inj s.data.toList

/-- Two byte strings of the same length differ in exactly one byte. -/
def DifferOnce (first second : ByteArray) : Prop :=
  first.size = second.size ∧ ∃ i < first.size, byteAt first i ≠ byteAt second i ∧
    ∀ j < first.size, j ≠ i → byteAt first j = byteAt second j

instance (first second : ByteArray) : Decidable (DifferOnce first second) :=
  inferInstanceAs (Decidable (_ ∧ ∃ i < first.size, _ ∧ ∀ j < first.size, j ≠ i → _))

/-- Parts of byte strings are equal where the byte strings agree. -/
theorem extract_congr {start stop : Nat} (hsize : first.size = second.size)
    (h : ∀ j, start ≤ j → j < stop → j < first.size → byteAt first j = byteAt second j) :
    first.extract start stop = second.extract start stop := by
  apply ext_byteAt
  · rw [ByteArray.size_extract, ByteArray.size_extract, hsize]
  · intro j hj
    rw [ByteArray.size_extract] at hj
    rw [byteAt_extract, byteAt_extract, h (start + j) (by omega) (by omega) (by omega)]

/-- A byte string is what precedes one of its bytes, that byte, and what follows it. -/
theorem eq_around_byte {i : Nat} (h : i < first.size) :
    first = first.extract 0 i ++ ([byteAt first i].toByteArray ++
      first.extract (i + 1) first.size) := by
  rw [byteAt_of_lt h, ← ByteArray.extract_add_one h,
    ← ByteArray.extract_eq_extract_append_extract (i + 1) (by omega) (by omega),
    ← ByteArray.extract_eq_extract_append_extract i (by omega) (by omega),
    ByteArray.extract_zero_size]

/-- Byte strings that differ in one byte are the same in front of it and behind it. -/
theorem DifferOnce.exists_around (h : DifferOnce first second) :
    ∃ front b c back, b ≠ c ∧ first = front ++ ([b].toByteArray ++ back) ∧
      second = front ++ ([c].toByteArray ++ back) := by
  obtain ⟨hsize, i, hi, hne, hsame⟩ := h
  refine ⟨first.extract 0 i, byteAt first i, byteAt second i,
    first.extract (i + 1) first.size, hne, eq_around_byte hi, ?_⟩
  have hfront : first.extract 0 i = second.extract 0 i :=
    extract_congr hsize fun j _ hj hlt => hsame j hlt (by omega)
  have hback : first.extract (i + 1) first.size = second.extract (i + 1) first.size :=
    extract_congr hsize fun j hj _ hlt => hsame j hlt (by omega)
  rw [hfront, hback, hsize]
  exact eq_around_byte (by omega)

/-- Byte strings that differ in one byte have different hashes. -/
theorem DifferOnce.fnv1a_ne (h : DifferOnce first second) : fnv1a first ≠ fnv1a second := by
  obtain ⟨front, b, c, back, hne, rfl, rfl⟩ := h.exists_around
  intro heq
  rw [← ByteArray.append_assoc, ← ByteArray.append_assoc, fnv1a_append_inj, fnv1a_append,
    fnv1a_append, List.data_toByteArray, List.data_toByteArray] at heq
  exact hne (fnvStep_inj_right.mp heq)

/-! ### Names -/

/-- The policy with the evidence that a function of a name ran. -/
def StripPolicy.seen (policy : StripPolicy) (name : String) : StripPolicy :=
  { policy with called := fingerprint name :: policy.called }

/-- Evidence that a function ran says nothing of functions with other fingerprints. -/
theorem StripPolicy.isCandidate_seen (h : fingerprint name ≠ fingerprint other)
    (policy : StripPolicy) : (policy.seen other).isCandidate name = policy.isCandidate name := by
  have hcalled : (policy.seen other).called.contains (fingerprint name) =
      policy.called.contains (fingerprint name) := by
    rw [seen, List.contains_cons, beq_eq_false_iff_ne.mpr h, Bool.false_or]
  rw [isCandidate, hcalled]
  rfl

/-- What two byte strings end in together does not matter to whether their hashes are equal. Byte
strings that differ in one byte have different hashes, so names that do never share evidence. -/
theorem fingerprints_tell_apart :
    (∀ p q s : ByteArray, fnv1a (p ++ s) = fnv1a (q ++ s) ↔ fnv1a p = fnv1a q) ∧
    (∀ first second : ByteArray, DifferOnce first second → fnv1a first ≠ fnv1a second) ∧
    ∀ name other : String, DifferOnce name.toUTF8 other.toUTF8 →
      fingerprint name ≠ fingerprint other ∧
      ∀ policy : StripPolicy, (policy.seen other).isCandidate other = false ∧
        (policy.seen other).isCandidate name = policy.isCandidate name := by
  refine ⟨fun _ _ _ => fnv1a_append_inj, fun _ _ h => h.fnv1a_ne, ?_⟩
  intro name other h
  have hne : fingerprint name ≠ fingerprint other := h.fnv1a_ne
  refine ⟨hne, fun policy => ⟨?_, StripPolicy.isCandidate_seen hne policy⟩⟩
  simp [StripPolicy.seen, StripPolicy.isCandidate]

/-- Two functions of the runtime whose names one digit tells apart. -/
theorem numbered_names_tell_apart :
    DifferOnce "ucs2lib_find".toUTF8 "ucs4lib_find".toUTF8 ∧
      fingerprint "ucs2lib_find" ≠ fingerprint "ucs4lib_find" := by
  have h : DifferOnce "ucs2lib_find".toUTF8 "ucs4lib_find".toUTF8 := by decide +kernel
  exact ⟨h, (fingerprints_tell_apart.2.2 _ _ h).1⟩

end WasmTrim
