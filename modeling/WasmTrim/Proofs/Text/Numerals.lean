import WasmTrim.Machine.Constant

/-!
# Numerals that are read back

A word written in decimal is read as that word, both where the text form of a module is searched for
constants and where it is assembled.
-/

namespace WasmTrim

variable {cs : List Char}

theorem decimalDigit?_of_isDigit {c : Char} (h : c.isDigit = true) :
    decimalDigit? c = some (c.toNat - '0'.toNat) := by
  simp only [Char.isDigit, ge_iff_le, Bool.and_eq_true, decide_eq_true_eq] at h
  exact if_pos h

/-- A run of decimal digits continues the value before it. -/
theorem digitsFrom?_of_isDigit (value : Nat) (h : ∀ c ∈ cs, c.isDigit = true) :
    digitsFrom? 10 decimalDigit? value cs = some (Nat.ofDigitChars 10 cs value) := by
  induction cs generalizing value with
  | nil => rfl
  | cons c rest ih =>
      rw [digitsFrom?, decimalDigit?_of_isDigit (h c (List.mem_cons_self ..)),
        Nat.ofDigitChars_cons, Nat.mul_comm]
      exact ih _ fun d hd => h d (List.mem_cons_of_mem c hd)

/-- Numerals in decimal start with a digit, so neither with a sign nor with the mark of hexadecimal
digits, and hold no underscore. -/
structure IsDecimal (cs : List Char) : Prop where
  /-- There is a digit. -/
  ne_nil : cs ≠ []
  /-- There is nothing else. -/
  isDigit : ∀ c ∈ cs, c.isDigit = true

theorem isDecimal_toDigits (n : Nat) : IsDecimal (Nat.toDigits 10 n) where
  ne_nil := Nat.toDigits_ne_nil
  isDigit c hc := Nat.isDigit_of_mem_toDigits (by omega) (by omega) hc

namespace IsDecimal

theorem filter_underscore (h : IsDecimal cs) : cs.filter (· != '_') = cs := by
  apply List.filter_eq_self.mpr
  intro c hc
  have hdigit := h.isDigit c hc
  by_cases hunder : c = '_'
  · subst hunder
    exact absurd hdigit (by decide)
  · simpa using hunder

theorem not_mem {c : Char} (h : IsDecimal cs) (hc : c.isDigit = false) : c ∉ cs := by
  intro hmem
  rw [h.isDigit c hmem] at hc
  cases hc

theorem unsigned?_eq (h : IsDecimal cs) (base : Nat) (digit? : Char → Option Nat) :
    unsigned? base digit? cs = digits? base digit? cs := by
  rw [unsigned?]
  rintro rest rfl
  exact h.not_mem (c := '+') (by decide) (List.mem_cons_self ..)

theorem signed?_eq (h : IsDecimal cs) :
    signed? cs = (digits? 10 decimalDigit? cs).map fun n : Nat => (n : Int) := by
  rw [signed?, h.unsigned?_eq]
  · cases digits? 10 decimalDigit? cs <;> rfl
  · rintro rest rfl
    exact h.not_mem (c := '-') (by decide) (List.mem_cons_self ..)

end IsDecimal

/-- A natural number is the value of its decimal digits. -/
theorem digits?_toDigits (n : Nat) : digits? 10 decimalDigit? (Nat.toDigits 10 n) = some n := by
  have h := isDecimal_toDigits n
  have hvalue := digitsFrom?_of_isDigit 0 h.isDigit
  rw [Nat.ofDigitChars_ten_toDigits] at hvalue
  rw [digits?]
  · exact hvalue
  · exact h.ne_nil

theorem toNat_emod_size (w : UInt32) : ((w.toNat : Int) % UInt32.size).toNat = w.toNat := by
  rw [← Int.natCast_emod, Int.toNat_natCast]
  exact Nat.mod_eq_of_lt w.toNat_lt

/-- The literal of a word in decimal denotes that word. -/
theorem word32?_toString (w : UInt32) : word32? (toString w.toNat) = some w := by
  have h := isDecimal_toDigits w.toNat
  have hw : w.toNat < UInt32.size := w.toNat_lt
  have hrange : -0x80000000 ≤ (w.toNat : Int) ∧ (w.toNat : Int) < UInt32.size := by omega
  rw [word32?, Nat.toString_eq_repr, Nat.toList_repr, h.filter_underscore]
  split
  · next hhex =>
    exact absurd (hhex ▸ List.mem_cons_of_mem _ (List.mem_cons_self ..))
      (h.not_mem (c := 'x') (by decide))
  · rw [h.signed?_eq, digits?_toDigits, Option.map_some, Option.bind_eq_bind, Option.bind_some,
      if_pos hrange, toNat_emod_size]
    simp

namespace Constant

theorem separates_of_isDecimal (h : IsDecimal cs) : separates false cs = true := by
  have hrest : ∀ rest : List Char, (∀ c ∈ rest, c.isDigit = true) → separates true rest = true := by
    intro rest hdigits
    induction rest with
    | nil => rfl
    | cons c rest ih =>
        rw [separates]
        · exact ih fun d hd => hdigits d (List.mem_cons_of_mem c hd)
        · rintro rfl
          exact absurd (hdigits '_' (List.mem_cons_self ..)) (by decide)
  cases cs with
  | nil => exact absurd rfl h.ne_nil
  | cons c rest =>
      rw [separates]
      · exact hrest rest fun d hd => h.isDigit d (List.mem_cons_of_mem c hd)
      · rintro rfl
        exact h.not_mem (c := '_') (by decide) (List.mem_cons_self ..)

theorem int?_toString (n : Nat) : int? (toString n) = some (n : Int) := by
  have h := isDecimal_toDigits n
  have hunsigned : unsigned? (Nat.toDigits 10 n) = some n := by
    rw [unsigned?, magnitude?, if_pos (separates_of_isDecimal h), h.filter_underscore,
      digits?_toDigits]
    rintro rest hhex
    exact h.not_mem (c := 'x') (by decide)
      (hhex ▸ List.mem_cons_of_mem _ (List.mem_cons_self ..))
  rw [int?, Nat.toString_eq_repr, Nat.toList_repr]
  split
  · next hsign =>
    exact absurd (hsign ▸ List.mem_cons_self ..) (h.not_mem (c := '-') (by decide))
  · next hsign =>
    exact absurd (hsign ▸ List.mem_cons_self ..) (h.not_mem (c := '+') (by decide))
  · rw [hunsigned]
    rfl

theorem word?_toString (w : UInt32) : word? 32 (toString w.toNat) = some w.toNat := by
  have hcount : wordCount 32 = UInt32.size := rfl
  have hw : w.toNat < UInt32.size := w.toNat_lt
  have hrange : -(wordCount (32 - 1) : Int) ≤ w.toNat ∧ (w.toNat : Int) < UInt32.size := by omega
  rw [word?, int?_toString, Option.bind_eq_bind, Option.bind_some, hcount, if_pos hrange,
    toNat_emod_size]

/-- The constant of a word in decimal is assembled to that word. -/
theorem value?_toString (w : UInt32) : value? .i32 (toString w.toNat) = some (.i32 w) := by
  rw [value?, word?_toString]
  simp

end Constant

end WasmTrim
