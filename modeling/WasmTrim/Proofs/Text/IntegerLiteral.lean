import Mathlib.Data.List.Induction
import WasmTrim.Text.Digits

/-!
# Integer literals and what is read of them

An integer literal is an optional sign before decimal digits, or before `0x` and hexadecimal digits,
with single underscores between digits. `word32?` reads every such literal whose value fits, unless
a sign stands before `0x`; it also takes underscores at other places and a plus sign behind `0x`.
-/

namespace WasmTrim

variable {base : Nat} {digit? : Char → Option Nat} {cs : List Char} {c : Char} {n : Nat} {i : Int}
variable {literal : String} {w : UInt32}

/-! ### Runs of digits -/

/-- Digits of a base, and their value. -/
inductive DigitRun (base : Nat) (digit? : Char → Option Nat) : List Char → Nat → Prop
  | single {c : Char} {d : Nat} (h : digit? c = some d) : DigitRun base digit? [c] d
  | append {cs : List Char} {c : Char} {n d : Nat} (hcs : DigitRun base digit? cs n)
      (h : digit? c = some d) : DigitRun base digit? (cs ++ [c]) (n * base + d)

/-- Digits with single underscores between them, and their value. -/
inductive Numeral (base : Nat) (digit? : Char → Option Nat) : List Char → Nat → Prop
  | single {c : Char} {d : Nat} (h : digit? c = some d) : Numeral base digit? [c] d
  | append {cs : List Char} {c : Char} {n d : Nat} (hcs : Numeral base digit? cs n)
      (h : digit? c = some d) : Numeral base digit? (cs ++ [c]) (n * base + d)
  | separated {cs : List Char} {c : Char} {n d : Nat} (hcs : Numeral base digit? cs n)
      (h : digit? c = some d) : Numeral base digit? (cs ++ ['_', c]) (n * base + d)

theorem DigitRun.ne_nil (h : DigitRun base digit? cs n) : cs ≠ [] := by
  cases h with
  | single => exact List.cons_ne_nil _ _
  | append => exact List.append_ne_nil_of_right_ne_nil _ (List.cons_ne_nil _ _)

theorem DigitRun.isSome (h : DigitRun base digit? cs n) :
    ∀ c ∈ cs, (digit? c).isSome = true := by
  induction h with
  | single h => exact List.forall_mem_singleton.mpr (by rw [h]; rfl)
  | append _ h ih =>
      exact List.forall_mem_append.mpr ⟨ih, List.forall_mem_singleton.mpr (by rw [h]; rfl)⟩

theorem DigitRun.not_mem (h : DigitRun base digit? cs n) (hc : digit? c = none) : c ∉ cs := by
  intro hmem
  have hsome := h.isSome c hmem
  rw [hc] at hsome
  cases hsome

theorem digitsFrom?_append_singleton (value : Nat) (cs : List Char) (c : Char) :
    digitsFrom? base digit? value (cs ++ [c]) =
      (digitsFrom? base digit? value cs).bind fun n => (digit? c).map (n * base + ·) := by
  induction cs generalizing value with
  | nil =>
      rw [List.nil_append, digitsFrom?, digitsFrom?, Option.bind_some]
      cases digit? c <;> rfl
  | cons first rest ih =>
      rw [List.cons_append, digitsFrom?, digitsFrom?]
      cases digit? first with
      | none => rfl
      | some d => exact ih (value * base + d)

theorem digits?_of_ne_nil (h : cs ≠ []) :
    digits? base digit? cs = digitsFrom? base digit? 0 cs := by
  cases cs with
  | nil => exact absurd rfl h
  | cons => rfl

/-- What is read of digits is their value. -/
theorem digits?_eq_some_iff : digits? base digit? cs = some n ↔ DigitRun base digit? cs n := by
  constructor
  · intro h
    induction cs using List.reverseRecOn generalizing n with
    | nil => cases h
    | append_singleton cs c ih =>
        rw [digits?_of_ne_nil (List.append_ne_nil_of_right_ne_nil _ (List.cons_ne_nil _ _)),
          digitsFrom?_append_singleton] at h
        obtain ⟨m, hm, hc⟩ := Option.bind_eq_some_iff.mp h
        obtain ⟨d, hd, rfl⟩ := Option.map_eq_some_iff.mp hc
        by_cases hnil : cs = []
        · subst hnil
          cases hm
          rw [Nat.zero_mul, Nat.zero_add]
          exact .single hd
        · rw [← digits?_of_ne_nil hnil] at hm
          exact .append (ih hm) hd
  · intro h
    induction h with
    | @single c d h =>
        rw [digits?, digitsFrom?, h, Nat.zero_mul]
        · exact congrArg some (Nat.zero_add d)
        · exact List.cons_ne_nil _ _
    | @append cs c n d hcs h ih =>
        rw [digits?_of_ne_nil hcs.ne_nil] at ih
        rw [digits?_of_ne_nil (List.append_ne_nil_of_right_ne_nil _ (List.cons_ne_nil _ _)),
          digitsFrom?_append_singleton, ih, h]
        rfl

/-- Without its underscores, a numeral is a run of digits of the same value. -/
theorem Numeral.digitRun (hunder : digit? '_' = none) (h : Numeral base digit? cs n) :
    DigitRun base digit? (cs.filter (· != '_')) n := by
  have hkeep : ∀ {c d}, digit? c = some d → [c].filter (· != '_') = [c] := by
    intro c d hd
    apply List.filter_cons_of_pos
    rw [bne_iff_ne]
    rintro rfl
    rw [hunder] at hd
    cases hd
  induction h with
  | single h =>
      rw [hkeep h]
      exact .single h
  | append _ h ih =>
      rw [List.filter_append, hkeep h]
      exact .append ih h
  | @separated cs c n d _ h ih =>
      have hskip : ['_', c].filter (· != '_') = [c] :=
        (List.filter_cons_of_neg (by decide)).trans (hkeep h)
      rw [List.filter_append, hskip]
      exact .append ih h

/-! ### Literals -/

/-- An integer literal without a sign, and its value. -/
inductive Magnitude : List Char → Nat → Prop
  | decimal {cs : List Char} {n : Nat} (h : Numeral 10 decimalDigit? cs n) : Magnitude cs n
  | hexadecimal {cs : List Char} {n : Nat} (h : Numeral 16 hexDigit? cs n) :
      Magnitude ('0' :: 'x' :: cs) n

/-- An integer literal and its value. -/
inductive IntegerLiteral : List Char → Int → Prop
  | unsigned {cs : List Char} {n : Nat} (h : Magnitude cs n) : IntegerLiteral cs n
  | plus {cs : List Char} {n : Nat} (h : Magnitude cs n) : IntegerLiteral ('+' :: cs) n
  | minus {cs : List Char} {n : Nat} (h : Magnitude cs n) : IntegerLiteral ('-' :: cs) (-n)

/-- A sign in front of hexadecimal digits. -/
inductive SignedHexadecimal : List Char → Prop
  | plus (cs : List Char) : SignedHexadecimal ('+' :: '0' :: 'x' :: cs)
  | minus (cs : List Char) : SignedHexadecimal ('-' :: '0' :: 'x' :: cs)

/-- Decimal digits with an optional sign, and their value. -/
inductive SignedRun : List Char → Int → Prop
  | unsigned {cs : List Char} {n : Nat} (h : DigitRun 10 decimalDigit? cs n) : SignedRun cs n
  | plus {cs : List Char} {n : Nat} (h : DigitRun 10 decimalDigit? cs n) : SignedRun ('+' :: cs) n
  | minus {cs : List Char} {n : Nat} (h : DigitRun 10 decimalDigit? cs n) :
      SignedRun ('-' :: cs) (-n)

/-- The characters, apart from underscores, of which an integer is read. -/
inductive ReadsInteger : List Char → Int → Prop
  | decimal {cs : List Char} {i : Int} (h : SignedRun cs i) : ReadsInteger cs i
  | hexadecimal {cs : List Char} {n : Nat} (h : DigitRun 16 hexDigit? cs n) :
      ReadsInteger ('0' :: 'x' :: cs) n
  | hexadecimalPlus {cs : List Char} {n : Nat} (h : DigitRun 16 hexDigit? cs n) :
      ReadsInteger ('0' :: 'x' :: '+' :: cs) n

/-- Decimal digits do not go on with the mark of hexadecimal ones. -/
theorem DigitRun.not_hexadecimal (h : DigitRun 10 decimalDigit? ('0' :: 'x' :: cs) n) : False :=
  h.not_mem (c := 'x') (by decide) (List.mem_cons_of_mem _ (List.mem_cons_self ..))

theorem signed?_eq_some_iff : signed? cs = some i ↔ SignedRun cs i := by
  constructor
  · intro h
    rw [signed?.eq_def] at h
    split at h
    · obtain ⟨_, hcast, rfl⟩ := Option.map_eq_some_iff.mp h
      obtain ⟨n, hn, ⟨⟩⟩ := Option.bind_eq_some_iff.mp hcast
      exact .minus (digits?_eq_some_iff.mp hn)
    · obtain ⟨_, hcast, rfl⟩ := Option.map_eq_some_iff.mp h
      obtain ⟨n, hn, ⟨⟩⟩ := Option.bind_eq_some_iff.mp hcast
      rw [unsigned?.eq_def] at hn
      split at hn
      · exact .plus (digits?_eq_some_iff.mp hn)
      · exact .unsigned (digits?_eq_some_iff.mp hn)
  · intro h
    cases h with
    | unsigned h =>
        have hminus := h.not_mem (c := '-') (by decide)
        have hplus := h.not_mem (c := '+') (by decide)
        rw [signed?.eq_def]
        split
        · exact absurd (List.mem_cons_self ..) hminus
        · rw [unsigned?.eq_def]
          split
          · exact absurd (List.mem_cons_self ..) hplus
          · rw [digits?_eq_some_iff.mpr h]
            rfl
    | plus h =>
        rw [signed?, unsigned?, digits?_eq_some_iff.mpr h]
        · rfl
        · rintro _ ⟨⟩
    | minus h =>
        rw [signed?, digits?_eq_some_iff.mpr h]
        rfl

/-- Hexadecimal digits are read with or without a plus sign. -/
theorem unsigned?_hexadecimal_iff :
    unsigned? 16 hexDigit? cs = some n ↔ ReadsInteger ('0' :: 'x' :: cs) n := by
  constructor
  · intro h
    rw [unsigned?.eq_def] at h
    split at h
    · exact .hexadecimalPlus (digits?_eq_some_iff.mp h)
    · exact .hexadecimal (digits?_eq_some_iff.mp h)
  · intro h
    generalize hi : (n : Int) = i at h
    cases h with
    | decimal h =>
        cases h with
        | unsigned h => exact h.not_hexadecimal.elim
    | hexadecimal h =>
        rw [Int.natCast_inj.mp hi]
        have hplus := h.not_mem (c := '+') (by decide)
        rw [unsigned?.eq_def]
        split
        · exact absurd (List.mem_cons_self ..) hplus
        · exact digits?_eq_some_iff.mpr h
    | hexadecimalPlus h =>
        rw [Int.natCast_inj.mp hi, unsigned?]
        exact digits?_eq_some_iff.mpr h

/-- The word that an integer stands for. -/
def wordOf (i : Int) : UInt32 :=
  (i % UInt32.size).toNat.toUInt32

/-- The integers that a word can be written as: the signed and the unsigned ones. -/
def FitsWord (i : Int) : Prop :=
  -0x80000000 ≤ i ∧ i < UInt32.size

instance : DecidablePred FitsWord := fun _ => inferInstanceAs (Decidable (_ ∧ _))

theorem wordOf_natCast (h : n < UInt32.size) : wordOf n = n.toUInt32 := by
  rw [wordOf, ← Int.natCast_emod, Int.toNat_natCast, Nat.mod_eq_of_lt h]

/-- A constant's literal is read exactly if, without its underscores, an integer is read of it that
fits a word. -/
theorem word32?_eq_some_iff :
    word32? literal = some w ↔
      ∃ i, ReadsInteger (literal.toList.filter (· != '_')) i ∧ FitsWord i ∧ wordOf i = w := by
  rw [word32?]
  generalize literal.toList.filter (· != '_') = cs
  split
  · next hex =>
    constructor
    · intro h
      obtain ⟨n, hn, hw⟩ := Option.bind_eq_some_iff.mp h
      split at hw
      · next hsize =>
        refine ⟨n, unsigned?_hexadecimal_iff.mp hn, ⟨by omega, by omega⟩, ?_⟩
        rw [wordOf_natCast hsize]
        exact Option.some.inj hw
      · cases hw
    · rintro ⟨i, hread, ⟨_, hsize⟩, rfl⟩
      obtain ⟨n, rfl⟩ : ∃ n : Nat, i = n := by
        cases hread with
        | decimal h =>
            cases h with
            | unsigned h => exact h.not_hexadecimal.elim
        | hexadecimal => exact ⟨_, rfl⟩
        | hexadecimalPlus => exact ⟨_, rfl⟩
      have hn : n < UInt32.size := by omega
      rw [unsigned?_hexadecimal_iff.mpr hread, wordOf_natCast hn]
      exact if_pos hn
  · next hdecimal =>
    have hsigned : ∀ i, ReadsInteger cs i → signed? cs = some i := by
      intro i h
      cases h with
      | decimal h => exact signed?_eq_some_iff.mpr h
      | hexadecimal => exact absurd rfl (hdecimal _)
      | hexadecimalPlus => exact absurd rfl (hdecimal _)
    constructor
    · intro h
      obtain ⟨i, hi, hw⟩ := Option.bind_eq_some_iff.mp h
      split at hw
      · next hfits =>
        exact ⟨i, .decimal (signed?_eq_some_iff.mp hi), hfits, Option.some.inj hw⟩
      · cases hw
    · rintro ⟨i, hread, hfits, rfl⟩
      rw [hsigned i hread]
      exact if_pos hfits

/-! ### Literals that are read -/

theorem Magnitude.readsInteger (h : Magnitude cs n) :
    ReadsInteger (cs.filter (· != '_')) n := by
  cases h with
  | decimal h => exact .decimal (.unsigned (h.digitRun (by decide)))
  | hexadecimal h => exact .hexadecimal (h.digitRun (by decide))

/-- An integer literal whose value fits a word is read as its value, unless a sign stands before
hexadecimal digits. -/
theorem word32?_of_literal (h : IntegerLiteral literal.toList i) (hfits : FitsWord i)
    (hsign : ¬ SignedHexadecimal literal.toList) : word32? literal = some (wordOf i) := by
  refine word32?_eq_some_iff.mpr ⟨i, ?_, hfits, rfl⟩
  generalize literal.toList = cs at h hsign
  cases h with
  | unsigned h => exact h.readsInteger
  | plus h =>
      cases h with
      | decimal h => exact .decimal (.plus (h.digitRun (by decide)))
      | hexadecimal => exact absurd (.plus _) hsign
  | minus h =>
      cases h with
      | decimal h => exact .decimal (.minus (h.digitRun (by decide)))
      | hexadecimal => exact absurd (.minus _) hsign

/-- Hexadecimal digits behind a sign are not read. -/
theorem word32?_of_signedHexadecimal (h : SignedHexadecimal literal.toList) :
    word32? literal = none := by
  apply Option.eq_none_iff_forall_ne_some.mpr
  intro w hw
  obtain ⟨i, hread, _⟩ := word32?_eq_some_iff.mp hw
  generalize literal.toList = cs at h hread
  cases h with
  | plus rest =>
      cases hread with
      | decimal h =>
          cases h with
          | unsigned h => exact h.not_mem (c := '+') (by decide) (List.mem_cons_self ..)
          | plus h => exact h.not_hexadecimal
  | minus rest =>
      cases hread with
      | decimal h =>
          cases h with
          | unsigned h => exact h.not_mem (c := '-') (by decide) (List.mem_cons_self ..)
          | minus h => exact h.not_hexadecimal

end WasmTrim
