import WasmTrim.Frozen.Store
import WasmTrim.Proofs.Memory.Bytes

/-!
# Addresses of interned strings

The address that a string is given when it is interned denotes that string in every image of the
store that is laid out later, whatever was added in between.

`FrozenStore.Holds` is what is known of an address while the store still grows, and
`Frozen.Denotes` is what it comes to in an image.
-/

namespace WasmTrim

open Frozen

namespace Frozen

/-- From its address on, an image shows the bytes of a string and a zero byte. -/
def Denotes (image : ByteArray) (address : UInt32) (s : String) : Prop :=
  baseAddress ≤ address.toNat ∧
    image.extract (address.toNat - baseAddress) (address.toNat - baseAddress + s.utf8ByteSize + 1) =
      s.toUTF8.push 0

end Frozen

namespace FrozenStore

variable {store later : FrozenStore} {s : String} {strings : List String} {a : UInt32}

/-- The number of bytes that strings and their zero bytes take. -/
def spanOf : List String → Nat
  | [] => 0
  | s :: rest => s.utf8ByteSize + 1 + spanOf rest

/-- The bytes of strings, each with its zero byte. -/
def bytesOf (strings : List String) : ByteArray :=
  strings.foldl (fun bytes s => bytes ++ stringBytes s) .empty

theorem spanOf_append (front back : List String) :
    spanOf (front ++ back) = spanOf front + spanOf back := by
  induction front with
  | nil => rw [List.nil_append, spanOf, Nat.zero_add]
  | cons s rest ih =>
      rw [List.cons_append, spanOf, spanOf, ih]
      omega

theorem size_stringBytes (s : String) : (stringBytes s).size = s.utf8ByteSize + 1 :=
  ByteArray.size_push

theorem bytesOf_cons (s : String) (rest : List String) :
    bytesOf (s :: rest) = stringBytes s ++ bytesOf rest := by
  rw [bytesOf, List.foldl_cons, foldl_append_bytes, ByteArray.empty_append]
  rfl

theorem bytesOf_append (front back : List String) :
    bytesOf (front ++ back) = bytesOf front ++ bytesOf back := by
  rw [bytesOf, List.foldl_append, foldl_append_bytes]
  rfl

theorem size_bytesOf (strings : List String) : (bytesOf strings).size = spanOf strings := by
  induction strings with
  | nil => rfl
  | cons s rest ih =>
      rw [bytesOf_cons, ByteArray.size_append, size_stringBytes, ih, spanOf]

theorem pool_eq (store : FrozenStore) : store.pool = bytesOf store.strings.toList := by
  rw [pool, bytesOf, Array.foldl_toList]

theorem poolSize_eq (store : FrozenStore) : store.poolSize = spanOf store.strings.toList := by
  have hfold : ∀ (strings : List String) (n : Nat),
      strings.foldl (fun n s => n + s.utf8ByteSize + 1) n = n + spanOf strings := by
    intro strings
    induction strings with
    | nil => exact fun n => rfl
    | cons s rest ih =>
        intro n
        rw [List.foldl_cons, ih, spanOf]
        omega
  rw [poolSize, ← Array.foldl_toList, hfold, Nat.zero_add]

/-- A string that is found lies behind the ones before it. -/
theorem offsetFrom?_eq_some {offset place : Nat} (h : offsetFrom? s offset strings = some place) :
    ∃ front back, strings = front ++ s :: back ∧ place = offset + spanOf front := by
  induction strings generalizing offset with
  | nil => cases h
  | cons t rest ih =>
      rw [offsetFrom?] at h
      split at h
      · next hfound =>
        subst hfound
        cases h
        exact ⟨[], rest, rfl, rfl⟩
      · obtain ⟨front, back, rfl, rfl⟩ := ih h
        refine ⟨t :: front, back, rfl, ?_⟩
        rw [spanOf]
        omega

/-- A string that is not found is not there. -/
theorem not_mem_of_offsetFrom?_eq_none {offset : Nat} (h : offsetFrom? s offset strings = none) :
    s ∉ strings := by
  induction strings generalizing offset with
  | nil => exact List.not_mem_nil
  | cons t rest ih =>
      rw [offsetFrom?] at h
      split at h
      · cases h
      · next hother =>
        intro hmem
        rcases List.mem_cons.mp hmem with rfl | hrest
        · exact hother rfl
        · exact ih h hrest

/-! ### Addresses in a store that grows -/

/-- An address is the place of a string among the others of a store. -/
def Holds (store : FrozenStore) (a : UInt32) (s : String) : Prop :=
  ∃ front back, store.strings.toList = front ++ s :: back ∧
    a = address (stringsOffset + spanOf front)

/-- A store has grown: its strings are followed by others. -/
def Extends (store later : FrozenStore) : Prop :=
  store.strings.toList <+: later.strings.toList

theorem Extends.refl (store : FrozenStore) : Extends store store :=
  List.prefix_refl _

theorem Extends.trans {last : FrozenStore} (h : Extends store later) (h' : Extends later last) :
    Extends store last :=
  List.IsPrefix.trans h h'

/-- Addresses stay valid in a store that grows. -/
theorem Holds.of_extends (h : Holds store a s) (hlater : Extends store later) :
    Holds later a s := by
  obtain ⟨front, back, hstrings, ha⟩ := h
  obtain ⟨added, hadded⟩ := hlater
  refine ⟨front, back ++ added, ?_, ha⟩
  rw [← hadded, hstrings, List.append_assoc, List.cons_append]

/-- What interning does to the strings: a new one is put behind the others, a known one changes
nothing. -/
theorem strings_intern (store : FrozenStore) (s : String) :
    (s ∈ store.strings.toList ∧ (store.intern s).2 = store) ∨
      (s ∉ store.strings.toList ∧
        (store.intern s).2.strings.toList = store.strings.toList ++ [s]) := by
  rw [intern]
  split
  · next place hfound =>
    obtain ⟨front, back, hstrings, _⟩ := offsetFrom?_eq_some hfound
    exact Or.inl ⟨hstrings ▸ List.mem_append_right front (List.mem_cons_self ..), rfl⟩
  · next hnone => exact Or.inr ⟨not_mem_of_offsetFrom?_eq_none hnone, Array.toList_push⟩

theorem extends_intern (store : FrozenStore) (s : String) : Extends store (store.intern s).2 := by
  rcases strings_intern store s with ⟨_, hsame⟩ | ⟨_, hadded⟩
  · rw [hsame]
    exact Extends.refl store
  · exact ⟨[s], hadded.symm⟩

/-- Interning gives a string the place that it has among the strings from then on: its old one, or
the one behind all others. -/
theorem exists_place_intern (store : FrozenStore) (s : String) :
    ∃ front back, (store.intern s).2.strings.toList = front ++ s :: back ∧
      (store.intern s).1 = address (stringsOffset + spanOf front) ∧
      spanOf front ≤ spanOf store.strings.toList := by
  rw [intern]
  split
  · next place hfound =>
    obtain ⟨front, back, hstrings, rfl⟩ := offsetFrom?_eq_some hfound
    refine ⟨front, back, hstrings, by rw [Nat.zero_add], ?_⟩
    rw [hstrings, spanOf_append]
    exact Nat.le_add_right _ _
  · refine ⟨store.strings.toList, [], Array.toList_push, ?_, Nat.le_refl _⟩
    rw [poolSize_eq]

/-- Interning gives the address of the string. -/
theorem holds_intern (store : FrozenStore) (s : String) :
    Holds (store.intern s).2 (store.intern s).1 s := by
  obtain ⟨front, back, hstrings, haddress, _⟩ := exists_place_intern store s
  exact ⟨front, back, hstrings, haddress⟩

/-! ### Runs of interning -/

/-- Interning names one after another gives them these addresses. -/
inductive Interns : FrozenStore → List (String × UInt32) → FrozenStore → Prop
  | done (store : FrozenStore) : Interns store [] store
  | next {store later : FrozenStore} (s : String) {names : List (String × UInt32)}
      (tail : Interns (store.intern s).2 names later) :
      Interns store ((s, (store.intern s).1) :: names) later

namespace Interns

variable {names others : List (String × UInt32)} {last : FrozenStore}

theorem single (store : FrozenStore) (s : String) :
    Interns store [(s, (store.intern s).1)] (store.intern s).2 :=
  next s (done _)

theorem append (h : Interns store names later) (h' : Interns later others last) :
    Interns store (names ++ others) last := by
  induction h with
  | done => exact h'
  | next s _ ih => exact next s (ih h')

theorem extends_later (h : Interns store names later) : Extends store later := by
  induction h with
  | done store => exact Extends.refl store
  | @next store _ s _ _ ih => exact (extends_intern store s).trans ih

/-- All addresses that were given are valid in the end. -/
theorem holds (h : Interns store names later) : ∀ p ∈ names, Holds later p.2 p.1 := by
  induction h with
  | done =>
      intro p hp
      cases hp
  | @next store _ s _ tail ih =>
      intro p hp
      rcases List.mem_cons.mp hp with rfl | hmem
      · exact (holds_intern store s).of_extends tail.extends_later
      · exact ih p hmem

end Interns

end FrozenStore

end WasmTrim
