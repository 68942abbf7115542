import WasmTrim.Proofs.Module.DataSegment
import WasmTrim.Proofs.Text.IntegerLiteral

/-!
# Which data fields denote a segment

A data field says in one of three ways where its bytes belong: not at all, by one instruction, or by
the instructions of an `offset` form. Its segment lies at the first constant among these
instructions, whatever the others compute; where there is none, the field denotes no segment. The
bytes are those of its quoted strings.

A place that several instructions compute is thereby taken for a constant one if one of them is a
constant, and a constant with a sign before hexadecimal digits is taken for none.

`Sexpr.dataSegment?_dataForm_iff` has this for all places and strings, and with it which constants
are read: those whose literal has an integer that fits a word. That is so of every literal of such
an integer, unless a sign stands before hexadecimal digits.
-/

namespace WasmTrim.Sexpr

/-- Where a data field says that its bytes belong. -/
inductive Place where
  /-- The field says nothing. -/
  | passive
  /-- One instruction. -/
  | instruction (items : List Sexpr)
  /-- An `offset` form with instructions. -/
  | offset (instructions : List Sexpr)

/-- What stands in the field. -/
def Place.items : Place → List Sexpr
  | .passive => []
  | .instruction items => [.list items]
  | .offset instructions => [.list (.atom "offset" :: instructions)]

/-- The instructions that compute the place. -/
def Place.instructions : Place → List Sexpr
  | .passive => []
  | .instruction items => [.list items]
  | .offset instructions => instructions

/-- The field `(data [$name] [(memory x)] place "..."*)`. -/
def dataForm (name : Option String) (memory : Option Sexpr) (place : Place) (texts : List String) :
    Sexpr :=
  .list (.atom "data" :: (name.toList.map (fun n => .atom ("$" ++ n)) ++
    (memory.toList.map (fun m => .list [.atom "memory", m]) ++
      (place.items ++ texts.map .atom))))

/-- The word of a constant's form. -/
def constant? : Sexpr → Option UInt32
  | .list (.atom "i32.const" :: .atom literal :: _) => word32? literal
  | _ => none

theorem constant?_atom (literal : String) (rest : List Sexpr) :
    constant? (.list (.atom "i32.const" :: .atom literal :: rest)) = word32? literal := rfl

variable {item : Sexpr} {items : List Sexpr} {texts : List String} {parts : List ByteArray}
variable {bytes : ByteArray} {text : String}

/-! ### The search for a constant -/

theorem constOffset?_of_not_offset (h : item.isForm "offset" = false) :
    item.constOffset? = item.constant? := by
  rw [constOffset?.eq_def]
  split
  · next keyword operands =>
    by_cases hconst : keyword = "i32.const"
    · subst hconst
      rw [if_pos rfl]
      match operands with
      | [] => rfl
      | .atom _ :: _ => rfl
      | .list _ :: _ => rfl
    · have hoffset : keyword ≠ "offset" := by
        rintro rfl
        cases h
      rw [if_neg hconst, if_neg hoffset, constant?]
      rintro literal rest ⟨⟩
      exact hconst rfl
  · next hother =>
    rw [constant?]
    rintro literal rest rfl
    exact hother _ _ rfl

theorem constOffset?_offset (instructions : List Sexpr) :
    constOffset? (.list (.atom "offset" :: instructions)) = constOffsetIn? instructions := by
  rw [constOffset?.eq_def]
  exact (if_neg (by decide)).trans (if_pos rfl)

theorem constOffsetIn?_eq_findSome? (items : List Sexpr) :
    constOffsetIn? items = items.findSome? constOffset? := by
  induction items with
  | nil => rw [constOffsetIn?, List.findSome?_nil]
  | cons item rest ih =>
      rw [constOffsetIn?, List.findSome?_cons]
      cases item.constOffset? with
      | none => exact ih
      | some address => rfl

/-- Instructions are searched for the first constant. -/
theorem constOffsetIn?_of_not_offset (h : ∀ item ∈ items, item.isForm "offset" = false) :
    constOffsetIn? items = items.findSome? constant? := by
  induction items with
  | nil => rw [constOffsetIn?, List.findSome?_nil]
  | cons item rest ih =>
      obtain ⟨hitem, hrest⟩ := List.forall_mem_cons.mp h
      rw [constOffsetIn?, constOffset?_of_not_offset hitem, List.findSome?_cons, ih hrest]
      cases item.constant? <;> rfl

theorem constOffset?_atom (text : String) : constOffset? (.atom text) = none := by
  rw [constOffset?]
  rintro _ _ ⟨⟩

/-- Atoms hold no constant. -/
theorem findSome?_map_atom (texts : List String) :
    (texts.map Sexpr.atom).findSome? constOffset? = none := by
  rw [List.findSome?_eq_none_iff]
  intro item hmem
  obtain ⟨text, _, rfl⟩ := List.mem_map.mp hmem
  exact constOffset?_atom text

theorem constOffset?_memory (m : Sexpr) : constOffset? (.list [.atom "memory", m]) = none := by
  rw [constOffset?.eq_def]
  exact (if_neg (by decide)).trans (if_neg (by decide))

/-- What stands for the place is searched as its instructions are. -/
theorem findSome?_place {place : Place}
    (h : ∀ item ∈ place.instructions, item.isForm "offset" = false) :
    place.items.findSome? constOffset? = place.instructions.findSome? constant? := by
  cases place with
  | passive => rfl
  | instruction items =>
      rw [← constOffsetIn?_eq_findSome?]
      exact constOffsetIn?_of_not_offset h
  | offset instructions =>
      rw [Place.items, List.findSome?_singleton, constOffset?_offset]
      exact constOffsetIn?_of_not_offset h

/-! ### The bytes -/

theorem isQuoted_of_decode (h : Literal.decode text = .ok bytes) :
    isQuoted (.atom text) = true := by
  rw [Literal.decode, Literal.inside?] at h
  rw [isQuoted]
  cases htext : text.toList with
  | nil =>
      rw [htext] at h
      cases h
  | cons c rest =>
      by_cases hquote : c = '"'
      · rw [hquote]
        rfl
      · rw [htext] at h
        split at h
        · next inside hinside =>
          split at hinside
          · next hcons => exact absurd (List.cons.inj hcons).1 hquote
          · cases hinside
        · cases h

/-- Items that are no quoted strings have no bytes. -/
theorem quotedBytes_append_of_not_quoted (h : ∀ item ∈ items, item.isQuoted = false)
    (out : ByteArray) (rest : List Sexpr) :
    quotedBytes out (items ++ rest) = quotedBytes out rest := by
  induction items with
  | nil => rfl
  | cons item items ih =>
      obtain ⟨hitem, hitems⟩ := List.forall_mem_cons.mp h
      rw [List.cons_append, ← ih hitems]
      cases item with
      | atom text => rw [quotedBytes, if_neg (by rw [hitem]; decide)]
      | list items => rw [quotedBytes]

/-- Quoted strings have their bytes, one after another. -/
theorem quotedBytes_texts
    (h : List.Forall₂ (fun text bytes => Literal.decode text = .ok bytes) texts parts)
    (out : ByteArray) :
    quotedBytes out (texts.map .atom) = .ok (parts.foldl (· ++ ·) out) := by
  induction h generalizing out with
  | nil => rfl
  | @cons text bytes texts parts htext _ ih =>
      rw [List.map_cons, quotedBytes, if_pos (isQuoted_of_decode htext), htext]
      exact ih (out ++ bytes)

theorem isQuoted_identifier (name : String) : isQuoted (.atom ("$" ++ name)) = false := by
  rw [isQuoted, String.toList_append]
  rfl

theorem isQuoted_of_mem_place {place : Place} (h : item ∈ place.items) :
    item.isQuoted = false := by
  cases place with
  | passive => cases h
  | instruction items =>
      rw [List.mem_singleton.mp h]
      rfl
  | offset instructions =>
      rw [List.mem_singleton.mp h]
      rfl

/-! ### Data fields -/

/-- A data field denotes the segment at the first constant among the instructions of its place, with
the bytes of its strings. -/
theorem dataSegment?_dataForm (name : Option String) (memory : Option Sexpr) (place : Place)
    (hplace : ∀ item ∈ place.instructions, item.isForm "offset" = false)
    (htexts : List.Forall₂ (fun text bytes => Literal.decode text = .ok bytes) texts parts) :
    (dataForm name memory place texts).dataSegment? =
      .ok ((place.instructions.findSome? constant?).map
        fun offset => ⟨offset, parts.foldl (· ++ ·) .empty⟩) := by
  have hname : ∀ item ∈ name.toList.map (fun n => Sexpr.atom ("$" ++ n)),
      constOffset? item = none ∧ item.isQuoted = false := by
    intro item hmem
    obtain ⟨n, _, rfl⟩ := List.mem_map.mp hmem
    exact ⟨constOffset?_atom _, isQuoted_identifier n⟩
  have hmemory : ∀ item ∈ memory.toList.map (fun m => Sexpr.list [.atom "memory", m]),
      constOffset? item = none ∧ item.isQuoted = false := by
    intro item hmem
    obtain ⟨m, _, rfl⟩ := List.mem_map.mp hmem
    exact ⟨constOffset?_memory m, rfl⟩
  rw [dataForm, dataSegment?, if_pos rfl, constOffsetIn?_eq_findSome?, List.findSome?_append,
    List.findSome?_append, List.findSome?_append,
    List.findSome?_eq_none_iff.mpr fun item hmem => (hname item hmem).1,
    List.findSome?_eq_none_iff.mpr fun item hmem => (hmemory item hmem).1, findSome?_map_atom,
    findSome?_place hplace, Option.none_or, Option.none_or, Option.or_none]
  cases place.instructions.findSome? constant? with
  | none => rfl
  | some offset =>
      rw [quotedBytes_append_of_not_quoted fun item hmem => (hname item hmem).2,
        quotedBytes_append_of_not_quoted fun item hmem => (hmemory item hmem).2,
        quotedBytes_append_of_not_quoted fun item hmem => isQuoted_of_mem_place hmem,
        quotedBytes_texts htexts]
      rfl

/-- A data field denotes a segment exactly if an instruction of its place is a constant. The segment
lies at the first of them, and its bytes are those of the strings. -/
theorem dataSegment?_dataForm_iff (name : Option String) (memory : Option Sexpr) (place : Place)
    (hplace : ∀ item ∈ place.instructions, item.isForm "offset" = false)
    (htexts : List.Forall₂ (fun text bytes => Literal.decode text = .ok bytes) texts parts) :
    (∀ segment, (dataForm name memory place texts).dataSegment? = .ok (some segment) ↔
      (∃ before item after, place.instructions = before ++ item :: after ∧
        item.constant? = some segment.offset ∧ ∀ other ∈ before, other.constant? = none) ∧
      segment.bytes = parts.foldl (· ++ ·) .empty) ∧
    ((dataForm name memory place texts).dataSegment? = .ok none ↔
      ∀ item ∈ place.instructions, item.constant? = none) ∧
    (∀ literal rest w, constant? (.list (.atom "i32.const" :: .atom literal :: rest)) = some w ↔
      ∃ i, ReadsInteger (literal.toList.filter (· != '_')) i ∧ FitsWord i ∧ wordOf i = w) ∧
    ∀ literal rest i, IntegerLiteral literal.toList i → FitsWord i →
      (SignedHexadecimal literal.toList →
        constant? (.list (.atom "i32.const" :: .atom literal :: rest)) = none) ∧
      (¬ SignedHexadecimal literal.toList →
        constant? (.list (.atom "i32.const" :: .atom literal :: rest)) = some (wordOf i)) := by
  refine ⟨?_, ?_, ?_, ?_⟩
  · rintro ⟨offset, bytes⟩
    rw [dataSegment?_dataForm name memory place hplace htexts, ← List.findSome?_eq_some_iff]
    cases place.instructions.findSome? constant? with
    | none => simp
    | some first => simp [eq_comm]
  · rw [dataSegment?_dataForm name memory place hplace htexts, ← List.findSome?_eq_none_iff]
    cases place.instructions.findSome? constant? <;> simp
  · intro literal rest w
    rw [constant?_atom]
    exact word32?_eq_some_iff
  · intro literal rest i hliteral hfits
    rw [constant?_atom]
    exact ⟨word32?_of_signedHexadecimal, word32?_of_literal hliteral hfits⟩

/-- The constant in a sum of a global and a constant is taken for the place. -/
theorem dataSegment?_sum :
    (dataForm (some "d") (some (.atom "0"))
      (.offset [.list [.atom "global.get", .atom "$g"], .list [.atom "i32.const", .atom "0x1_0"],
        .list [.atom "i32.add"]]) [Literal.encode ⟨#[97, 0]⟩]).dataSegment? =
      .ok (some ⟨16, ⟨#[97, 0]⟩⟩) := by
  obtain ⟨hsome, _⟩ := dataSegment?_dataForm_iff (some "d") (some (.atom "0"))
    (.offset [.list [.atom "global.get", .atom "$g"],
      .list [.atom "i32.const", .atom "0x1_0"], .list [.atom "i32.add"]]) (by decide)
    (.cons (Literal.decode_encode ⟨#[97, 0]⟩) .nil)
  exact (hsome ⟨16, ⟨#[97, 0]⟩⟩).mpr
    ⟨⟨[_], _, [_], rfl, by decide, by decide⟩, (ByteArray.empty_append).symm⟩

/-- The sum of two constants, a place that is not one constant, is taken for the first of them. A
constant below zero is not read if it is written in hexadecimal. -/
theorem dataSegment?_computed :
    (dataForm none none (.offset [i32Const 1, i32Const 2, .list [.atom "i32.add"]])
      [Literal.encode ⟨#[97]⟩]).dataSegment? = .ok (some ⟨1, ⟨#[97]⟩⟩) ∧
    (∀ literal, [i32Const 1, i32Const 2, .list [.atom "i32.add"]] ≠
      [.list [.atom "i32.const", .atom literal]]) ∧
    (IntegerLiteral "-0x10".toList (-16) ∧ FitsWord (-16)) ∧
    (dataForm none none (.instruction [.atom "i32.const", .atom "-0x10"])
      [Literal.encode ⟨#[97]⟩]).dataSegment? = .ok none := by
  have htexts : List.Forall₂ (fun text bytes => Literal.decode text = .ok bytes)
      [Literal.encode ⟨#[97]⟩] [⟨#[97]⟩] := .cons (Literal.decode_encode _) .nil
  have hchars : "-0x10".toList = ['-', '0', 'x', '1', '0'] := by decide
  have hdigits : Numeral 16 hexDigit? (['1'] ++ ['0']) (1 * 16 + 0) := .append (.single rfl) rfl
  refine ⟨?_, ?_, ⟨?_, by decide⟩, ?_⟩
  · rw [dataSegment?_dataForm none none _ (by decide) htexts]
    rfl
  · rintro literal ⟨⟩
  · rw [hchars]
    exact .minus (.hexadecimal hdigits)
  · rw [dataSegment?_dataForm none none _ (by decide) htexts]
    rfl

end WasmTrim.Sexpr
