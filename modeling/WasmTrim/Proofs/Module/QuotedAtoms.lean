import WasmTrim.Proofs.Compression.LastSegment
import WasmTrim.Proofs.Module.Passes

/-!
# Quoted atoms of a module that was read

Reading makes an atom that starts with a quote only where a quoted string ends, and passes make such
atoms only of plain names and of escaped bytes. So every one of them is a quoted string, with quotes
inside it only behind backslashes, and its bytes are found wherever it stands. Whoever takes the
data segments of a module that was read is never told that a text is no quoted string.

`Sexpr.quoted_atoms_decode` follows this from the atoms to the compression of a module's data. Of
every part of the module it can be said whether it is a data segment, and there is an image unless a
segment ends beyond the largest one. The codec does not matter.
-/

namespace WasmTrim

open Token (QuotedInside)

/-- An atom that starts with a quote is the quoted string of what may stand between quotes. -/
theorem Token.Lexable.exists_quoted {text : String} (h : Token.Lexable text)
    (hquote : text.toList.head? = some '"') :
    ∃ inside, QuotedInside inside ∧ text = String.ofList ('"' :: inside ++ ['"']) := by
  cases h with
  | bare h =>
      obtain ⟨_, _, _, _, hne⟩ := h.plain '"' (List.mem_of_mem_head? hquote)
      exact absurd rfl hne
  | quoted h => exact ⟨_, h, rfl⟩

/-- A quoted string denotes what stands between its quotes. -/
theorem Literal.decode_ofList (inside : List Char) :
    decode (String.ofList ('"' :: inside ++ ['"'])) = .ok (decodeInside .empty inside) := by
  have hinside : inside? (String.ofList ('"' :: inside ++ ['"'])) = some inside := by
    rw [inside?, String.toList_ofList, List.cons_append]
    simp
  rw [decode, hinside]

namespace Sexpr

variable {module part t : Sexpr} {items : List Sexpr} {text : String}

/-- A tree that stands somewhere in another, at any depth. -/
inductive PartOf (part : Sexpr) : Sexpr → Prop
  /-- A tree is a part of itself. -/
  | whole : PartOf part part
  /-- The parts of an item are parts of the list. -/
  | inside {items : List Sexpr} {item : Sexpr} (hmem : item ∈ items) (h : PartOf part item) :
      PartOf part (.list items)

theorem Lexable.of_partOf (h : Lexable t) (hpart : PartOf part t) : Lexable part := by
  induction hpart with
  | whole => exact h
  | inside hmem _ ih => exact ih (h.items _ hmem)

/-- An atom that can be read is a quoted string if it starts with a quote, and then it denotes
bytes. -/
theorem Lexable.exists_decode (h : Lexable (.atom text)) (hquoted : isQuoted (.atom text) = true) :
    ∃ inside, QuotedInside inside ∧ text = String.ofList ('"' :: inside ++ ['"']) ∧
      Literal.decode text = .ok (Literal.decodeInside .empty inside) := by
  obtain ⟨inside, hinside, rfl⟩ := (lexable_atom_iff.mp h).exists_quoted (beq_iff_eq.mp hquoted)
  exact ⟨inside, hinside, rfl, Literal.decode_ofList inside⟩

/-- Items that can be read have bytes. -/
theorem exists_quotedBytes (out : ByteArray) (h : ∀ item ∈ items, Lexable item) :
    ∃ bytes, quotedBytes out items = .ok bytes := by
  induction items generalizing out with
  | nil => exact ⟨out, rfl⟩
  | cons item rest ih =>
      obtain ⟨hitem, hrest⟩ := List.forall_mem_cons.mp h
      cases item with
      | list items => exact ih out hrest
      | atom text =>
          rw [quotedBytes]
          split
          · next hquoted =>
            obtain ⟨inside, _, _, hdecode⟩ := hitem.exists_decode hquoted
            rw [hdecode]
            exact ih _ hrest
          · exact ih out hrest

/-- Of a tree that can be read, it can be said whether it is a data segment. -/
theorem Lexable.exists_dataSegment? (h : Lexable t) : ∃ segment?, t.dataSegment? = .ok segment? := by
  rw [dataSegment?.eq_def]
  split
  · next keyword items =>
    split
    · split
      · exact ⟨none, rfl⟩
      · next offset _ =>
        have hitems : ∀ item ∈ items, Lexable item := fun item hmem =>
          h.items item (List.mem_cons_of_mem _ hmem)
        obtain ⟨bytes, hbytes⟩ := exists_quotedBytes .empty hitems
        rw [hbytes]
        exact ⟨some ⟨offset, bytes⟩, rfl⟩
    · exact ⟨none, rfl⟩
  · exact ⟨none, rfl⟩

theorem Lexable.allDecode (h : Lexable module) : AllDecode module.fields :=
  fun field hmem => (h.fields field hmem).exists_dataSegment?

/-- There is an image, or a segment ends beyond the largest one. -/
theorem flatten_of_allDecode (h : AllDecode module.fields) :
    (∃ image, module.flatten = .ok image) ∨
      ∃ stop, module.flatten = .error (.imageTooLarge stop) := by
  rcases DataSegment.fits_or_firstBeyond module.dataSegments with hfits | ⟨s, hfirst⟩
  · exact Or.inl (exists_flatten h hfits)
  · exact Or.inr ⟨s.stop, flatten_of_firstBeyond h hfirst⟩

/-- Compression reports a text that is no quoted string only if there is no image for it. -/
theorem flatten_of_compressDataWith {encode : ByteArray → ByteArray} {cause : Literal.NotQuoted}
    (h : module.compressDataWith encode = .error (.notQuoted cause)) :
    module.flatten = .error (.notQuoted cause) := by
  rw [compressDataWith] at h
  cases hflatten : module.flatten with
  | error e =>
      rw [hflatten] at h
      cases h
      rfl
  | ok image =>
      rw [hflatten] at h
      simp only at h
      split at h
      · cases h
      · split at h <;> cases h

theorem compressDataWith_ne_notQuoted (h : AllDecode module.fields)
    (encode : ByteArray → ByteArray) (cause : Literal.NotQuoted) :
    module.compressDataWith encode ≠ .error (.notQuoted cause) := by
  intro herror
  have hflatten := flatten_of_compressDataWith herror
  rcases flatten_of_allDecode h with ⟨image, himage⟩ | ⟨stop, hstop⟩
  · rw [himage] at hflatten
    cases hflatten
  · rw [hstop] at hflatten
    cases hflatten

open Relation (ReflTransGen)

/-- In a module that was read, and in whatever passes make of it, all atoms that start with a quote
are quoted strings. So compression never reports a text that is none. -/
theorem quoted_atoms_decode {source : String} (hread : parse source = .ok module)
    (hpasses : ReflTransGen Pass module t) :
    (∀ text, PartOf (.atom text) t → isQuoted (.atom text) = true →
      ∃ inside, QuotedInside inside ∧ text = String.ofList ('"' :: inside ++ ['"']) ∧
        Literal.decode text = .ok (Literal.decodeInside .empty inside)) ∧
    (∀ part, PartOf part t → ∃ segment?, part.dataSegment? = .ok segment?) ∧
    ((∃ image, t.flatten = .ok image) ∨ ∃ stop, t.flatten = .error (.imageTooLarge stop)) ∧
    ∀ encode cause, t.compressDataWith encode ≠ .error (.notQuoted cause) := by
  have hlexable := (lexable_of_passes hpasses (lexable_of_parse hread)).2
  refine ⟨?_, ?_, flatten_of_allDecode hlexable.allDecode,
    compressDataWith_ne_notQuoted hlexable.allDecode⟩
  · intro text hpart
    exact (hlexable.of_partOf hpart).exists_decode
  · intro part hpart
    exact (hlexable.of_partOf hpart).exists_dataSegment?

/-- A module with a string that ends in a backslash and one that ends in a quote. -/
def escapedModule : Sexpr :=
  .list [.atom "module", .list [.atom "func", .atom "$f"],
    .list [.atom "data", i32Const 1048576, .atom "\"\\\\\"", .atom "\"a\\\"\""]]

/-- Its strings are found, also after it was instrumented. -/
theorem quoted_atoms_escapedModule :
    parse "(module (func $f) (data (i32.const 1048576) \"\\\\\" \"a\\\"\"))" = .ok escapedModule ∧
      ReflTransGen Pass escapedModule escapedModule.instrument ∧
      (∃ segment?, dataSegment? (.list [.atom "data", i32Const 1048576, .atom "\"\\\\\"",
        .atom "\"a\\\"\""]) = .ok segment?) ∧
      ∀ cause, escapedModule.instrument.compressData ≠ .error (.notQuoted cause) := by
  have hread : parse "(module (func $f) (data (i32.const 1048576) \"\\\\\" \"a\\\"\"))" =
      .ok escapedModule := by cbv
  have hpasses : ReflTransGen Pass escapedModule escapedModule.instrument :=
    .single (.instrument escapedModule)
  obtain ⟨_, hparts, _, _⟩ := quoted_atoms_decode hread .refl
  obtain ⟨_, _, _, hcompress⟩ := quoted_atoms_decode hread hpasses
  refine ⟨hread, hpasses, hparts _ (.inside ?_ .whole), hcompress Lz4.encode⟩
  exact List.mem_cons_of_mem _ (List.mem_cons_of_mem _ (List.mem_cons_self ..))

end Sexpr

end WasmTrim
