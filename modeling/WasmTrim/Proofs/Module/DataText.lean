import WasmTrim.Proofs.Sexpr.Lexable

/-!
# Data bytes in the text

Bytes survive the text form of a module. The quoted string that writes them is one token of
printable characters, it denotes the bytes again, and the data field that carries it denotes the
same segment after the module was written and read.
-/

namespace WasmTrim

namespace Literal

variable {b : UInt8} {c : Char}

/-- A character that prints, of the ASCII range. -/
def Printable (c : Char) : Prop :=
  32 ≤ c.toNat ∧ c.toNat ≤ 126

instance : DecidablePred Printable := fun _ => inferInstanceAs (Decidable (_ ∧ _))

theorem printable_hexByte (b : UInt8) : ∀ c ∈ hexByte b, Printable c := by
  have hdigit : ∀ n < 16, Printable (Nat.digitChar n) := by decide
  have hb := b.toNat_lt
  exact List.forall_mem_cons.mpr ⟨hdigit _ (by omega),
    List.forall_mem_singleton.mpr (hdigit _ (by omega))⟩

theorem printable_encodeByte (b : UInt8) : ∀ c ∈ encodeByte b, Printable c := by
  have hslash : Printable '\\' := by decide
  have hshort : ∀ c, Printable c → ∀ c' ∈ ['\\', c], Printable c' := fun c hc =>
    List.forall_mem_cons.mpr ⟨hslash, List.forall_mem_singleton.mpr hc⟩
  rw [encodeByte]
  split
  · exact hshort '"' (by decide)
  split
  · exact hshort '\'' (by decide)
  split
  · exact hshort '\\' hslash
  split
  · next hrange =>
    have hnat : ∀ n < 127, 32 ≤ n → Printable (Char.ofNat n) := by decide
    have hlow := UInt8.le_iff_toNat_le.mp hrange.1
    have hhigh := UInt8.le_iff_toNat_le.mp hrange.2
    exact List.forall_mem_singleton.mpr (hnat b.toNat (Nat.lt_succ_of_le hhigh) hlow)
  · exact List.forall_mem_cons.mpr ⟨hslash, printable_hexByte b⟩

/-- Bytes are written with printable characters. -/
theorem printable_encode (bytes : ByteArray) : ∀ c ∈ (encode bytes).toList, Printable c := by
  have hquote : Printable '"' := by decide
  rw [encode, String.toList_ofList]
  intro c hc
  rcases List.mem_append.mp hc with hfront | hend
  · rcases List.mem_cons.mp hfront with rfl | hinside
    · exact hquote
    · obtain ⟨b, _, hb⟩ := List.mem_flatMap.mp hinside
      exact printable_encodeByte b c hb
  · rw [List.mem_singleton.mp hend]
    exact hquote

/-- The quoted string that writes bytes is one token. -/
theorem tokenize_encode (bytes : ByteArray) :
    tokenize (encode bytes) = .ok [⟨.atom (encode bytes), .start⟩] := by
  have hscan := Token.scan_quoted [] .start [] (quotedInside_flatMap_encodeByte bytes.data.toList)
  rw [List.append_nil] at hscan
  rw [tokenize, encode, String.toList_ofList, hscan, Token.scan]
  rfl

end Literal

namespace Sexpr

variable {name : String} {before after : List Sexpr}

/-- A bare word is no quoted string. -/
theorem isQuoted_of_bare (h : Token.Bare name) : isQuoted (.atom name) = false := by
  rw [isQuoted, beq_eq_false_iff_ne]
  intro hhead
  obtain ⟨_, _, _, _, hquote⟩ := h.plain '"' (List.mem_of_mem_head? hhead)
  exact hquote rfl

/-- A data field whose name is a bare word denotes its segment also after the module was written and
read. -/
theorem dataSegment?_of_parse_toText (hname : Token.Bare name) (offset : UInt32)
    (bytes : ByteArray) (hothers : ∀ item ∈ before ++ after, Lexable item) :
    ∃ module field,
      parse (Sexpr.list (before ++ dataField name offset bytes :: after)).toText = .ok module ∧
      module.items[before.length]? = some field ∧
      field.dataSegment? = .ok (some ⟨offset, bytes⟩) := by
  obtain ⟨hbefore, hafter⟩ := List.forall_mem_append.mp hothers
  have hfield := lexable_dataField (.bare hname) offset bytes
  have hlexable : Lexable (.list (before ++ dataField name offset bytes :: after)) :=
    .list (List.forall_mem_append.mpr ⟨hbefore, List.forall_mem_cons.mpr ⟨hfield, hafter⟩⟩)
  refine ⟨_, dataField name offset bytes, parse_toText rfl hlexable, ?_,
    dataSegment?_dataField (isQuoted_of_bare hname) offset bytes⟩
  rw [items_list, List.getElem?_append_right (Nat.le_refl _), Nat.sub_self, List.getElem?_cons_zero]

/-- Bytes survive the text form: the quoted string that writes them denotes them and is one
printable token, and their data field denotes the same segment after writing and reading. -/
theorem data_survives_text (bytes : ByteArray) :
    Literal.decode (Literal.encode bytes) = .ok bytes ∧
    tokenize (Literal.encode bytes) = .ok [⟨.atom (Literal.encode bytes), .start⟩] ∧
    (∀ c ∈ (Literal.encode bytes).toList, Literal.Printable c) ∧
    ∀ (name : String) (offset : UInt32) (before after : List Sexpr), Token.Bare name →
      (∀ item ∈ before ++ after, Lexable item) →
      ∃ module field,
        parse (Sexpr.list (before ++ dataField name offset bytes :: after)).toText = .ok module ∧
        module.items[before.length]? = some field ∧
        field.dataSegment? = .ok (some ⟨offset, bytes⟩) := by
  refine ⟨Literal.decode_encode bytes, Literal.tokenize_encode bytes,
    Literal.printable_encode bytes, ?_⟩
  intro name offset before after hname hothers
  exact dataSegment?_of_parse_toText hname offset bytes hothers

/-- The digit behind a byte that is written in hexadecimal is not read as part of it, and the quote
behind the digit does not close the string. -/
theorem parse_toText_digit_behind_byte :
    Token.Bare "$.d" ∧
    ∃ module field,
      parse (Sexpr.list [.atom "module", .list [.atom "memory", .atom "1"],
        dataField "$.d" 4294967295 ⟨#[1, 49, 34, 92]⟩]).toText = .ok module ∧
      module.items[2]? = some field ∧
      field.dataSegment? = .ok (some ⟨4294967295, ⟨#[1, 49, 34, 92]⟩⟩) := by
  have hname : Token.Bare "$.d" := Token.bare_plainText (by decide) (by decide)
  have hword : ∀ word, Token.isWord word = true → Lexable (.atom word) := fun _ h =>
    .atom (Token.lexable_of_isWord h)
  have hmemory : Lexable (.list [.atom "memory", .atom "1"]) :=
    .list (List.forall_mem_cons.mpr ⟨hword _ (by decide),
      List.forall_mem_singleton.mpr (hword _ (by decide))⟩)
  obtain ⟨_, _, _, hread⟩ := data_survives_text ⟨#[1, 49, 34, 92]⟩
  exact ⟨hname, hread "$.d" 4294967295 [.atom "module", .list [.atom "memory", .atom "1"]] [] hname
    (List.forall_mem_cons.mpr ⟨hword _ (by decide), List.forall_mem_singleton.mpr hmemory⟩)⟩

end Sexpr

end WasmTrim
