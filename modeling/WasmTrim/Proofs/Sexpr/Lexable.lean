import WasmTrim.Proofs.Module.DataSegment
import WasmTrim.Proofs.Module.Fields
import WasmTrim.Proofs.Sexpr.Literal
import WasmTrim.Proofs.Sexpr.Parse
import WasmTrim.Proofs.Text.Numerals

/-!
# Atoms that are put together

A pass over a module makes atoms of its own: words, numerals, identifiers and quoted names that are
glued from names, and quoted bytes. Each of them is read as one atom. For names this takes
characters that end no word and that mean nothing between quotes; bytes are escaped and need
nothing.
-/

namespace WasmTrim

namespace Token

variable {name word : String} {cs cs' : List Char}

/-- A character that may stand in a name: no blank, no parenthesis, no semicolon, no double quote
and no backslash. -/
def Plain (c : Char) : Prop :=
  isBlank c = false ∧ c ≠ '(' ∧ c ≠ ')' ∧ c ≠ ';' ∧ c ≠ '"' ∧ c ≠ '\\'

/-- A text with plain characters only. -/
def PlainText (text : String) : Prop :=
  ∀ c ∈ text.toList, Plain c

/-- Tells whether a character is plain. -/
def isPlain (c : Char) : Bool :=
  !isDelimiter c && c != '\\'

theorem isPlain_eq_true_iff {c : Char} : isPlain c = true ↔ Plain c := by
  simp [isPlain, isDelimiter_eq_false_iff, Plain, and_assoc]

instance : DecidablePred PlainText := fun text =>
  decidable_of_iff (text.toList.all isPlain = true) (by
    rw [List.all_eq_true]
    exact forall₂_congr fun _ _ => isPlain_eq_true_iff)

theorem PlainText.append {other : String} (h : PlainText name) (h' : PlainText other) :
    PlainText (name ++ other) := by
  intro c hc
  rw [String.toList_append] at hc
  exact (List.mem_append.mp hc).elim (h c) (h' c)

theorem bare_plainText (hne : word.toList ≠ []) (h : PlainText word) : Bare word where
  ne_nil := hne
  plain c hc := by
    obtain ⟨hblank, hopen, hclose, hsemicolon, hquote, _⟩ := h c hc
    exact ⟨hblank, hopen, hclose, hsemicolon, hquote⟩

/-- A plain text that is not empty is a word. -/
theorem lexable_plainText (hne : word.toList ≠ []) (h : PlainText word) : Lexable word :=
  .bare (bare_plainText hne h)

/-- Tells whether a text is plain and not empty. -/
def isWord (text : String) : Bool :=
  text != "" && text.toList.all isPlain

theorem lexable_of_isWord (h : isWord word = true) : Lexable word := by
  obtain ⟨hne, hplain⟩ := Bool.and_eq_true_iff.mp h
  apply lexable_plainText
  · intro hnil
    rw [String.toList_eq_nil_iff] at hnil
    exact absurd hnil (bne_iff_ne.mp hne)
  · intro c hc
    exact isPlain_eq_true_iff.mp (List.all_eq_true.mp hplain c hc)

theorem lexable_words (words : List String) (h : words.all isWord = true) :
    ∀ word ∈ words, Lexable word :=
  fun word hword => lexable_of_isWord (List.all_eq_true.mp h word hword)

/-- A dollar sign and a plain name make an identifier. -/
theorem lexable_identifier (h : PlainText name) : Lexable ("$" ++ name) := by
  apply lexable_plainText
  · rw [String.toList_append]
    exact List.append_ne_nil_of_left_ne_nil (by decide) _
  · exact PlainText.append (by decide) h

theorem isDigit_imp_plain {c : Char} (h : c.isDigit = true) : Plain c := by
  have hascii : ∀ n < 128, (Char.ofNat n).isDigit = true → isPlain (Char.ofNat n) = true := by
    decide
  have hrange : c.toNat < 128 := by
    simp only [Char.isDigit, ge_iff_le, Bool.and_eq_true, decide_eq_true_eq] at h
    have hle := UInt32.le_iff_toNat_le.mp h.2
    exact Nat.lt_of_le_of_lt hle (by decide)
  rw [← Char.ofNat_toNat c] at h ⊢
  exact isPlain_eq_true_iff.mp (hascii c.toNat hrange h)

/-- A numeral in decimal is a word. -/
theorem lexable_toString (n : Nat) : Lexable (toString n) := by
  have h := isDecimal_toDigits n
  apply lexable_plainText
  · rw [Nat.toString_eq_repr, Nat.toList_repr]
    exact h.ne_nil
  · intro c hc
    rw [Nat.toString_eq_repr, Nat.toList_repr] at hc
    exact isDigit_imp_plain (h.isDigit c hc)

/-! ### Quoted atoms -/

theorem QuotedInside.append (h : QuotedInside cs) (h' : QuotedInside cs') :
    QuotedInside (cs ++ cs') := by
  induction h with
  | nil => exact h'
  | plain hquote hslash _ ih => exact .plain hquote hslash ih
  | escape c _ ih => exact .escape c ih

theorem quotedInside_of_plain (h : ∀ c ∈ cs, c ≠ '"' ∧ c ≠ '\\') : QuotedInside cs := by
  induction cs with
  | nil => exact .nil
  | cons c rest ih =>
      obtain ⟨⟨hquote, hslash⟩, hrest⟩ := List.forall_mem_cons.mp h
      exact .plain hquote hslash (ih hrest)

/-- A plain name between quotes is a quoted string. -/
theorem lexable_quote (h : PlainText name) : Lexable ("\"" ++ name ++ "\"") := by
  have htext : "\"" ++ name ++ "\"" = String.ofList ('"' :: name.toList ++ ['"']) := by
    apply String.toList_inj.mp
    rw [String.toList_append, String.toList_append, String.toList_ofList]
    simp
  rw [htext]
  apply Lexable.quoted
  apply quotedInside_of_plain
  intro c hc
  obtain ⟨_, _, _, _, hquote, hslash⟩ := h c hc
  exact ⟨hquote, hslash⟩

end Token

namespace Literal

open Token (QuotedInside)

/-- What writes a byte may stand between quotes: a quote or a backslash only behind a backslash. -/
theorem quotedInside_encodeByte (b : UInt8) : QuotedInside (encodeByte b) := by
  have hascii : ∀ n < 127, n ≠ 34 → n ≠ 92 → Char.ofNat n ≠ '"' ∧ Char.ofNat n ≠ '\\' := by
    decide
  rw [encodeByte]
  split
  · exact .escape _ .nil
  next hquote =>
  split
  · exact .escape _ .nil
  split
  · exact .escape _ .nil
  next hslash =>
  split
  · next hprintable =>
    have hle := UInt8.le_iff_toNat_le.mp hprintable.2
    obtain ⟨hquote', hslash'⟩ := hascii b.toNat (Nat.lt_succ_of_le hle)
      (fun h => hquote (UInt8.toNat_inj.mp h)) (fun h => hslash (UInt8.toNat_inj.mp h))
    exact .plain hquote' hslash' .nil
  · have hdigit : ∀ n < 16, Nat.digitChar n ≠ '"' ∧ Nat.digitChar n ≠ '\\' := by decide
    have hb := b.toNat_lt
    obtain ⟨hquote', hslash'⟩ := hdigit (b.toNat % 16) (by omega)
    exact .escape _ (.plain hquote' hslash' .nil)

theorem quotedInside_flatMap_encodeByte (bytes : List UInt8) :
    QuotedInside (bytes.flatMap encodeByte) := by
  induction bytes with
  | nil => exact .nil
  | cons b rest ih =>
      rw [List.flatMap_cons]
      exact (quotedInside_encodeByte b).append ih

/-- The quoted string that writes bytes is read as one atom. -/
theorem lexable_encode (bytes : ByteArray) : Token.Lexable (encode bytes) :=
  .quoted (quotedInside_flatMap_encodeByte bytes.data.toList)

end Literal

namespace Sexpr

variable {module : Sexpr} {args ts : List Sexpr} {text name : String}

@[simp] theorem lexable_atom_iff : Lexable (.atom text) ↔ Token.Lexable text := by
  constructor
  · rintro ⟨h⟩
    exact h
  · exact .atom

@[simp] theorem lexable_list_iff : Lexable (.list ts) ↔ ∀ t ∈ ts, Lexable t := by
  constructor
  · rintro (_ | ⟨h⟩)
    exact h
  · exact .list

/-- The constant of a word can be read. -/
theorem lexable_i32Const (value : UInt32) : Lexable (i32Const value) := by
  have hkeyword : Token.Lexable "i32.const" := Token.lexable_of_isWord (by decide)
  have hvalue : Token.Lexable (toString value.toNat) := Token.lexable_toString value.toNat
  simpa [i32Const, hkeyword] using hvalue

/-- A call can be read if its target is a plain name and its arguments can be read. -/
theorem lexable_call (hname : Token.PlainText name) (hargs : ∀ arg ∈ args, Lexable arg) :
    Lexable (call name args) := by
  have hkeyword : Token.Lexable "call" := Token.lexable_of_isWord (by decide)
  have htarget := Token.lexable_identifier hname
  simpa [call, hkeyword, htarget] using hargs

/-- The field of a data segment can be read if its name can. -/
theorem lexable_dataField (hname : Token.Lexable name) (offset : UInt32) (bytes : ByteArray) :
    Lexable (dataField name offset bytes) := by
  have hkeyword : Token.Lexable "data" := Token.lexable_of_isWord (by decide)
  have hoffset := lexable_i32Const offset
  have hbytes := Literal.lexable_encode bytes
  simp [dataField, hkeyword, hname, hoffset, hbytes]

/-- The items of a tree can be read if the tree can. -/
theorem Lexable.items (h : Lexable module) : ∀ item ∈ module.items, Lexable item := by
  cases h with
  | atom => simp
  | list hitems => exact hitems

theorem Lexable.fields (h : Lexable module) : ∀ field ∈ module.fields, Lexable field := by
  intro field hfield
  exact h.items field ((List.dropWhile_suffix _).mem hfield)

theorem Lexable.header (h : Lexable module) : ∀ item ∈ module.header, Lexable item := by
  intro item hitem
  rw [Sexpr.header] at hitem
  split at hitem
  · have hkeyword : Token.Lexable "module" := Token.lexable_of_isWord (by decide)
    rw [List.mem_singleton.mp hitem]
    exact .atom hkeyword
  · exact h.items item ((List.takeWhile_prefix _).mem hitem)

/-- A module can be read if its header and its new fields can. -/
theorem Lexable.withFields (h : Lexable module) (hfields : ∀ field ∈ ts, Lexable field) :
    Lexable (module.withFields ts) := by
  rw [Sexpr.withFields, lexable_list_iff]
  exact List.forall_mem_append.mpr ⟨h.header, hfields⟩

end Sexpr

end WasmTrim
