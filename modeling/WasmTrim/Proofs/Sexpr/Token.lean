import WasmTrim.Sexpr.Token

/-!
# What the tokens of a text are

The atoms that are read from a text are the ones of two shapes: bare words without delimiters, and
quoted strings in which every backslash takes the next character with it. Each of them is read from
its own characters again, wherever these stand.

`Reads` says what some characters add to the tokens of a text, given what follows them. It leaves
positions open, so the characters of a tree can be put together from those of its parts.
-/

namespace WasmTrim.Token

variable {read cs text rest inside : List Char} {c : Char} {word : String}
variable {kinds kinds' : List TokenKind}

/-! ### Shapes of atoms -/

/-- A text without blanks, parentheses, semicolons and quotes. -/
structure Bare (text : String) : Prop where
  ne_nil : text.toList ≠ []
  plain : ∀ c ∈ text.toList, isBlank c = false ∧ c ≠ '(' ∧ c ≠ ')' ∧ c ≠ ';' ∧ c ≠ '"'

/-- Characters that may stand between quotes. -/
inductive QuotedInside : List Char → Prop
  | nil : QuotedInside []
  | plain {c : Char} {cs : List Char} (hquote : c ≠ '"') (hslash : c ≠ '\\')
      (hrest : QuotedInside cs) : QuotedInside (c :: cs)
  | escape (c : Char) {cs : List Char} (hrest : QuotedInside cs) : QuotedInside ('\\' :: c :: cs)

/-- A text that is read as one atom. -/
inductive Lexable : String → Prop
  | bare {text : String} (h : Bare text) : Lexable text
  | quoted {inside : List Char} (h : QuotedInside inside) :
      Lexable (String.ofList ('"' :: inside ++ ['"']))

theorem isDelimiter_eq_false_iff :
    isDelimiter c = false ↔ isBlank c = false ∧ c ≠ '(' ∧ c ≠ ')' ∧ c ≠ ';' ∧ c ≠ '"' := by
  simp [isDelimiter, and_assoc]

/-- A quote is closed behind characters that may stand between quotes. -/
theorem closeQuote_eq_some_iff :
    closeQuote read cs = some (text, rest) ↔
      ∃ inside, QuotedInside inside ∧ cs = inside ++ '"' :: rest ∧
        text = read.reverse ++ inside ++ ['"'] := by
  constructor
  · intro h
    fun_induction closeQuote read cs with
    | case1 => cases h
    | case2 read tail =>
        cases h
        exact ⟨[], .nil, rfl, by simp⟩
    | case3 read c tail ih =>
        obtain ⟨inside, hinside, rfl, rfl⟩ := ih h
        exact ⟨'\\' :: c :: inside, .escape c hinside, rfl, by simp⟩
    | case4 => cases h
    | case5 read c tail hquote hescape hlast ih =>
        have hslash : c ≠ '\\' := by
          rintro rfl
          cases tail with
          | nil => exact hlast rfl rfl
          | cons d tail => exact hescape d tail rfl rfl
        obtain ⟨inside, hinside, rfl, rfl⟩ := ih h
        exact ⟨c :: inside, .plain hquote hslash hinside, rfl, by simp⟩
  · rintro ⟨inside, hinside, rfl, rfl⟩
    induction hinside generalizing read with
    | nil => simp [closeQuote]
    | plain hquote hslash _ ih =>
        rw [List.cons_append, closeQuote, ih]
        · simp
        · exact hquote
        · intro _ _ h _
          exact hslash h
        · intro h _
          exact hslash h
    | escape c _ ih =>
        rw [List.cons_append, List.cons_append, closeQuote, ih]
        simp

/-! ### What is scanned at once -/

/-- Nothing that follows makes a word longer. -/
def Bounded (rest : List Char) : Prop :=
  ∀ c ∈ rest.head?, isDelimiter c = true

theorem bounded_nil : Bounded [] := by
  rintro _ ⟨⟩

theorem bounded_cons (c : Char) (h : isDelimiter c = true) (rest : List Char) :
    Bounded (c :: rest) := by
  rintro _ ⟨⟩
  exact h

/-- A run of characters is taken whole where the next character ends it. -/
theorem takeWhile_dropWhile_append {p : Char → Bool} {front back : List Char}
    (hfront : ∀ c ∈ front, p c = true) (hback : ∀ c ∈ back.head?, p c = false) :
    (front ++ back).takeWhile p = front ∧ (front ++ back).dropWhile p = back := by
  rw [List.takeWhile_append_of_pos hfront, List.dropWhile_append_of_pos hfront]
  cases back with
  | nil => exact ⟨List.append_nil front, rfl⟩
  | cons c back =>
      have hc : ¬ p c = true := by simp [hback c rfl]
      rw [List.takeWhile_cons_of_neg hc, List.dropWhile_cons_of_neg hc]
      exact ⟨List.append_nil front, rfl⟩

section Scan

variable (done : List Token) (place : Position) (rest : List Char)

theorem scan_opening : scan done place ('(' :: rest) =
    scan (⟨.opening, place⟩ :: done) (place.advance '(') rest := by
  rw [scan, if_pos rfl]

theorem scan_closing : scan done place (')' :: rest) =
    scan (⟨.closing, place⟩ :: done) (place.advance ')') rest := by
  rw [scan, if_neg (by decide), if_pos rfl]

theorem scan_blank (h : isBlank c = true) :
    scan done place (c :: rest) = scan done (place.advance c) rest := by
  have hne : ∀ d, isBlank d = false → c ≠ d := by
    rintro d hd rfl
    exact absurd (h.symm.trans hd) (by decide)
  rw [scan, if_neg (hne _ (by decide)), if_neg (hne _ (by decide)), if_neg (hne _ (by decide)),
    if_neg (hne _ (by decide)), if_pos h]

/-- A comment is skipped up to the end of its line. -/
theorem scan_comment (htext : '\n' ∉ text) (hrest : ∀ c ∈ rest.head?, c = '\n') :
    scan done place (';' :: (text ++ rest)) = scan done (place.after (';' :: text)) rest := by
  have hfront : ∀ d ∈ text, (d != '\n') = true := by
    intro d hd
    exact bne_iff_ne.mpr fun hnewline => htext (hnewline ▸ hd)
  have hback : ∀ d ∈ rest.head?, (d != '\n') = false := by
    intro d hd
    rw [hrest d hd]
    rfl
  obtain ⟨htake, hdrop⟩ := takeWhile_dropWhile_append hfront hback
  rw [scan, if_neg (by decide), if_neg (by decide), if_pos rfl, htake, hdrop]

/-- A word is one token, where nothing makes it longer. -/
theorem scan_bare (h : Bare word) (hrest : Bounded rest) :
    scan done place (word.toList ++ rest) =
      scan (⟨.atom word, place⟩ :: done) (place.after word.toList) rest := by
  obtain ⟨c, cs, hword⟩ := List.exists_cons_of_ne_nil h.ne_nil
  have hplain := h.plain
  rw [hword] at hplain
  obtain ⟨⟨hblank, hopen, hclose, hsemicolon, hquote⟩, hcs⟩ := List.forall_mem_cons.mp hplain
  have hkeep : ∀ d ∈ cs, (!isDelimiter d) = true := by
    intro d hd
    rw [isDelimiter_eq_false_iff.mpr (hcs d hd)]
    rfl
  have hend : ∀ d ∈ rest.head?, (!isDelimiter d) = false := by
    intro d hd
    rw [hrest d hd]
    rfl
  obtain ⟨htake, hdrop⟩ := takeWhile_dropWhile_append hkeep hend
  rw [← String.ofList_toList (s := word), String.toList_ofList, hword, List.cons_append, scan,
    if_neg hopen, if_neg hclose, if_neg hsemicolon, if_neg hquote, if_neg (by rw [hblank]; decide)]
  simp only [htake, hdrop]

/-- A quoted string is one token, whatever follows it. -/
theorem scan_quoted (h : QuotedInside inside) :
    scan done place ('"' :: inside ++ ['"'] ++ rest) =
      scan (⟨.atom (String.ofList ('"' :: inside ++ ['"'])), place⟩ :: done)
        (place.after ('"' :: inside ++ ['"'])) rest := by
  have hclose : closeQuote ['"'] (inside ++ '"' :: rest) =
      some ('"' :: inside ++ ['"'], rest) :=
    closeQuote_eq_some_iff.mpr ⟨inside, h, rfl, rfl⟩
  rw [List.cons_append, List.cons_append, List.append_assoc, List.singleton_append, scan,
    if_neg (by decide), if_neg (by decide), if_neg (by decide), if_pos rfl]
  split
  · next hnone =>
    rw [hclose] at hnone
    cases hnone
  · next text rest' hsome =>
    rw [hclose] at hsome
    cases hsome
    rfl

/-- A quote that nothing closes is reported by its place. -/
theorem scan_unclosed (h : closeQuote ['"'] rest = none) :
    scan done place ('"' :: rest) = .error place := by
  rw [scan, if_neg (by decide), if_neg (by decide), if_neg (by decide), if_pos rfl]
  split
  · rfl
  · next hsome =>
    rw [h] at hsome
    cases hsome

end Scan

/-! ### Characters and their tokens -/

/-- In front of `rest`, the characters `cs` are read as tokens of these kinds. -/
def Reads (cs : List Char) (kinds : List TokenKind) (rest : List Char) : Prop :=
  ∀ (done : List Token) (place : Position), ∃ (tokens : List Token) (place' : Position),
    tokens.map Token.kind = kinds ∧
      scan done place (cs ++ rest) = scan (tokens.reverse ++ done) place' rest

theorem Reads.append {cs' : List Char} (h : Reads cs kinds (cs' ++ rest))
    (h' : Reads cs' kinds' rest) : Reads (cs ++ cs') (kinds ++ kinds') rest := by
  intro done place
  obtain ⟨tokens, place', htokens, hscan⟩ := h done place
  obtain ⟨tokens', last, htokens', hscan'⟩ := h' (tokens.reverse ++ done) place'
  refine ⟨tokens ++ tokens', last, ?_, ?_⟩
  · rw [List.map_append, htokens, htokens']
  · rw [List.append_assoc, hscan, hscan', List.reverse_append, List.append_assoc]

theorem reads_opening (rest : List Char) : Reads ['('] [.opening] rest :=
  fun done place => ⟨[⟨.opening, place⟩], _, rfl, scan_opening done place rest⟩

theorem reads_closing (rest : List Char) : Reads [')'] [.closing] rest :=
  fun done place => ⟨[⟨.closing, place⟩], _, rfl, scan_closing done place rest⟩

theorem reads_space (rest : List Char) : Reads [' '] [] rest :=
  fun done place => ⟨[], _, rfl, scan_blank done place rest (by decide)⟩

theorem reads_quoted (h : QuotedInside inside) (rest : List Char) :
    Reads ('"' :: inside ++ ['"']) [.atom (String.ofList ('"' :: inside ++ ['"']))] rest :=
  fun done place => ⟨[⟨.atom (String.ofList ('"' :: inside ++ ['"'])), place⟩], _, rfl,
    scan_quoted done place rest h⟩

theorem reads_bare (h : Bare word) (hrest : Bounded rest) :
    Reads word.toList [.atom word] rest :=
  fun done place => ⟨[⟨.atom word, place⟩], _, rfl, scan_bare done place rest h hrest⟩

end WasmTrim.Token
