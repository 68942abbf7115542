import WasmTrim.Proofs.Sexpr.Token

/-!
# How tokens lie in a text

A text that has tokens is nothing but these tokens, verbatim and in their order, with gaps of blanks
and comments between them; and every token carries the line and the column that are counted from the
characters before it. A text without tokens has a quote outside all strings and comments that
nothing closes, and the place of that quote is reported.

`Layout` says so of a text and of what `tokenize` may answer, and `tokenize` answers nothing else.

## Implementation notes

The scanner stops a comment before the line end, which it then skips as a blank. So what lies
between the last token and the rest of a text is a gap, or a comment that only the rest brings to
its end.
-/

namespace WasmTrim

namespace Position

/-- The place behind some characters of a text: lines are counted by line ends, columns by the
characters since the last of them. -/
def behind (before : List Char) : Position :=
  ⟨before.count '\n' + 1, (before.reverse.takeWhile (· != '\n')).length + 1⟩

theorem behind_append_singleton (before : List Char) (c : Char) :
    behind (before ++ [c]) = (behind before).advance c := by
  by_cases hnewline : c = '\n'
  · simp [behind, advance, hnewline]
  · simp [behind, advance, hnewline]

/-- More characters lead to the place behind all of them. -/
theorem after_behind (before cs : List Char) : (behind before).after cs = behind (before ++ cs) := by
  induction cs generalizing before with
  | nil => rw [List.append_nil, after, List.foldl_nil]
  | cons c cs ih =>
      calc
        (behind before).after (c :: cs) = ((behind before).advance c).after cs := rfl
        _ = (behind (before ++ [c])).after cs := by rw [behind_append_singleton]
        _ = behind (before ++ [c] ++ cs) := ih (before ++ [c])
        _ = behind (before ++ c :: cs) := by rw [List.append_assoc, List.singleton_append]

end Position

namespace TokenKind

/-- The characters of a token. -/
def chars : TokenKind → List Char
  | .opening => ['(']
  | .closing => [')']
  | .atom text => text.toList

/-- Tokens that are bare words. -/
def IsBare (kind : TokenKind) : Prop :=
  ∃ word, kind = .atom word ∧ Token.Bare word

/-- Parentheses, bare words and quoted strings. -/
def IsLexable (kind : TokenKind) : Prop :=
  ∀ text, kind = .atom text → Token.Lexable text

end TokenKind

namespace Token

variable {gap rest text cs source : List Char} {c : Char} {kind : TokenKind}
variable {done : List Token} {place : Position}

/-! ### Gaps -/

/-- Blanks, and comments with the ends of their lines. -/
inductive Gap : List Char → Prop
  | nil : Gap []
  | blank {c : Char} {cs : List Char} (hblank : isBlank c = true) (hrest : Gap cs) : Gap (c :: cs)
  | comment {text cs : List Char} (htext : '\n' ∉ text) (hrest : Gap cs) :
      Gap (';' :: (text ++ '\n' :: cs))

/-- What may stand behind the last token: a gap, and perhaps a comment that the end of the text
ends. -/
inductive LastGap : List Char → Prop
  | closed {gap : List Char} (hgap : Gap gap) : LastGap gap
  | comment {gap text : List Char} (hgap : Gap gap) (htext : '\n' ∉ text) :
      LastGap (gap ++ ';' :: text)

/-- What may stand between a token and the rest of a text: a gap, or one that `rest` closes. -/
def Between (gap rest : List Char) : Prop :=
  Gap gap ∨ LastGap gap ∧ ∀ c ∈ rest.head?, c = '\n'

theorem Gap.append {cs' : List Char} (h : Gap cs) (h' : Gap cs') : Gap (cs ++ cs') := by
  induction h with
  | nil => exact h'
  | blank hblank _ ih => exact .blank hblank ih
  | @comment text cs htext _ ih =>
      rw [List.cons_append, List.append_assoc, List.cons_append]
      exact .comment htext ih

theorem gap_singleton (h : isBlank c = true) : Gap [c] :=
  .blank h .nil

/-- A line end closes a gap. -/
theorem LastGap.append_newline (h : LastGap gap) : Gap (gap ++ ['\n']) := by
  cases h with
  | closed hgap => exact hgap.append (gap_singleton (by decide))
  | comment hgap htext =>
      rw [List.append_assoc, List.cons_append]
      exact hgap.append (.comment htext .nil)

theorem Between.lastGap (h : Between gap rest) : LastGap gap :=
  h.elim .closed And.left

theorem Between.gap_of_ne (h : Between gap (c :: rest)) (hc : c ≠ '\n') : Gap gap :=
  h.resolve_right fun hopen => hc (hopen.2 c rfl)

/-- A blank continues what stands between tokens, and closes it if that is open. -/
theorem Between.append_blank (h : Between gap (c :: rest)) (hblank : isBlank c = true) :
    Gap (gap ++ [c]) := by
  rcases h with hgap | ⟨hlast, hnewline⟩
  · exact hgap.append (gap_singleton hblank)
  · rw [hnewline c rfl]
    exact hlast.append_newline

/-- No gap makes a word in front of it longer. -/
theorem LastGap.bounded (h : LastGap gap) : Bounded gap := by
  have hblank : ∀ c, isBlank c = true → isDelimiter c = true := by
    intro c hc
    simp [isDelimiter, hc]
  cases h with
  | closed hgap =>
      cases hgap with
      | nil => exact bounded_nil
      | blank hc _ => exact bounded_cons _ (hblank _ hc) _
      | comment => exact bounded_cons _ (by decide) _
  | comment hgap _ =>
      cases hgap with
      | nil => exact bounded_cons _ (by decide) _
      | blank hc _ => exact bounded_cons _ (hblank _ hc) _
      | comment => exact bounded_cons _ (by decide) _

theorem scan_gap (h : Gap gap) (done : List Token) (place : Position) (rest : List Char) :
    scan done place (gap ++ rest) = scan done (place.after gap) rest := by
  induction h generalizing place with
  | nil => rfl
  | blank hblank _ ih => exact (scan_blank done place _ hblank).trans (ih _)
  | @comment text cs htext _ ih =>
      have hnewline : ∀ c ∈ ('\n' :: (cs ++ rest)).head?, c = '\n' := by
        rintro _ ⟨⟩
        rfl
      calc
        scan done place (';' :: (text ++ '\n' :: cs) ++ rest)
          = scan done place (';' :: (text ++ '\n' :: (cs ++ rest))) := by simp
        _ = scan done (place.after (';' :: text)) ('\n' :: (cs ++ rest)) :=
          scan_comment done place _ htext hnewline
        _ = scan done ((place.after (';' :: text)).advance '\n') (cs ++ rest) :=
          scan_blank done _ _ (by decide)
        _ = scan done (((place.after (';' :: text)).advance '\n').after cs) rest := ih _
        _ = scan done (place.after (';' :: (text ++ '\n' :: cs))) rest := by
          simp [Position.after]

/-- Behind the last token there are no more tokens. -/
theorem scan_lastGap (h : LastGap gap) (done : List Token) (place : Position) :
    scan done place gap = .ok done.reverse := by
  cases h with
  | closed hgap =>
      have hscan := scan_gap hgap done place []
      rwa [List.append_nil, scan] at hscan
  | @comment gap text hgap htext =>
      have hscan := scan_comment done (place.after gap) [] htext (by rintro _ ⟨⟩)
      rw [List.append_nil, scan] at hscan
      rw [scan_gap hgap, hscan]

/-! ### One token -/

theorem scan_token (h : kind.IsLexable) (hrest : kind.IsBare → Bounded rest) (done : List Token)
    (place : Position) :
    scan done place (kind.chars ++ rest) =
      scan (⟨kind, place⟩ :: done) (place.after kind.chars) rest := by
  cases kind with
  | opening => exact scan_opening done place rest
  | closing => exact scan_closing done place rest
  | atom text =>
      cases h text rfl with
      | bare hbare => exact scan_bare done place rest hbare (hrest ⟨text, rfl, hbare⟩)
      | quoted hquoted =>
          rw [TokenKind.chars, String.toList_ofList]
          exact scan_quoted done place rest hquoted

/-- What is no bare word makes no word in front of it longer. -/
theorem bounded_chars (h : kind.IsLexable) (hbare : ¬ kind.IsBare) (rest : List Char) :
    Bounded (kind.chars ++ rest) := by
  cases kind with
  | opening => exact bounded_cons _ (by decide) _
  | closing => exact bounded_cons _ (by decide) _
  | atom text =>
      cases h text rfl with
      | bare hword => exact absurd ⟨text, rfl, hword⟩ hbare
      | quoted =>
          rw [TokenKind.chars, String.toList_ofList]
          exact bounded_cons _ (by decide) _

/-- A bare word makes one in front of it longer. -/
theorem not_bounded_chars (h : kind.IsBare) (rest : List Char) :
    ¬ Bounded (kind.chars ++ rest) := by
  obtain ⟨word, rfl, hword⟩ := h
  obtain ⟨c, cs, hchars⟩ := List.exists_cons_of_ne_nil hword.ne_nil
  intro hbounded
  rw [TokenKind.chars, hchars] at hbounded
  have hc := hword.plain c (by rw [hchars]; exact List.mem_cons_self ..)
  exact absurd (hbounded c rfl) (by rw [isDelimiter_eq_false_iff.mpr hc]; decide)

theorem isLexable_atom {text : String} (h : Lexable text) : (TokenKind.atom text).IsLexable := by
  rintro _ ⟨⟩
  exact h

theorem not_isBare_quote : ¬ (TokenKind.atom (String.ofList ('"' :: cs))).IsBare := by
  rintro ⟨word, hword, hbare⟩
  obtain ⟨_, _, _, _, hquote⟩ := hbare.plain '"' (by
    rw [← TokenKind.atom.inj hword, String.toList_ofList]
    exact List.mem_cons_self ..)
  exact hquote rfl

/-! ### Texts -/

/-- A token and the gap in front of it. -/
structure Spaced where
  /-- The characters between the token before and this one. -/
  gap : List Char
  /-- The token. -/
  token : Token

/-- The characters of a gap and its token. -/
def Spaced.chars (s : Spaced) : List Char :=
  s.gap ++ s.token.kind.chars

/-- The characters of tokens and of the gaps in front of them. -/
def charsOf (pieces : List Spaced) : List Char :=
  pieces.flatMap Spaced.chars

/-- The last of some tokens is a bare word. -/
def EndsBare (pieces : List Spaced) : Prop :=
  ∃ s ∈ pieces.getLast?, s.token.kind.IsBare

/-- Tokens with gaps in front of them, each at the place behind all characters before it. Bare words
are kept apart. -/
inductive Laid : List Spaced → Prop
  | nil : Laid []
  | snoc {front : List Spaced} {s : Spaced} (hfront : Laid front) (hgap : Gap s.gap)
      (hlexable : s.token.kind.IsLexable)
      (hapart : EndsBare front → s.token.kind.IsBare → s.gap ≠ [])
      (hplace : s.token.position = .behind (charsOf front ++ s.gap)) : Laid (front ++ [s])

/-- Nothing behind a quote closes it. -/
def NeverClosed (rest : List Char) : Prop :=
  ∀ inside after, rest = inside ++ '"' :: after → ¬ QuotedInside inside

/-- What a text is, by its tokens: these with gaps between them and behind the last one, or, where
there is an error, tokens and gaps up to a quote that is never closed. -/
inductive Layout (source : List Char) : Except Position (List Token) → Prop
  | tokens {pieces : List Spaced} {last : List Char} (hlaid : Laid pieces) (hlast : LastGap last)
      (hsource : source = charsOf pieces ++ last) : Layout source (.ok (pieces.map Spaced.token))
  | unclosed {pieces : List Spaced} {gap rest : List Char} (hlaid : Laid pieces) (hgap : Gap gap)
      (hsource : source = charsOf pieces ++ gap ++ '"' :: rest) (hrest : NeverClosed rest) :
      Layout source (.error (.behind (charsOf pieces ++ gap)))

theorem closeQuote_eq_none_iff {read : List Char} :
    closeQuote read rest = none ↔ NeverClosed rest := by
  rw [Option.eq_none_iff_forall_ne_some]
  constructor
  · intro h inside after hrest hinside
    exact h _ (closeQuote_eq_some_iff.mpr ⟨inside, hinside, hrest, rfl⟩)
  · rintro h ⟨text, after⟩ hsome
    obtain ⟨inside, hinside, hrest, _⟩ := closeQuote_eq_some_iff.mp hsome
    exact h inside after hrest hinside

theorem charsOf_append_singleton (front : List Spaced) (s : Spaced) :
    charsOf (front ++ [s]) = charsOf front ++ s.gap ++ s.token.kind.chars := by
  simp [charsOf, Spaced.chars]

theorem endsBare_append_singleton {front : List Spaced} {s : Spaced} :
    EndsBare (front ++ [s]) ↔ s.token.kind.IsBare := by
  simp [EndsBare]

/-! ### From the layout to the tokens -/

/-- Text that is laid out is scanned as its tokens. -/
theorem scan_charsOf {pieces : List Spaced} (h : Laid pieces) (hrest : EndsBare pieces → Bounded rest) :
    scan [] .start (charsOf pieces ++ rest) =
      scan (pieces.map Spaced.token).reverse (.behind (charsOf pieces)) rest := by
  induction h generalizing rest with
  | nil => rfl
  | @snoc front s _ hgap hlexable hapart hplace ih =>
      have hrest' : s.token.kind.IsBare → Bounded rest := fun hbare =>
        hrest (endsBare_append_singleton.mpr hbare)
      have hfront : EndsBare front → Bounded (s.gap ++ (s.token.kind.chars ++ rest)) := by
        intro hends
        cases hcase : s.gap with
        | nil =>
            have hbare : ¬ s.token.kind.IsBare := fun hbare => hapart hends hbare hcase
            exact bounded_chars hlexable hbare rest
        | cons c cs =>
            have hbounded := (LastGap.closed hgap).bounded
            rw [hcase] at hbounded
            exact bounded_cons c (hbounded c rfl) _
      calc
        scan [] .start (charsOf (front ++ [s]) ++ rest)
          = scan [] .start (charsOf front ++ (s.gap ++ (s.token.kind.chars ++ rest))) := by
            rw [charsOf_append_singleton, List.append_assoc, List.append_assoc]
        _ = scan (front.map Spaced.token).reverse (.behind (charsOf front))
              (s.gap ++ (s.token.kind.chars ++ rest)) := ih hfront
        _ = scan (front.map Spaced.token).reverse (.behind (charsOf front ++ s.gap))
              (s.token.kind.chars ++ rest) := by
            rw [scan_gap hgap, Position.after_behind]
        _ = scan (s.token :: (front.map Spaced.token).reverse)
              (.behind (charsOf (front ++ [s]))) rest := by
            rw [scan_token hlexable hrest', Position.after_behind, ← hplace,
              ← charsOf_append_singleton]
        _ = scan ((front ++ [s]).map Spaced.token).reverse (.behind (charsOf (front ++ [s]))) rest := by
            simp

theorem tokenize_of_layout {source : String} {outcome : Except Position (List Token)}
    (h : Layout source.toList outcome) : tokenize source = outcome := by
  rw [tokenize]
  cases h with
  | @tokens pieces last hlaid hlast hsource =>
      rw [hsource, scan_charsOf hlaid fun _ => hlast.bounded, scan_lastGap hlast,
        List.reverse_reverse]
  | @unclosed pieces gap rest hlaid hgap hsource hrest =>
      have hbounded : Bounded (gap ++ '"' :: rest) := by
        cases gap with
        | nil => exact bounded_cons _ (by decide) _
        | cons c cs => exact bounded_cons c ((LastGap.closed hgap).bounded c rfl) _
      rw [hsource, List.append_assoc, scan_charsOf hlaid fun _ => hbounded, scan_gap hgap,
        Position.after_behind, scan_unclosed _ _ _ (closeQuote_eq_none_iff.mpr hrest)]

/-! ### From the tokens to the layout -/

/-- A character that ends no word and those behind it, up to one that does, are a word. -/
theorem bare_cons_takeWhile (h : isDelimiter c = false) (rest : List Char) :
    Bare (String.ofList (c :: rest.takeWhile fun d => !isDelimiter d)) where
  ne_nil := by
    rw [String.toList_ofList]
    exact List.cons_ne_nil _ _
  plain d hd := by
    rw [String.toList_ofList] at hd
    apply isDelimiter_eq_false_iff.mp
    rcases List.mem_cons.mp hd with rfl | hd
    · exact h
    · exact (Bool.not_eq_true' _).mp (List.all_eq_true.mp List.all_takeWhile d hd)

/-- How far a text was scanned: the tokens that were read lie in front of the rest. -/
structure Reached (source : List Char) (done : List Token) (place : Position) (rest : List Char)
    (pieces : List Spaced) (gap : List Char) : Prop where
  laid : Laid pieces
  between : Between gap rest
  source_eq : source = charsOf pieces ++ gap ++ rest
  done_eq : done = (pieces.map Spaced.token).reverse
  place_eq : place = .behind (charsOf pieces ++ gap)
  bounded : EndsBare pieces → gap = [] → Bounded rest

namespace Reached

variable {pieces : List Spaced}

theorem start (source : List Char) : Reached source [] .start source [] [] where
  laid := .nil
  between := Or.inl .nil
  source_eq := rfl
  done_eq := rfl
  place_eq := rfl
  bounded := by rintro ⟨_, ⟨⟩, _⟩

/-- One more token is read. -/
theorem token (kind : TokenKind) (rest : List Char)
    (h : Reached source done place cs pieces gap) (hcs : cs = kind.chars ++ rest) (hgap : Gap gap)
    (hlexable : kind.IsLexable) (hrest : kind.IsBare → Bounded rest) :
    Reached source (⟨kind, place⟩ :: done) (place.after kind.chars) rest
      (pieces ++ [⟨gap, ⟨kind, place⟩⟩]) [] where
  laid := by
    refine .snoc h.laid hgap hlexable ?_ h.place_eq
    intro hends hbare hnil
    have hbounded := h.bounded hends hnil
    rw [hcs] at hbounded
    exact not_bounded_chars hbare rest hbounded
  between := Or.inl .nil
  source_eq := by rw [h.source_eq, hcs, charsOf_append_singleton]; simp
  done_eq := by simp [h.done_eq]
  place_eq := by
    rw [charsOf_append_singleton, h.place_eq, Position.after_behind, List.append_nil]
  bounded := fun hends _ => hrest (endsBare_append_singleton.mp hends)

/-- More of a gap is skipped. -/
theorem skip (h : Reached source done place (cs ++ rest) pieces gap) (hne : cs ≠ [])
    (hgap : Between (gap ++ cs) rest) :
    Reached source done (place.after cs) rest pieces (gap ++ cs) where
  laid := h.laid
  between := hgap
  source_eq := by rw [h.source_eq]; simp
  done_eq := h.done_eq
  place_eq := by rw [h.place_eq, Position.after_behind, List.append_assoc]
  bounded := fun _ hnil => absurd (List.append_eq_nil_iff.mp hnil).2 hne

end Reached

theorem layout_scan {pieces : List Spaced} (h : Reached source done place cs pieces gap) :
    Layout source (scan done place cs) := by
  fun_induction scan done place cs generalizing pieces gap with
  | case1 done place =>
      rw [h.done_eq, List.reverse_reverse]
      exact .tokens h.laid h.between.lastGap (by rw [h.source_eq, List.append_nil])
  | case2 done place rest ih =>
      exact ih (h.token .opening rest rfl (h.between.gap_of_ne (by decide)) (by rintro _ ⟨⟩)
        (by rintro ⟨_, ⟨⟩, _⟩))
  | case3 done place rest _ ih =>
      exact ih (h.token .closing rest rfl (h.between.gap_of_ne (by decide)) (by rintro _ ⟨⟩)
        (by rintro ⟨_, ⟨⟩, _⟩))
  | case4 done place rest _ _ ih =>
      have hgap := h.between.gap_of_ne (by decide)
      have hsplit : ';' :: rest =
          (';' :: rest.takeWhile (· != '\n')) ++ rest.dropWhile (· != '\n') := by
        rw [List.cons_append, List.takeWhile_append_dropWhile]
      rw [hsplit] at h
      refine ih (h.skip (List.cons_ne_nil _ _) (Or.inr ⟨.comment hgap ?_, ?_⟩))
      · intro hmem
        exact absurd (List.all_eq_true.mp List.all_takeWhile _ hmem) (by decide)
      · intro c hc
        have hhead := List.head?_dropWhile_not (· != '\n') rest
        rw [hc] at hhead
        simpa using hhead
  | case5 done place rest hnone =>
      rw [h.place_eq]
      exact .unclosed h.laid (h.between.gap_of_ne (by decide)) h.source_eq
        (closeQuote_eq_none_iff.mp hnone)
  | case6 done place rest text rest' hclose _ _ _ _ ih =>
      obtain ⟨inside, hinside, rfl, rfl⟩ := closeQuote_eq_some_iff.mp hclose
      have hchars : (TokenKind.atom (String.ofList ('"' :: inside ++ ['"']))).chars =
          '"' :: inside ++ ['"'] := String.toList_ofList
      have hread := h.token (.atom (String.ofList ('"' :: inside ++ ['"']))) rest'
        (by rw [hchars]; simp) (h.between.gap_of_ne (by decide))
        (isLexable_atom (.quoted hinside)) fun hbare => absurd hbare not_isBare_quote
      rw [hchars] at hread
      exact ih hread
  | case7 done place c rest _ _ _ _ hblank ih =>
      exact ih (h.skip (List.cons_ne_nil _ _) (Or.inl (h.between.append_blank hblank)))
  | case8 done place c rest hopen hclose hsemicolon hquote hblank word =>
      rename_i ih
      have hplain : isDelimiter c = false := isDelimiter_eq_false_iff.mpr
        ⟨Bool.eq_false_iff.mpr hblank, hopen, hclose, hsemicolon, hquote⟩
      have hbare := bare_cons_takeWhile hplain rest
      have hchars : (TokenKind.atom (String.ofList word)).chars = word := String.toList_ofList
      have hread := h.token (.atom (String.ofList word)) (rest.dropWhile fun d => !isDelimiter d)
        (by rw [hchars, List.cons_append, List.takeWhile_append_dropWhile])
        (h.between.gap_of_ne ?_) (isLexable_atom (.bare hbare)) fun _ d hd => ?_
      · rw [hchars] at hread
        exact ih hread
      · rintro rfl
        exact hblank (by decide)
      · have hhead := List.head?_dropWhile_not (fun d => !isDelimiter d) rest
        rw [hd] at hhead
        simpa using hhead

/-- Every atom among some tokens can be read. -/
def AtomsLexable (tokens : List Token) : Prop :=
  ∀ token ∈ tokens, token.kind.IsLexable

theorem AtomsLexable.tail {token : Token} {tokens : List Token}
    (h : AtomsLexable (token :: tokens)) : AtomsLexable tokens :=
  fun token' hmem => h token' (List.mem_cons_of_mem token hmem)

theorem Laid.atomsLexable {pieces : List Spaced} (h : Laid pieces) :
    AtomsLexable (pieces.map Spaced.token) := by
  induction h with
  | nil => exact fun token hmem => absurd hmem List.not_mem_nil
  | snoc _ _ hlexable _ _ ih =>
      rw [List.map_append]
      exact List.forall_mem_append.mpr ⟨ih, List.forall_mem_singleton.mpr hlexable⟩

theorem atomsLexable_of_tokenize {source : String} {tokens : List Token}
    (h : tokenize source = .ok tokens) : AtomsLexable tokens := by
  have hlayout := layout_scan (.start source.toList)
  rw [tokenize] at h
  rw [h] at hlayout
  cases hlayout with
  | tokens hlaid => exact hlaid.atomsLexable

/-- `tokenize` gives tokens exactly if they lie in the text with gaps between them, each at its line
and column, and otherwise the place of the quote that nothing closes. -/
theorem tokenize_eq_iff_layout (source : String) (outcome : Except Position (List Token)) :
    tokenize source = outcome ↔ Layout source.toList outcome := by
  constructor
  · rintro rfl
    exact layout_scan (.start source.toList)
  · exact tokenize_of_layout

end Token

end WasmTrim
