import WasmTrim.Proofs.Sexpr.Layout
import WasmTrim.Sexpr.Parse

/-!
# Reading back what was written

A tree is read back from its own text exactly when it is a list all of whose atoms have one of the
two shapes that the reader gives to atoms. Every tree that was read from some text is such a list,
so writing and reading it again changes nothing.

## Implementation notes

Between a tree and its text stand two sequences: the characters that are written, as a list that can
be taken apart, and the kinds of the tokens that are read. Both follow the structure of the tree.
-/

namespace WasmTrim

open Token (Bounded Reads AtomsLexable bounded_nil bounded_cons)

namespace Sexpr

variable {t last : Sexpr} {items : List Sexpr} {opened : List (List Sexpr)}
variable {tokens : List Token} {rest : List Char}

/-- A tree all of whose atoms can be read. -/
inductive Lexable : Sexpr → Prop
  | atom {text : String} (h : Token.Lexable text) : Lexable (.atom text)
  | list {items : List Sexpr} (h : ∀ item ∈ items, Lexable item) : Lexable (.list items)

mutual

/-- The characters that are written for a tree. -/
def chars : Sexpr → List Char
  | .atom text => text.toList
  | .list items => '(' :: (charsIn items ++ [')'])

/-- The characters that are written for trees, with a space between neighbours. -/
def charsIn : List Sexpr → List Char
  | [] => []
  | [t] => chars t
  | t :: u :: rest => chars t ++ ' ' :: charsIn (u :: rest)

end

mutual

/-- The kinds of a tree's tokens. -/
def kinds : Sexpr → List TokenKind
  | .atom text => [.atom text]
  | .list items => .opening :: (kindsIn items ++ [.closing])

/-- The kinds of the tokens of trees. -/
def kindsIn : List Sexpr → List TokenKind
  | [] => []
  | t :: rest => kinds t ++ kindsIn rest

end

mutual

theorem toList_write (out : String) : (t : Sexpr) → (write out t).toList = out.toList ++ chars t
  | .atom text => by rw [write, chars, String.toList_append]
  | .list items => by
    rw [write, chars, String.toList_push, toList_writeItems, String.toList_push, List.append_assoc,
      List.append_assoc, List.singleton_append]

theorem toList_writeItems (out : String) :
    (items : List Sexpr) → (writeItems out items).toList = out.toList ++ charsIn items
  | [] => (List.append_nil _).symm
  | [t] => by rw [writeItems, charsIn, toList_write]
  | t :: u :: rest => by
    rw [writeItems, charsIn, toList_writeItems, String.toList_push, toList_write]
    simp only [List.append_assoc, List.singleton_append]

end

theorem toList_toText (t : Sexpr) : t.toText.toList = chars t := by
  rw [toText, toList_write]
  rfl

mutual

/-- The characters of a tree are read as its tokens. -/
theorem reads_chars : (t : Sexpr) → Lexable t → ∀ {rest : List Char}, Bounded rest →
    Reads (chars t) (kinds t) rest
  | .atom text, h, rest, hrest => by
    cases h with
    | atom htext =>
        cases htext with
        | bare hbare => exact Token.reads_bare hbare hrest
        | quoted hquoted =>
            rw [chars, kinds, String.toList_ofList]
            exact Token.reads_quoted hquoted rest
  | .list items, h, rest, _ => by
    cases h with
    | list hitems =>
        have hinside := reads_charsIn items hitems (bounded_cons ')' (by decide) rest)
        exact (Token.reads_opening _).append (hinside.append (Token.reads_closing rest))

/-- The characters of trees are read as their tokens. -/
theorem reads_charsIn : (items : List Sexpr) → (∀ item ∈ items, Lexable item) →
    ∀ {rest : List Char}, Bounded rest → Reads (charsIn items) (kindsIn items) rest
  | [], _, rest, _ => fun done place => ⟨[], place, rfl, rfl⟩
  | [t], h, rest, hrest => by
    rw [charsIn, kindsIn, kindsIn, List.append_nil]
    exact reads_chars t (h t (List.mem_singleton_self t)) hrest
  | t :: u :: items, h, rest, hrest => by
    obtain ⟨ht, hitems⟩ := List.forall_mem_cons.mp h
    have hfirst := reads_chars t ht (bounded_cons ' ' (by decide) (charsIn (u :: items) ++ rest))
    have hothers := reads_charsIn (u :: items) hitems hrest
    exact hfirst.append ((Token.reads_space _).append hothers)

end

theorem tokenize_toText (h : Lexable t) :
    ∃ tokens, tokenize t.toText = .ok tokens ∧ tokens.map Token.kind = kinds t := by
  obtain ⟨tokens, place, hkinds, hscan⟩ := reads_chars t h bounded_nil [] .start
  refine ⟨tokens, ?_, hkinds⟩
  rw [List.append_nil, List.append_nil, Token.scan, List.reverse_reverse] at hscan
  rw [tokenize, toList_toText, hscan]

/-! ### Tokens and trees -/

/-- The tokens of a list are those of its items between two parentheses. -/
theorem exists_of_kinds_list (h : tokens.map Token.kind = kinds (.list items)) :
    ∃ place inside place', tokens = ⟨.opening, place⟩ :: (inside ++ [⟨.closing, place'⟩]) ∧
      inside.map Token.kind = kindsIn items := by
  obtain ⟨⟨kind, place⟩, rest, rfl, rfl, hrest⟩ := List.map_eq_cons_iff.mp h
  obtain ⟨inside, close, rfl, hinside, hclose⟩ := List.map_eq_append_iff.mp hrest
  obtain ⟨⟨kind, place'⟩, none, rfl, rfl, hnone⟩ := List.map_eq_cons_iff.mp hclose
  rw [List.map_eq_nil_iff.mp hnone]
  exact ⟨place, inside, place', rfl, hinside⟩

mutual

/-- Where a list is open, the tokens of a tree add the tree to it. -/
theorem parseFrom_kinds : (t : Sexpr) → ∀ {tokens : List Token}, tokens.map Token.kind = kinds t →
    ∀ (last : Sexpr) (items : List Sexpr) (opened : List (List Sexpr)) (more : List Token),
      parseFrom last (items :: opened) (tokens ++ more) =
        parseFrom last ((t :: items) :: opened) more
  | .atom text, tokens, h, last, items, opened, more => by
    obtain ⟨⟨kind, place⟩, rest, rfl, rfl, hrest⟩ := List.map_eq_cons_iff.mp h
    rw [List.map_eq_nil_iff.mp hrest, List.singleton_append, parseFrom]
  | .list ts, tokens, h, last, items, opened, more => by
    obtain ⟨place, inside, place', rfl, hinside⟩ := exists_of_kinds_list h
    have hread := parseFrom_kindsIn ts hinside last [] (items :: opened)
      (⟨.closing, place'⟩ :: more)
    rw [List.append_nil] at hread
    rw [List.cons_append, parseFrom, List.append_assoc, List.singleton_append, hread, parseFrom,
      List.reverse_reverse]

/-- Where a list is open, the tokens of trees add the trees to it. -/
theorem parseFrom_kindsIn : (ts : List Sexpr) → ∀ {tokens : List Token},
    tokens.map Token.kind = kindsIn ts →
    ∀ (last : Sexpr) (items : List Sexpr) (opened : List (List Sexpr)) (more : List Token),
      parseFrom last (items :: opened) (tokens ++ more) =
        parseFrom last ((ts.reverse ++ items) :: opened) more
  | [], tokens, h, last, items, opened, more => by
    rw [List.map_eq_nil_iff.mp h]
    rfl
  | t :: ts, tokens, h, last, items, opened, more => by
    obtain ⟨first, rest, rfl, hfirst, hrest⟩ := List.map_eq_append_iff.mp h
    rw [List.append_assoc, parseFrom_kinds t hfirst, parseFrom_kindsIn ts hrest,
      List.reverse_cons, List.append_assoc, List.singleton_append]

end

/-- The tokens of a list denote the list. -/
theorem ofTokens_kinds (h : tokens.map Token.kind = kinds (.list items)) :
    ofTokens tokens = .ok (.list items) := by
  obtain ⟨place, inside, place', rfl, hinside⟩ := exists_of_kinds_list h
  have hread := parseFrom_kindsIn items hinside (.list []) [] [] [⟨.closing, place'⟩]
  rw [List.append_nil] at hread
  rw [ofTokens, parseFrom, hread, parseFrom, parseFrom, List.reverse_reverse]

/-- Reading keeps to lists with atoms that can be read, if its tokens and what was read
before do. -/
theorem lexable_of_parseFrom (hlast : last.isList = true ∧ Lexable last)
    (hopened : ∀ items ∈ opened, ∀ item ∈ items, Lexable item) (htokens : AtomsLexable tokens)
    (h : parseFrom last opened tokens = .ok t) : t.isList = true ∧ Lexable t := by
  fun_induction parseFrom last opened tokens with
  | case1 last =>
      cases h
      exact hlast
  | case2 => cases h
  | case3 last opened place tokens ih =>
      exact ih hlast (List.forall_mem_cons.mpr ⟨by simp, hopened⟩) htokens.tail h
  | case4 => cases h
  | case5 last items place tokens ih =>
      have hitems : ∀ item ∈ items.reverse, Lexable item := fun item hitem =>
        hopened items (List.mem_singleton_self items) item (List.mem_reverse.mp hitem)
      exact ih ⟨rfl, .list hitems⟩ (by simp) htokens.tail h
  | case6 last items outer opened place tokens ih =>
      obtain ⟨hitems, hothers⟩ := List.forall_mem_cons.mp hopened
      obtain ⟨houter, hopened⟩ := List.forall_mem_cons.mp hothers
      have hlist : Lexable (.list items.reverse) :=
        .list fun item hitem => hitems item (List.mem_reverse.mp hitem)
      refine ih hlast (List.forall_mem_cons.mpr ⟨?_, hopened⟩) htokens.tail h
      exact List.forall_mem_cons.mpr ⟨hlist, houter⟩
  | case7 => cases h
  | case8 last items opened text place tokens ih =>
      obtain ⟨hitems, hopened⟩ := List.forall_mem_cons.mp hopened
      have hatom : Lexable (.atom text) := .atom (htokens _ (List.mem_cons_self ..) text rfl)
      refine ih hlast (List.forall_mem_cons.mpr ⟨?_, hopened⟩) htokens.tail h
      exact List.forall_mem_cons.mpr ⟨hatom, hitems⟩

/-! ### Texts and trees -/

/-- Every tree that is read is a list with atoms that can be read. -/
theorem lexable_of_parse {source : String} (h : parse source = .ok t) :
    t.isList = true ∧ Lexable t := by
  rw [parse] at h
  split at h
  · cases h
  · next tokens htokens =>
    have hatoms : AtomsLexable tokens := Token.atomsLexable_of_tokenize htokens
    exact lexable_of_parseFrom ⟨rfl, .list (by simp)⟩ (by simp) hatoms h

theorem parse_toText (hlist : t.isList = true) (h : Lexable t) : parse t.toText = .ok t := by
  cases t with
  | atom text => cases hlist
  | list items =>
      obtain ⟨tokens, htokens, hkinds⟩ := tokenize_toText h
      rw [parse, htokens]
      exact ofTokens_kinds hkinds

/-- Writing and reading are inverse to each other on lists with atoms that can be read and on no
other trees. Trees that were read are among them. -/
theorem parse_toText_eq_iff (t : Sexpr) :
    (parse t.toText = .ok t ↔ t.isList = true ∧ Lexable t) ∧
      ∀ source, parse source = .ok t → parse t.toText = .ok t := by
  constructor
  · constructor
    · exact lexable_of_parse
    · rintro ⟨hlist, h⟩
      exact parse_toText hlist h
  · intro source h
    obtain ⟨hlist, hlexable⟩ := lexable_of_parse h
    exact parse_toText hlist hlexable

end Sexpr

end WasmTrim
