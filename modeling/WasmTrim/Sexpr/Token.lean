import WasmTrim.Text.Blank

/-!
# Tokens of the text form

A source text is a sequence of parentheses, bare words and quoted strings, between which blanks and
comments may stand. A comment runs from a semicolon to the end of its line. A quoted string ends at
the first quote that no backslash precedes; a backslash always takes the next character with it.

`tokenize` reads all tokens of a text with their positions, or reports the quote of the string that
never ends.

## Implementation notes

The text is scanned as a list of characters. The tokens read so far and the characters of the string
being read are accumulators, so the depth of the call stack does not grow with the text.
-/

namespace WasmTrim

/-- A place in a source text; lines and columns count characters from one. -/
structure Position where
  /-- One more than the number of line ends before the place. -/
  line : Nat
  /-- One more than the number of characters since the last line end. -/
  column : Nat
  deriving Repr, DecidableEq, Inhabited

namespace Position

/-- The first place of a text. -/
def start : Position := ⟨1, 1⟩

/-- The place after one more character. -/
def advance (p : Position) (c : Char) : Position :=
  if c = '\n' then ⟨p.line + 1, 1⟩ else ⟨p.line, p.column + 1⟩

/-- The place after more characters. -/
def after (p : Position) (cs : List Char) : Position :=
  cs.foldl advance p

end Position

/-- The three kinds of token. -/
inductive TokenKind where
  /-- An opening parenthesis. -/
  | opening
  /-- A closing parenthesis. -/
  | closing
  /-- A bare word or a quoted string, verbatim. -/
  | atom (text : String)
  deriving Repr, DecidableEq, Inhabited

/-- A token and the place of its first character. -/
structure Token where
  /-- What the token is. -/
  kind : TokenKind
  /-- Where it starts. -/
  position : Position
  deriving Repr, DecidableEq, Inhabited

namespace Token

/-- The characters that end a bare word. -/
def isDelimiter (c : Char) : Bool :=
  isBlank c || c == '(' || c == ')' || c == ';' || c == '"'

/-- Reads on to the quote that ends a string. The characters read so far are held in reverse; the
answer is the whole string and what follows it. -/
def closeQuote (read : List Char) : List Char → Option (List Char × List Char)
  | [] => none
  | '"' :: rest => some (('"' :: read).reverse, rest)
  | '\\' :: c :: rest => closeQuote (c :: '\\' :: read) rest
  | ['\\'] => none
  | c :: rest => closeQuote (c :: read) rest

/-- What follows a quoted string is shorter than what the string was read from. -/
theorem length_lt_of_closeQuote {read cs text rest : List Char}
    (h : closeQuote read cs = some (text, rest)) : rest.length < cs.length := by
  fun_induction closeQuote read cs with
  | case1 => simp at h
  | case2 read tail =>
    simp only [Option.some.injEq, Prod.mk.injEq] at h
    simp [← h.2]
  | case3 read c tail ih =>
    have := ih h
    simp only [List.length_cons]
    omega
  | case4 => simp at h
  | case5 read c tail _ _ _ ih =>
    have := ih h
    simp only [List.length_cons]
    omega

/-- Reads the tokens of `cs`, which starts at `at`; those before it are held in reverse. A string
that never ends is reported by the place of its quote. -/
def scan (done : List Token) (place : Position) (cs : List Char) :
    Except Position (List Token) :=
  match cs with
  | [] => .ok done.reverse
  | c :: rest =>
    if c = '(' then scan (⟨.opening, place⟩ :: done) (place.advance c) rest
    else if c = ')' then scan (⟨.closing, place⟩ :: done) (place.advance c) rest
    else if c = ';' then
      scan done (place.after (c :: rest.takeWhile (· != '\n'))) (rest.dropWhile (· != '\n'))
    else if c = '"' then
      match h : closeQuote ['"'] rest with
      | none => .error place
      | some (text, rest') =>
        have := length_lt_of_closeQuote h
        scan (⟨.atom (String.ofList text), place⟩ :: done) (place.after text) rest'
    else if isBlank c then scan done (place.advance c) rest
    else
      let word := c :: rest.takeWhile (fun d => !isDelimiter d)
      scan (⟨.atom (String.ofList word), place⟩ :: done) (place.after word)
        (rest.dropWhile fun d => !isDelimiter d)
termination_by cs.length
decreasing_by
  all_goals simp only [List.length_cons]
  all_goals first
    | omega
    | exact Nat.lt_succ_of_le (List.dropWhile_suffix _).length_le

end Token

/-- The tokens of a source text, or the place of the quote that is never closed. -/
def tokenize (source : String) : Except Position (List Token) :=
  Token.scan [] .start source.toList

end WasmTrim
