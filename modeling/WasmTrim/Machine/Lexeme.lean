import WasmTrim.Machine.Constant
import WasmTrim.Sexpr.Literal
import WasmTrim.Sexpr.Token

/-!
# Tokens of a text to be assembled

An assembler is stricter about the text form than a tool that edits it. Blanks are the four that
ASCII knows; a comment starts with two semicolons, or stands between `(;` and `;)` and nests. Words
consist of ASCII characters of a fixed set, strings hold no control characters and no unknown
escapes, and nothing that overrides the direction of writing may stand in strings or comments. Words
and strings are set apart from each other.

`Assembly.tokens?` reads the tokens of a text that obeys all that. Its strings are written anew, so
that different ways to write the same bytes give the same token.
-/

namespace WasmTrim.Assembly

/-- Tells whether a character may stand in a word. -/
def isWordCharacter (c : Char) : Bool :=
  c.isAlphanum || "!#$%&'*+-./:<=>?@\\^_`|~".toList.contains c

/-- Tells whether a character separates words. -/
def isSpace (c : Char) : Bool :=
  c == ' ' || c == '\t' || c == '\n' || c == '\r'

/-- Tells whether a character overrides the direction of writing. -/
def isOverride (c : Char) : Bool :=
  ['\u202a', '\u202b', '\u202d', '\u202e', '\u2066', '\u2067', '\u2068', '\u206c',
    '\u2069'].contains c

/-- What follows a nested comment that is open so many times. -/
def afterComment? (opened : Nat) : List Char → Option (List Char)
  | '(' :: ';' :: rest => afterComment? (opened + 1) rest
  | ';' :: ')' :: rest => if opened ≤ 1 then some rest else afterComment? (opened - 1) rest
  | c :: rest => if isOverride c then none else afterComment? opened rest
  | [] => none

/-- What follows a comment is no longer than what the comment was read from. -/
theorem length_le_of_afterComment? {opened : Nat} {cs rest : List Char}
    (h : afterComment? opened cs = some rest) : rest.length ≤ cs.length := by
  fun_induction afterComment? opened cs with
  | case1 opened tail ih =>
    have := ih h
    simp only [List.length_cons]
    omega
  | case2 opened tail =>
    simp only [Option.some.injEq] at h
    simp only [← h, List.length_cons]
    omega
  | case3 opened tail _ ih =>
    have := ih h
    simp only [List.length_cons]
    omega
  | case4 => simp at h
  | case5 opened c tail _ _ _ ih =>
    have := ih h
    simp only [List.length_cons]
    omega
  | case6 => simp at h

/-- The bytes of the character whose number stands before a closing brace, and what follows it. -/
def numbered? (cs : List Char) : Option (ByteArray × List Char) :=
  match cs.dropWhile (· != '}') with
  | _ :: rest => do
    let n ← Constant.magnitude? 16 hexDigit? (cs.takeWhile (· != '}'))
    if n.isValidChar then some (Literal.pushChar .empty (Char.ofNat n), rest) else none
  | [] => none

/-- The bytes that an escape denotes, by what stands behind its backslash, and what follows it. -/
def escape? : List Char → Option (ByteArray × List Char)
  | 'u' :: '\x7b' :: rest => numbered? rest
  | c :: rest =>
    match Literal.shortEscape? c with
    | some b => some (⟨#[b]⟩, rest)
    | none =>
      match rest with
      | d :: rest => (Literal.hexEscape? c d).map fun b => (⟨#[b]⟩, rest)
      | [] => none
  | [] => none

/-- What follows a numbered character is no longer than what it was read from. -/
theorem length_le_of_numbered? {cs rest : List Char} {bytes : ByteArray}
    (h : numbered? cs = some (bytes, rest)) : rest.length ≤ cs.length := by
  unfold numbered? at h
  have shorter := (List.dropWhile_suffix (l := cs) (· != '}')).length_le
  split at h
  · rename_i tail heq
    rw [heq, List.length_cons] at shorter
    cases hn : Constant.magnitude? 16 hexDigit? (cs.takeWhile (· != '}')) with
    | none => simp [hn] at h
    | some n =>
      simp only [hn, Option.bind_eq_bind, Option.bind_some, Option.ite_none_right_eq_some,
        Option.some.injEq, Prod.mk.injEq] at h
      rw [← h.2.2]
      omega
  · simp at h

/-- What follows an escape is no longer than what it was read from. -/
theorem length_le_of_escape? {cs rest : List Char} {bytes : ByteArray}
    (h : escape? cs = some (bytes, rest)) : rest.length ≤ cs.length := by
  unfold escape? at h
  split at h
  · have := length_le_of_numbered? h
    simp only [List.length_cons]
    omega
  · split at h
    · simp only [Option.some.injEq, Prod.mk.injEq] at h
      simp [← h.2]
    · split at h
      · simp only [Option.map_eq_some_iff, Prod.mk.injEq] at h
        obtain ⟨_, _, _, rfl⟩ := h
        simp only [List.length_cons]
        omega
      · simp at h
  · simp at h

/-- Reads on to the quote that ends a string: the bytes of the string, and what follows it. -/
def closeString? (bytes : ByteArray) (cs : List Char) : Option (ByteArray × List Char) :=
  match cs with
  | [] => none
  | c :: rest =>
    if c = '"' then some (bytes, rest)
    else if c = '\\' then
      match h : escape? rest with
      | some (more, rest') =>
        have := length_le_of_escape? h
        closeString? (bytes ++ more) rest'
      | none => none
    else if c < ' ' || c == '\x7f' || isOverride c then none
    else closeString? (Literal.pushChar bytes c) rest
termination_by cs.length

/-- What follows a string is shorter than what it was read from. -/
theorem length_lt_of_closeString? {bytes more : ByteArray} {cs rest : List Char}
    (h : closeString? bytes cs = some (more, rest)) : rest.length < cs.length := by
  fun_induction closeString? bytes cs with
  | case1 => simp at h
  | case2 bytes tail =>
    simp only [Option.some.injEq, Prod.mk.injEq] at h
    simp [← h.2]
  | case3 bytes tail _ more' rest' _ shorter ih =>
    have := ih h
    simp only [List.length_cons]
    omega
  | case4 => simp at h
  | case5 => simp at h
  | case6 bytes c tail _ _ _ ih =>
    have := ih h
    simp only [List.length_cons]
    omega

/-- Tells whether some text goes on with what would belong to a word or a string before it. -/
def isGlued : List Char → Bool
  | c :: _ => isWordCharacter c || c == '"'
  | [] => false

/-- Reads the tokens of `cs`; those before it are held in reverse. -/
def scan? (done : List TokenKind) (cs : List Char) : Option (List TokenKind) :=
  match cs with
  | [] => some done.reverse
  | c :: rest =>
    if isSpace c then scan? done rest
    else if c = '(' then
      if rest.head? = some ';' then
        match h : afterComment? 1 rest.tail with
        | some rest' =>
          have : rest'.length ≤ rest.length :=
            Nat.le_trans (length_le_of_afterComment? h) (by simp)
          scan? done rest'
        | none => none
      else scan? (.opening :: done) rest
    else if c = ')' then scan? (.closing :: done) rest
    else if c = ';' then
      if rest.head? = some ';' then
        let isInside := fun d => d != '\n' && d != '\r'
        if (rest.takeWhile isInside).any isOverride then none
        else scan? done (rest.dropWhile isInside)
      else none
    else if c = '"' then
      match h : closeString? .empty rest with
      | some (bytes, rest') =>
        have := length_lt_of_closeString? h
        if isGlued rest' then none else scan? (.atom (Literal.encode bytes) :: done) rest'
      | none => none
    else if isWordCharacter c then
      let word := c :: rest.takeWhile isWordCharacter
      let rest' := rest.dropWhile isWordCharacter
      if isGlued rest' || word = ['$'] then none
      else scan? (.atom (String.ofList word) :: done) rest'
    else none
termination_by cs.length
decreasing_by
  all_goals simp only [List.length_cons]
  all_goals first
    | omega
    | exact Nat.lt_succ_of_le (List.dropWhile_suffix _).length_le

/-- The tokens of a text. -/
def tokens? (text : String) : Option (List TokenKind) :=
  scan? [] text.toList

end WasmTrim.Assembly
