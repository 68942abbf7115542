import WasmTrim.Json.Basic

/-!
# Reading JSON

`Json.parse?` reads a text that is one JSON value with nothing but blanks around it.

## Implementation notes

The readers of values, items and members call each other with an amount of fuel. Of two calls in a
row one reads a character, so twice the number of characters is always enough.
-/

namespace WasmTrim.Json

/-- The characters that may stand between the parts of a value. -/
def isSpace (c : Char) : Bool :=
  c == ' ' || c == '\n' || c == '\t' || c == '\r'

/-- What follows the blanks. -/
def skipSpace (cs : List Char) : List Char :=
  cs.dropWhile isSpace

/-- The character that one character after a backslash stands for. -/
def shortEscape? : Char → Option Char
  | '"' => some '"'
  | '\\' => some '\\'
  | '/' => some '/'
  | 'b' => some '\x08'
  | 'f' => some '\x0c'
  | 'n' => some '\n'
  | 'r' => some '\r'
  | 't' => some '\t'
  | _ => none

/-- The unit that four hexadecimal digits after a backslash and the letter `u` stand for. -/
def unit? (a b c d : Char) : Option Nat := do
  return (((← hexDigit? a) * 16 + (← hexDigit? b)) * 16 + (← hexDigit? c)) * 16 + (← hexDigit? d)

/-- Tells whether a unit is the first half of a surrogate pair. -/
def isHighSurrogate (u : Nat) : Bool := 0xD800 ≤ u && u < 0xDC00

/-- Tells whether a unit is the second half of a surrogate pair. -/
def isLowSurrogate (u : Nat) : Bool := 0xDC00 ≤ u && u < 0xE000

/-- The character that a surrogate pair stands for. -/
def ofSurrogates (high low : Nat) : Char :=
  Char.ofNat (0x10000 + (high - 0xD800) * 0x400 + (low - 0xDC00))

/-- Reads a string on from behind its opening quote. The characters so far are held in reverse, and
`whole` tells whether no half of a surrogate pair stood alone among them. -/
def stringFrom? (read : List Char) (whole : Bool) :
    List Char → Option (Option String × List Char)
  | [] => none
  | '"' :: rest => some (if whole then some (String.ofList read.reverse) else none, rest)
  | '\\' :: 'u' :: a :: b :: c :: d :: rest =>
    match unit? a b c d with
    | none => none
    | some u =>
      if isHighSurrogate u then
        match rest with
        | '\\' :: 'u' :: e :: f :: g :: h :: rest' =>
          match unit? e f g h with
          | none => none
          | some v =>
            if isLowSurrogate v then stringFrom? (ofSurrogates u v :: read) whole rest'
            else stringFrom? read false ('\\' :: 'u' :: e :: f :: g :: h :: rest')
        | other => stringFrom? read false other
      else if isLowSurrogate u then stringFrom? read false rest
      else stringFrom? (Char.ofNat u :: read) whole rest
  | '\\' :: c :: rest =>
    match shortEscape? c with
    | some e => stringFrom? (e :: read) whole rest
    | none => none
  | c :: rest => if c.toNat < 32 then none else stringFrom? (c :: read) whole rest
termination_by cs => cs.length
decreasing_by
  all_goals simp_all only [List.length_cons]
  all_goals omega

/-- The digits at the start of some characters, of which there is at least one, and the rest. -/
def digitRun? (cs : List Char) : Option (List Char × List Char) :=
  match cs.takeWhile Char.isDigit with
  | [] => none
  | run => some (run, cs.dropWhile Char.isDigit)

/-- The whole part of a number: a zero, or digits that do not start with one. -/
def wholePart? (cs : List Char) : Option (List Char × List Char) := do
  let (run, rest) ← digitRun? cs
  if run.head? = some '0' ∧ run ≠ ['0'] then none else some (run, rest)

/-- The fraction of a number, if there is one. -/
def fraction? : List Char → Option (List Char × List Char)
  | '.' :: cs => (digitRun? cs).map fun (run, rest) => ('.' :: run, rest)
  | cs => some ([], cs)

/-- The exponent of a number, if there is one. -/
def exponent? : List Char → Option (List Char × List Char)
  | e :: cs =>
    if e = 'e' ∨ e = 'E' then
      match cs with
      | s :: cs' =>
        if s = '+' ∨ s = '-' then (digitRun? cs').map fun (run, rest) => (e :: s :: run, rest)
        else (digitRun? cs).map fun (run, rest) => (e :: run, rest)
      | [] => none
    else some ([], e :: cs)
  | [] => some ([], [])

/-- Reads a number without its sign. -/
def unsignedNumber? (cs : List Char) : Option (List Char × List Char) := do
  let (whole, cs) ← wholePart? cs
  let (fraction, cs) ← fraction? cs
  let (exponent, cs) ← exponent? cs
  return (whole ++ fraction ++ exponent, cs)

/-- Reads a number. -/
def number? : List Char → Option (Json × List Char)
  | '-' :: cs => (unsignedNumber? cs).map fun (n, rest) => (.number (String.ofList ('-' :: n)), rest)
  | cs => (unsignedNumber? cs).map fun (n, rest) => (.number (String.ofList n), rest)

/-- Reads a word that must come next. -/
def word? (word : List Char) (value : Json) (cs : List Char) : Option (Json × List Char) :=
  if word.isPrefixOf cs then some (value, cs.drop word.length) else none

mutual

/-- Reads one value, and gives what follows it. -/
def value? : (fuel : Nat) → List Char → Option (Json × List Char)
  | 0, _ => none
  | fuel + 1, cs =>
    match skipSpace cs with
    | [] => none
    | '"' :: rest => (stringFrom? [] true rest).map fun (text, rest) => (.string text, rest)
    | '[' :: rest =>
      match skipSpace rest with
      | ']' :: rest => some (.array [], rest)
      | rest => (items? fuel [] rest).map fun (items, rest) => (.array items, rest)
    | '\x7b' :: rest =>
      match skipSpace rest with
      | '\x7d' :: rest => some (.object [], rest)
      | rest => (members? fuel [] rest).map fun (members, rest) => (.object members, rest)
    | 'n' :: rest => word? ['u', 'l', 'l'] .null rest
    | 't' :: rest => word? ['r', 'u', 'e'] (.bool true) rest
    | 'f' :: rest => word? ['a', 'l', 's', 'e'] (.bool false) rest
    | c :: rest => number? (c :: rest)

/-- Reads the items of an array on to its end; those before are held in reverse. -/
def items? : (fuel : Nat) → List Json → List Char → Option (List Json × List Char)
  | 0, _, _ => none
  | fuel + 1, read, cs =>
    match value? fuel cs with
    | none => none
    | some (item, rest) =>
      match skipSpace rest with
      | ',' :: rest => items? fuel (item :: read) rest
      | ']' :: rest => some ((item :: read).reverse, rest)
      | _ => none

/-- Reads the members of an object on to its end; those before are held in reverse. -/
def members? : (fuel : Nat) → List (Option String × Json) → List Char →
    Option (List (Option String × Json) × List Char)
  | 0, _, _ => none
  | fuel + 1, read, cs =>
    match skipSpace cs with
    | '"' :: rest =>
      match stringFrom? [] true rest with
      | none => none
      | some (key, rest) =>
        match skipSpace rest with
        | ':' :: rest =>
          match value? fuel rest with
          | none => none
          | some (value, rest) =>
            match skipSpace rest with
            | ',' :: rest => members? fuel ((key, value) :: read) rest
            | '\x7d' :: rest => some (((key, value) :: read).reverse, rest)
            | _ => none
        | _ => none
    | _ => none

end

/-- The value that a text denotes. -/
def parse? (text : String) : Option Json :=
  let cs := text.toList
  match value? (2 * cs.length + 2) cs with
  | some (value, rest) => if (skipSpace rest).isEmpty then some value else none
  | none => none

end WasmTrim.Json
