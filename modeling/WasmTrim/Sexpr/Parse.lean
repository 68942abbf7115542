import WasmTrim.Sexpr.Basic
import WasmTrim.Sexpr.Token

/-!
# Reading trees

A source text is a sequence of lists, and the last of them is what it denotes; a text without any
denotes the empty list. `Sexpr.parse` reads that list or reports the first fault of the text.

## Implementation notes

The lists that are still open are kept on a stack, innermost first, each with its items in reverse,
so that nesting of any depth is read without deep recursion.
-/

namespace WasmTrim

/-- Why a text is not a sequence of lists. -/
inductive ParseError where
  /-- A quoted string that starts at this place never ends. -/
  | unterminatedString (position : Position)
  /-- A closing parenthesis stands outside every list. -/
  | unexpectedClose (position : Position)
  /-- A word stands outside every list. -/
  | atomOutsideList (text : String) (position : Position)
  /-- So many lists are still open at the end. -/
  | unclosedList (depth : Nat)
  /-- The text itself could not be read. -/
  | unreadable (path : String) (reason : String)
  deriving Repr, DecidableEq, Inhabited

namespace ParseError

/-- The report of a fault. -/
def message : ParseError → String
  | .unterminatedString p => s!"Unterminated string starting at {p.line}:{p.column}"
  | .unexpectedClose p => s!"Unexpected ')' at {p.line}:{p.column}"
  | .atomOutsideList text p => s!"Atom `{text}` outside of any list at {p.line}:{p.column}"
  | .unclosedList depth => s!"Unclosed '(' (depth {depth} at end of input)"
  | .unreadable path reason => s!"Failed to read {path}: {reason}"

end ParseError

namespace Sexpr

/-- Reads the remaining tokens, given the last complete list and the lists that are open. -/
def parseFrom (last : Sexpr) : (opened : List (List Sexpr)) → List Token → Except ParseError Sexpr
  | [], [] => .ok last
  | opened@(_ :: _), [] => .error (.unclosedList opened.length)
  | opened, ⟨.opening, _⟩ :: tokens => parseFrom last ([] :: opened) tokens
  | [], ⟨.closing, p⟩ :: _ => .error (.unexpectedClose p)
  | [items], ⟨.closing, _⟩ :: tokens => parseFrom (.list items.reverse) [] tokens
  | items :: outer :: opened, ⟨.closing, _⟩ :: tokens =>
    parseFrom last ((.list items.reverse :: outer) :: opened) tokens
  | [], ⟨.atom text, p⟩ :: _ => .error (.atomOutsideList text p)
  | items :: opened, ⟨.atom text, _⟩ :: tokens =>
    parseFrom last ((.atom text :: items) :: opened) tokens

/-- The tree that a sequence of tokens denotes. -/
def ofTokens (tokens : List Token) : Except ParseError Sexpr :=
  parseFrom (.list []) [] tokens

/-- The tree that a source text denotes. -/
def parse (source : String) : Except ParseError Sexpr :=
  match tokenize source with
  | .error p => .error (.unterminatedString p)
  | .ok tokens => ofTokens tokens

end Sexpr

end WasmTrim
