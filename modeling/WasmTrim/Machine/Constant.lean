import WasmTrim.Guest.Value
import WasmTrim.Text.Digits

/-!
# Constants of instructions

The integer literals that instructions carry: an optional sign, decimal digits or `0x` and
hexadecimal digits, with single underscores between digits. A literal denotes a word if its value
fits, as a signed or as an unsigned number.
-/

namespace WasmTrim.Constant

/-- Tells whether underscores stand between digits only; `after` tells whether a digit precedes. -/
def separates (after : Bool) : List Char → Bool
  | [] => after
  | '_' :: rest => after && separates false rest
  | _ :: rest => separates true rest

/-- The value of digits with underscores between them. -/
def magnitude? (base : Nat) (digit? : Char → Option Nat) (cs : List Char) : Option Nat :=
  if separates false cs then digits? base digit? (cs.filter (· != '_')) else none

/-- The value of a literal without its sign. -/
def unsigned? : List Char → Option Nat
  | '0' :: 'x' :: cs => magnitude? 16 hexDigit? cs
  | cs => magnitude? 10 decimalDigit? cs

/-- The value of a literal. -/
def int? (text : String) : Option Int :=
  match text.toList with
  | '-' :: cs => (unsigned? cs).map fun n => -(n : Int)
  | '+' :: cs => (unsigned? cs).map fun n => (n : Int)
  | cs => (unsigned? cs).map fun n => (n : Int)

/-- The number of words of so many bits. -/
def wordCount (bits : Nat) : Nat :=
  1 <<< bits

/-- The word of so many bits that a literal denotes. -/
def word? (bits : Nat) (text : String) : Option Nat := do
  let i ← int? text
  if -(wordCount (bits - 1) : Int) ≤ i ∧ i < wordCount bits then some (i % wordCount bits).toNat
  else none

/-- The value of a type that a literal denotes. -/
def value? (type : ValueType) (text : String) : Option Value :=
  match type with
  | .i32 => (word? 32 text).map fun n => .i32 n.toUInt32
  | .i64 => (word? 64 text).map fun n => .i64 n.toUInt64

end WasmTrim.Constant
