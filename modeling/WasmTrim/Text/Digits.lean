/-!
# Digits and literals of integers

Reading the integers that the text form and the configuration write: runs of decimal or hexadecimal
digits, with an optional sign, and the literal of a 32-bit constant, in which underscores may stand
between digits and a negative value denotes its two's complement.
-/

namespace WasmTrim

/-- The value of a decimal digit. -/
def decimalDigit? (c : Char) : Option Nat :=
  if '0' ≤ c ∧ c ≤ '9' then some (c.toNat - '0'.toNat) else none

/-- The value of a hexadecimal digit of either case. -/
def hexDigit? (c : Char) : Option Nat :=
  if '0' ≤ c ∧ c ≤ '9' then some (c.toNat - '0'.toNat)
  else if 'a' ≤ c ∧ c ≤ 'f' then some (c.toNat - 'a'.toNat + 10)
  else if 'A' ≤ c ∧ c ≤ 'F' then some (c.toNat - 'A'.toNat + 10)
  else none

/-- The value of a run of digits in the given base, continuing from `value`. -/
def digitsFrom? (base : Nat) (digit? : Char → Option Nat) (value : Nat) : List Char → Option Nat
  | [] => some value
  | c :: rest => do digitsFrom? base digit? (value * base + (← digit? c)) rest

/-- The value of a non-empty run of digits in the given base. -/
def digits? (base : Nat) (digit? : Char → Option Nat) : List Char → Option Nat
  | [] => none
  | cs => digitsFrom? base digit? 0 cs

/-- An unsigned number that may carry a plus sign. -/
def unsigned? (base : Nat) (digit? : Char → Option Nat) : List Char → Option Nat
  | '+' :: cs => digits? base digit? cs
  | cs => digits? base digit? cs

/-- A decimal number that may carry either sign. -/
def signed? : List Char → Option Int
  | '-' :: cs => (digits? 10 decimalDigit? cs).map fun n => -(n : Int)
  | cs => (unsigned? 10 decimalDigit? cs).map fun n => (n : Int)

/-- The hexadecimal digits of a byte, lower case, always two. -/
def hexByte (b : UInt8) : List Char :=
  [Nat.digitChar (b.toNat / 16), Nat.digitChar (b.toNat % 16)]

/-- The 32-bit word that a constant's literal denotes.

Underscores are ignored. Hexadecimal literals are unsigned; decimal literals range from `-2^31` to
`2^32 - 1`, and a negative one stands for the word congruent to it. -/
def word32? (literal : String) : Option UInt32 :=
  match literal.toList.filter (· != '_') with
  | '0' :: 'x' :: hex => do
    let n ← unsigned? 16 hexDigit? hex
    if n < UInt32.size then some n.toUInt32 else none
  | cs => do
    let i ← signed? cs
    if -0x80000000 ≤ i ∧ i < UInt32.size then some (i % UInt32.size).toNat.toUInt32 else none

end WasmTrim
