import WasmTrim.Text.Digits

/-!
# Numbers that are too large to keep

A number is kept as a double-precision float, found in two steps, each of which rounds: the leading
digits that fit a word of 64 bits become a float, and that is multiplied by a float for the power of
ten that is left. `Magnitude.inRange` tells whether the product is finite. It is not the same as
whether a float is nearest to the number, since the steps may round up across the end of the range.

Digits behind the leading ones count by their place only: in the whole part each stands for a factor
of ten, and in the fraction they are left out.
-/

namespace WasmTrim.Json

/-- A decimal number: a natural number times a power of ten. -/
structure Magnitude where
  /-- The natural number. -/
  digits : Nat
  /-- The exponent of ten. -/
  exponent : Int
  deriving Repr, DecidableEq, Inhabited

namespace Magnitude

/-- Appends digits to a number as long as it fits a word, and gives how many are left over. -/
def takeDigits (n : Nat) : List Char → Nat × Nat
  | [] => (n, 0)
  | c :: cs =>
    let longer := 10 * n + (c.toNat - '0'.toNat)
    if longer < UInt64.size then takeDigits longer cs else (n, cs.length + 1)

/-- The leading digits of a number with the given whole part and fraction. -/
def ofDigits (whole fraction : List Char) : Magnitude :=
  let (n, skipped) := takeDigits 0 whole
  let (n, ignored) := takeDigits n fraction
  ⟨n, (skipped : Int) - (fraction.length - ignored : Nat)⟩

/-- The nearest natural number of 53 significant bits; of two, the one whose last bit is zero. -/
def roundBits (n : Nat) : Nat :=
  let more := n.log2 + 1 - 53
  let unit := 1 <<< more
  let low := n / unit
  if unit < 2 * (n % unit) ∨ unit = 2 * (n % unit) ∧ low % 2 = 1 then (low + 1) * unit
  else low * unit

/-- The least number that is rounded beyond the last float. -/
def limit : Nat := 1 <<< 1024 - 1 <<< 970

/-- The largest exponent of ten that has a float. -/
def maxExponent : Nat := 308

/-- Tells whether the float for the digits, multiplied by the float for the power of ten, is
finite. Division cannot leave the range, and zero stays zero. -/
def isFinite (m : Magnitude) : Bool :=
  m.digits == 0 || m.exponent ≤ maxExponent &&
    roundBits m.digits * roundBits (Nat.pow 10 m.exponent.toNat) < limit

/-- Tells whether the number that a literal writes can be kept. -/
def inRange (literal : String) : Bool :=
  let cs := literal.toList.dropWhile (· == '-')
  let behind := cs.dropWhile Char.isDigit
  let fraction := if behind.head? = some '.' then (behind.drop 1).takeWhile Char.isDigit else []
  let exponent := (behind.dropWhile fun c => c != 'e' && c != 'E').drop 1
  let m := ofDigits (cs.takeWhile Char.isDigit) fraction
  isFinite ⟨m.digits, m.exponent + (signed? exponent).getD 0⟩

end Magnitude

end WasmTrim.Json
