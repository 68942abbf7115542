import WasmTrim.Memory.Words

/-!
# The checksum of compressed frames

The 32-bit xxHash with seed zero. Sixteen bytes at a time go into four running words; what is left
is mixed into their sum, first by words and then by bytes.
-/

namespace WasmTrim.XxHash

/-- The first of the five primes. -/
def prime1 : UInt32 := 2654435761
/-- The second of the five primes. -/
def prime2 : UInt32 := 2246822519
/-- The third of the five primes. -/
def prime3 : UInt32 := 3266489917
/-- The fourth of the five primes. -/
def prime4 : UInt32 := 668265263
/-- The fifth of the five primes. -/
def prime5 : UInt32 := 374761393

/-- Rotates a word to the left. -/
def rotate (w : UInt32) (n : UInt32) : UInt32 :=
  (w <<< n) ||| (w >>> (32 - n))

/-- Mixes a word into a running word. -/
def round (acc w : UInt32) : UInt32 :=
  rotate (acc + w * prime2) 13 * prime1

/-- Mixes `n` stripes of sixteen bytes, from index `i` on, into the four running words, and joins
these into one. -/
def stripes (bytes : ByteArray) (i : Nat) (a b c d : UInt32) : Nat → UInt32
  | 0 => rotate a 1 + rotate b 7 + rotate c 12 + rotate d 18
  | n + 1 =>
    stripes bytes (i + 16) (round a (word32At bytes i)) (round b (word32At bytes (i + 4)))
      (round c (word32At bytes (i + 8))) (round d (word32At bytes (i + 12))) n

/-- Mixes `n` words, from index `i` on. -/
def mixWords (bytes : ByteArray) (i : Nat) (h : UInt32) : Nat → UInt32
  | 0 => h
  | n + 1 => mixWords bytes (i + 4) (rotate (h + word32At bytes i * prime3) 17 * prime4) n

/-- Mixes `n` bytes, from index `i` on. -/
def mixBytes (bytes : ByteArray) (i : Nat) (h : UInt32) : Nat → UInt32
  | 0 => h
  | n + 1 =>
    mixBytes bytes (i + 1) (rotate (h + (byteAt bytes i).toUInt32 * prime5) 11 * prime1) n

/-- Spreads every bit over the whole word. -/
def avalanche (h : UInt32) : UInt32 :=
  let h := (h ^^^ (h >>> 15)) * prime2
  let h := (h ^^^ (h >>> 13)) * prime3
  h ^^^ (h >>> 16)

/-- The checksum of a byte string. -/
def hash (bytes : ByteArray) : UInt32 :=
  let n := bytes.size
  let start :=
    if n < 16 then prime5 else stripes bytes 0 (prime1 + prime2) prime2 0 (0 - prime1) (n / 16)
  let h := start + n.toUInt32
  let h := mixWords bytes (n / 16 * 16) h (n % 16 / 4)
  avalanche (mixBytes bytes (n / 4 * 4) h (n % 4))

end WasmTrim.XxHash
