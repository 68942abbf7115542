import WasmTrim.Text.Digits

/-!
# Quoted byte strings

The bytes of a data segment stand in the text form as quoted strings. `encode` writes any bytes with
printable ASCII characters only: quotes and backslashes behind a backslash, and every byte that is
not printable as a backslash and two hexadecimal digits. `decode` also reads what others write: the
short escapes for tab, line feed and carriage return, digits of either case, and plain characters of
any script, which stand for their UTF-8 bytes. A backslash that starts no known escape is a byte of
its own.
-/

namespace WasmTrim.Literal

/-- The byte that a single character after a backslash stands for. -/
def shortEscape? : Char → Option UInt8
  | 't' => some 9
  | 'n' => some 10
  | 'r' => some 13
  | '"' => some 34
  | '\'' => some 39
  | '\\' => some 92
  | _ => none

/-- The byte that two characters after a backslash stand for. -/
def hexEscape? (high low : Char) : Option UInt8 := do
  return ((← hexDigit? high) * 16 + (← hexDigit? low)).toUInt8

/-- Appends the UTF-8 bytes of a character. -/
def pushChar (out : ByteArray) (c : Char) : ByteArray :=
  (String.utf8EncodeChar c).foldl ByteArray.push out

/-- Appends the bytes that the inside of a quoted string denotes. -/
def decodeInside (out : ByteArray) : List Char → ByteArray
  | [] => out
  | '\\' :: c :: rest =>
    match shortEscape? c with
    | some b => decodeInside (out.push b) rest
    | none =>
      match rest with
      | [] => decodeInside (out.push 92) [c]
      | d :: rest' =>
        match hexEscape? c d with
        | some b => decodeInside (out.push b) rest'
        | none => decodeInside (out.push 92) (c :: d :: rest')
  | c :: rest => decodeInside (pushChar out c) rest
termination_by cs => cs.length

/-- What stands between the quotes of a quoted string. -/
def inside? (literal : String) : Option (List Char) :=
  match literal.toList with
  | '"' :: rest => if rest.getLast? = some '"' then some rest.dropLast else none
  | _ => none

/-- A text was given as a quoted string and is none. -/
structure NotQuoted where
  /-- The text that was given. -/
  text : String
  deriving Repr, DecidableEq, Inhabited

/-- The report shows at most the first 32 characters of the text. -/
def NotQuoted.message (e : NotQuoted) : String :=
  "String must be doubly-quoted: " ++ String.ofList (e.text.toList.take 32)

/-- The bytes that a quoted string denotes. -/
def decode (literal : String) : Except NotQuoted ByteArray :=
  match inside? literal with
  | some cs => .ok (decodeInside .empty cs)
  | none => .error ⟨literal⟩

/-- The characters that write one byte. -/
def encodeByte (b : UInt8) : List Char :=
  if b = 34 then ['\\', '"']
  else if b = 39 then ['\\', '\'']
  else if b = 92 then ['\\', '\\']
  else if 32 ≤ b ∧ b ≤ 126 then [Char.ofNat b.toNat]
  else '\\' :: hexByte b

/-- The quoted string that writes the given bytes. -/
def encode (bytes : ByteArray) : String :=
  String.ofList ('"' :: bytes.data.toList.flatMap encodeByte ++ ['"'])

end WasmTrim.Literal
