import WasmTrim.Memory.Words
import WasmTrim.Module.Fields
import WasmTrim.Sexpr.Literal

/-!
# Data segments

The active data segments of a module whose place is written as a constant:
`(data [$name] [(memory ...)] (i32.const N) "..."*)`, where the place may also be wrapped as
`(offset (i32.const N))`. `dataField` writes such a field.
-/

namespace WasmTrim

/-- Bytes with the address where they are laid when the module starts. -/
structure DataSegment where
  /-- The address of the first byte. -/
  offset : UInt32
  /-- The bytes. -/
  bytes : ByteArray
  deriving DecidableEq, Inhabited

namespace Sexpr

mutual

/-- The address that an offset expression denotes, if it is a constant. -/
def constOffset? : Sexpr → Option UInt32
  | .list (.atom keyword :: operands) =>
    if keyword = "i32.const" then
      match operands with
      | .atom literal :: _ => word32? literal
      | _ => none
    else if keyword = "offset" then constOffsetIn? operands
    else none
  | _ => none

/-- The address of the first constant offset among some items. -/
def constOffsetIn? : List Sexpr → Option UInt32
  | [] => none
  | item :: rest =>
    match constOffset? item with
    | some address => some address
    | none => constOffsetIn? rest

end

/-- Tells whether an item is a quoted string. -/
def isQuoted : Sexpr → Bool
  | .atom text => text.toList.head? == some '"'
  | .list _ => false

/-- The bytes of the quoted strings among some items, joined behind `out`. -/
def quotedBytes (out : ByteArray) : List Sexpr → Except Literal.NotQuoted ByteArray
  | [] => .ok out
  | .atom text :: rest =>
    if isQuoted (.atom text) then do
      let bytes ← Literal.decode text
      quotedBytes (out ++ bytes) rest
    else quotedBytes out rest
  | .list _ :: rest => quotedBytes out rest

/-- The data segment that a field denotes. Passive segments, segments whose place is computed, and
fields of other kinds denote none. -/
def dataSegment? : Sexpr → Except Literal.NotQuoted (Option DataSegment)
  | .list (.atom keyword :: items) =>
    if keyword = "data" then
      match constOffsetIn? items with
      | none => .ok none
      | some offset => do
        let bytes ← quotedBytes .empty items
        return some ⟨offset, bytes⟩
    else .ok none
  | _ => .ok none

/-- The field of an active data segment. -/
def dataField (name : String) (offset : UInt32) (bytes : ByteArray) : Sexpr :=
  .list [.atom "data", .atom name, i32Const offset, .atom (Literal.encode bytes)]

end Sexpr

end WasmTrim
