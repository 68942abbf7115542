import WasmTrim.Module.DataSegment
import WasmTrim.Proofs.Sexpr.Literal
import WasmTrim.Proofs.Text.Numerals

/-!
# Data segments that are read back

The field that is written for a data segment denotes that segment.
-/

namespace WasmTrim.Sexpr

/-- The constant of a word is found as that word. -/
theorem constOffset?_i32Const (w : UInt32) : (i32Const w).constOffset? = some w := by
  rw [i32Const, constOffset?, if_pos rfl]
  exact word32?_toString w

/-- A written string is quoted. -/
theorem isQuoted_encode (bytes : ByteArray) :
    isQuoted (.atom (Literal.encode bytes)) = true := by
  rw [isQuoted, Literal.encode, String.toList_ofList]
  rfl

/-- The field of a data segment denotes that segment, unless its name looks like a string. -/
theorem dataSegment?_dataField {name : String} (hname : isQuoted (.atom name) = false)
    (offset : UInt32) (bytes : ByteArray) :
    (dataField name offset bytes).dataSegment? = .ok (some ⟨offset, bytes⟩) := by
  have hoffset : constOffsetIn? [.atom name, i32Const offset, .atom (Literal.encode bytes)] =
      some offset := by
    rw [constOffsetIn?, constOffset?, constOffsetIn?, constOffset?_i32Const]
    rintro _ _ ⟨⟩
  have hbytes : quotedBytes .empty [.atom name, i32Const offset, .atom (Literal.encode bytes)] =
      .ok bytes := by
    rw [quotedBytes, hname, i32Const]
    simp only [Bool.false_eq_true, if_false, quotedBytes, isQuoted_encode, if_true,
      Literal.decode_encode, ByteArray.empty_append]
    rfl
  rw [dataField, dataSegment?, if_pos rfl, hoffset]
  simp only [hbytes]
  rfl

end WasmTrim.Sexpr
