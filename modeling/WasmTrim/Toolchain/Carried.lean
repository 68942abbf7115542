import WasmTrim.Machine.Binary
import WasmTrim.Toolchain.Basic

/-!
# Tools for binaries that carry their texts

Tools that need neither programs nor a memory: a binary carries the text that it was made from, so
disassembling reads the binary alone.
-/

namespace WasmTrim.Carried

/-- Writes what is made of a file's bytes. -/
def convert (make : ByteArray → Except ToolError ByteArray) (input output : String) :
    ToolRun Unit := fun _ tree =>
  match tree.read input with
  | .error e => (.error (.other e.message), (), tree)
  | .ok bytes =>
    match make bytes with
    | .error e => (.error e, (), tree)
    | .ok made =>
      match tree.write output made with
      | .error e => (.error (.other e.message), (), tree)
      | .ok tree => (.ok (), (), tree)

/-- The text that a binary carries. -/
def disassemble (bytes : ByteArray) : Except ToolError ByteArray :=
  match Binary.textOf? bytes with
  | some text => .ok text.toUTF8
  | none => .error (.other "unknown binary")

/-- The binary of a text. -/
def assemble (bytes : ByteArray) : Except ToolError ByteArray :=
  match (String.fromUTF8? bytes).bind Binary.assemble? with
  | some made => .ok made
  | none => .error (.other "assembly failed")

/-- The tools for binaries that carry their texts. -/
def toolchain : Toolchain Unit where
  disassemble := convert disassemble
  assemble input output _ := convert assemble input output
  optimize input output _ := convert assemble input output

end WasmTrim.Carried
