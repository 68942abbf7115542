import WasmTrim.Build.Platform
import WasmTrim.Proofs.FileTree.Places

/-!
# What a build relies on

Tools may do what they like, as long as they write only where they are told to. A disk may fail
whenever it likes, but it does not make up what is read from it, and a change that it reports as
done is done. Nothing is asked of engines, readers and codecs.

## Implementation notes

A change that fails may be done in part, so of such a change it is only known where it was made.
-/

namespace WasmTrim

open FileTree (Touched)

variable {σ : Type}

/-- The tools of a toolchain, and whether the names of functions are kept. -/
inductive Tool where
  /-- Turns binaries into text. -/
  | disassembler
  /-- Turns texts into binaries. -/
  | assembler (names : Bool)
  /-- Turns texts into small binaries. -/
  | optimizer (names : Bool)

/-- Runs a tool of a toolchain. -/
def Tool.run (tools : Toolchain σ) (input output : String) : Tool → ToolRun σ
  | .disassembler => tools.disassemble input output
  | .assembler names => tools.assemble input output names
  | .optimizer names => tools.optimize input output names

namespace Disk

variable {change : FileTree → Except FileError FileTree} {state : σ} {files : FileTree}

end Disk

end WasmTrim
