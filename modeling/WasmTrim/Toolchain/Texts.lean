import WasmTrim.Machine.Binary
import WasmTrim.Toolchain.Basic

/-!
# Tools that remember texts

Tools that need no programs: assembling takes the text of a module as it is, without making anything
smaller, and disassembling gives back the text that a binary was made from, by the binary's path.
-/

namespace WasmTrim

/-- The texts of binaries, by their paths. -/
abbrev KnownTexts := List (String × String)

namespace KnownTexts

/-- What tells paths apart that lead to different files: slashes and dots in the middle do not. -/
def key (path : String) : Bool × Bool × List String :=
  (Path.isAbsolute path, (Path.splitAt '/' path.toList).head? == some ['.'], Path.names path)

/-- The text of the binary at a path. -/
def text? (texts : KnownTexts) (path : String) : Option String :=
  (texts.find? fun entry => key entry.1 = key path).map (·.2)

/-- Writes a file, unless that fails. -/
def write (texts : KnownTexts) (tree : FileTree) (path : String) (bytes : ByteArray)
    (known : KnownTexts) : Except ToolError Unit × KnownTexts × FileTree :=
  match tree.write path bytes with
  | .ok tree => (.ok (), known, tree)
  | .error e => (.error (.other e.message), texts, tree)

/-- Writes the text of a binary. -/
def disassemble (input output : String) : ToolRun KnownTexts := fun texts tree =>
  match texts.text? input with
  | none => (.error (.other "unknown binary"), texts, tree)
  | some text => write texts tree output text.toUTF8 texts

/-- Writes the binary of a text. -/
def assemble (input output : String) : ToolRun KnownTexts := fun texts tree =>
  match tree.readText input with
  | .error e => (.error (.other e.message), texts, tree)
  | .ok text =>
    match Binary.assemble? text with
    | none => (.error (.other "assembly failed"), texts, tree)
    | some bytes => write texts tree output bytes ((output, text) :: texts)

/-- The tools that remember texts. -/
def toolchain : Toolchain KnownTexts where
  disassemble := disassemble
  assemble input output _ := assemble input output
  optimize input output _ := assemble input output

end KnownTexts

end WasmTrim
