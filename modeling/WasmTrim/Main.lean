import WasmTrim.CommandLine
import WasmTrim.Toolchain.Carried

/-!
# The program

Builds in the current directory. All files below it are read first, and those that the build wrote
are written back.
-/

namespace WasmTrim.Main

/-- The path of an entry, seen from the current directory. -/
def pathOf (place : Place) : String :=
  "/".intercalate ("." :: place)

/-- Writes an entry, unless it was there before. -/
def writeBack (before : FileTree) (place : Place) (entry : FileEntry) : IO Unit := do
  if before.entry? place = some entry then return
  match entry with
  | .file bytes _ => IO.FS.writeBinFile (pathOf place) bytes
  | .directory => IO.FS.createDirAll (pathOf place)
  | .link _ => return

/-- Reads the entries below a directory that is so many names deeper at most. -/
def readBelow (tree : FileTree) (place : Place) : (depth : Nat) → IO FileTree
  | 0 => return tree
  | depth + 1 => do
    let here ← IO.currentDir
    let mut tree := tree
    for entry in ← (place.foldl (· / ·) here).readDir do
      let inner := place ++ [entry.fileName]
      if ← entry.path.isDir then
        tree ← readBelow (tree.put inner .directory) inner depth
      else
        tree := tree.put inner (.file (← IO.FS.readBinFile entry.path) false)
    return tree

/-- The number of directories that may lie in one another. -/
def maxDepth : Nat := 64

end WasmTrim.Main

open WasmTrim in
/-- Builds what the arguments ask for. -/
def main (arguments : List String) : IO UInt32 := do
  let files ← Main.readBelow {} [] Main.maxDepth
  let (outcome, state) := CommandLine.run (fun _ => Carried.toolchain) arguments { files, tools := () }
  for (place, entry) in state.files.entries do
    Main.writeBack files place entry
  for note in state.notes do
    IO.eprintln note.text
  if let some failure := outcome.failure then IO.eprintln failure
  if let some summary := outcome.summary then IO.println summary
  return outcome.exitCode.toUInt32
