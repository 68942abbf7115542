import WasmTrim.FileTree.View

/-!
# Disks

What files are read from and written to. A disk has a state of its own and may fail whenever it
likes, and a change that fails may be done in part. `Disk.reliable` fails only where a path does not
lead to what is asked for.
-/

namespace WasmTrim

/-- What a change does to the state of a disk and to the files. -/
abbrev FileRun (σ : Type) := σ → FileTree → Except FileError Unit × σ × FileTree

/-- A disk whose state is a `σ`. -/
structure Disk (σ : Type) where
  /-- What can be read now. -/
  view : σ → FileTree → FileView × σ
  /-- Makes a directory and the ones that lead to it. -/
  makeDirectories (path : String) : FileRun σ
  /-- Writes a file, a new one or in place of its former bytes. -/
  write (path : String) (bytes : ByteArray) : FileRun σ
  /-- Copies a file. -/
  copy (source destination : String) : FileRun σ

namespace Disk

variable {σ : Type}

/-- Changes the files, or leaves them as they are. -/
def attempt (change : FileTree → Except FileError FileTree) : FileRun σ := fun state files =>
  match change files with
  | .ok files => (.ok (), state, files)
  | .error e => (.error e, state, files)

/-- The disk that does what can be done. -/
def reliable : Disk σ where
  view state files := (files.view, state)
  makeDirectories path state files :=
    let (outcome, files) := files.makeDirectories path
    (outcome, state, files)
  write path bytes := attempt fun files => files.write path bytes
  copy source destination := attempt fun files => files.copy source destination

end Disk

end WasmTrim
