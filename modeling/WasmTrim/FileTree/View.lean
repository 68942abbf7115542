import WasmTrim.FileTree.Basic

/-!
# Views of files

What a program can read at one time: the bytes of files, and the entries that a walk below a
directory meets. Any of them may be unreadable, whatever the reason. `FileTree.view` is the view
that has all there is in a tree.
-/

namespace WasmTrim

/-- Something that a walk meets. -/
structure WalkEntry where
  /-- The names on the way to it, from where the walk starts. -/
  names : List String
  /-- Whether it is a regular file. -/
  isFile : Bool
  deriving Repr, DecidableEq, Inhabited

/-- What can be read at one time. -/
structure FileView where
  /-- The bytes of a file. -/
  read (path : String) : Except FileError ByteArray
  /-- What is met below a directory, in the order of the walk. -/
  walk (directory : String) : List (Except FileTree.WalkError WalkEntry)

/-- The files that a walk finds. -/
structure FileList where
  /-- The files, as paths from where the walk starts with slashes between the names. -/
  paths : List String := []
  /-- Why the walk stopped, if it did. -/
  failure : Option FileTree.WalkError := none
  deriving Repr, DecidableEq, Inhabited

/-- The files with an extension among what a walk meets. -/
def FileList.ofWalk (extension : String) : List (Except FileTree.WalkError WalkEntry) → FileList
  | [] => {}
  | .error e :: _ => { failure := some e }
  | .ok entry :: rest =>
    let more := ofWalk extension rest
    if entry.isFile ∧ entry.names.getLast?.bind Path.extension? = some extension then
      { more with paths := "/".intercalate entry.names :: more.paths }
    else more

namespace FileView

/-- The text of a file. -/
def readText (view : FileView) (path : String) : Except FileError String := do
  let bytes ← view.read path
  match String.fromUTF8? bytes with
  | some text => return text
  | none => throw .notText

/-- The files below a directory that have an extension. -/
def filesBelow (view : FileView) (directory extension : String) : FileList :=
  FileList.ofWalk extension (view.walk directory)

end FileView

namespace FileTree

/-- What a walk meets below the directory that a path leads to. It meets nothing if the path leads
to none. -/
def metBelow (tree : FileTree) (path : String) : List (Except WalkError WalkEntry) :=
  match tree.lookUp path .reach with
  | .ok (.found place .directory) =>
    (tree.below path place).map (·.map fun (names, entry) => ⟨names, entry.isFile⟩)
  | _ => []

/-- The view of all that is there. -/
def view (tree : FileTree) : FileView where
  read := tree.read
  walk := tree.metBelow

/-- The text of a file. -/
def readText (tree : FileTree) (path : String) : Except FileError String :=
  tree.view.readText path

end FileTree

end WasmTrim
