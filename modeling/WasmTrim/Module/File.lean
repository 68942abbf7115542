import WasmTrim.FileTree.View
import WasmTrim.Sexpr.Parse

/-!
# Modules in files

A module's text form as the contents of a file.
-/

namespace WasmTrim

/-- The bytes of a module's file: its text, on one line. -/
def Sexpr.fileBytes (module : Sexpr) : ByteArray :=
  module.toText.toUTF8

/-- The module in a file. -/
def FileView.readModule (view : FileView) (path : String) : Except ParseError Sexpr :=
  match view.readText path with
  | .error e => .error (.unreadable path e.message)
  | .ok text => Sexpr.parse text

namespace FileTree

/-- The module in a file. -/
def readModule (tree : FileTree) (path : String) : Except ParseError Sexpr :=
  tree.view.readModule path

/-- Writes a module to a file. -/
def writeModule (tree : FileTree) (path : String) (module : Sexpr) : Except FileError FileTree :=
  tree.write path module.fileBytes

end FileTree

end WasmTrim
