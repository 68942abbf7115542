import WasmTrim.Frozen.Layout
import WasmTrim.Memory.Words
import WasmTrim.Module.DataSegment

/-!
# Modules and strings of the frozen image

A store gathers what goes into the image: modules in the order in which they were added, and the
strings that code refers to by address. `FrozenStore.intern` gives a string its address, the same
one each time, and addresses stay valid whatever is added later. `FrozenStore.image` lays everything
out as bytes.
-/

namespace WasmTrim

/-- A compiled module of the frozen image. -/
structure FrozenModule where
  /-- The path by which the runtime finds it. -/
  path : String
  /-- Its compiled code. -/
  code : ByteArray
  deriving DecidableEq, Inhabited

/-- Why modules cannot be packed. -/
inductive PackError where
  /-- A path leaves no room for the zero byte behind it. -/
  | pathTooLong (path : String) (size : Nat)
  /-- So many modules leave no record to end the table. -/
  | tooManyModules (count : Nat)
  /-- The image does not fit into its window. -/
  | windowExceeded (needed : Nat)
  /-- A file could not be read. -/
  | unreadable (path : String) (reason : String)
  /-- The contents of an archive's entry are damaged. -/
  | damagedEntry (archive : String) (path : String)
  /-- A file is no archive that can be read. -/
  | badArchive (path : String)
  /-- A directory could not be listed. -/
  | unlistable (path : String) (reason : String)
  deriving Repr, DecidableEq, Inhabited

/-- The modules and strings of an image to be. -/
structure FrozenStore where
  /-- The modules, in the order in which they were added. -/
  modules : Array FrozenModule := #[]
  /-- The strings, each once, in the order in which they were first interned. -/
  strings : Array String := #[]
  deriving Inhabited

namespace FrozenStore

open Frozen

/-- A store without modules and strings. -/
def empty : FrozenStore := {}

/-- Adds a module behind all others. -/
def addModule (store : FrozenStore) (path : String) (code : ByteArray) : FrozenStore :=
  { store with modules := store.modules.push ⟨path, code⟩ }

/-- The bytes of a string and the zero byte that ends it. -/
def stringBytes (s : String) : ByteArray :=
  s.toUTF8.push 0

/-- Where a string lies among others laid back to back from `offset` on. -/
def offsetFrom? (s : String) (offset : Nat) : List String → Option Nat
  | [] => none
  | t :: rest => if t = s then some offset else offsetFrom? s (offset + t.utf8ByteSize + 1) rest

/-- The number of bytes that the strings take. -/
def poolSize (store : FrozenStore) : Nat :=
  store.strings.foldl (fun n s => n + s.utf8ByteSize + 1) 0

/-- The bytes of the strings, in the order in which they were first interned. -/
def pool (store : FrozenStore) : ByteArray :=
  store.strings.foldl (fun bytes s => bytes ++ stringBytes s) .empty

/-- The address in guest memory of a place in the image. -/
def address (offset : Nat) : UInt32 :=
  (baseAddress + offset).toUInt32

/-- Gives a string its address, adding it to the store when it is new. -/
def intern (store : FrozenStore) (s : String) : UInt32 × FrozenStore :=
  match offsetFrom? s 0 store.strings.toList with
  | some offset => (address (stringsOffset + offset), store)
  | none =>
    (address (stringsOffset + store.poolSize), { store with strings := store.strings.push s })

/-- The number of bytes of all modules' code. -/
def codeSize (store : FrozenStore) : Nat :=
  store.modules.foldl (fun n m => n + m.code.size) 0

/-- The number of bytes that the image takes. -/
def imageSize (store : FrozenStore) : Nat :=
  stringsOffset + store.poolSize + store.codeSize

/-- The record of a module whose code lies at `offset` in the image. -/
def record (module : FrozenModule) (offset : Nat) : ByteArray :=
  word32Bytes (address offset) ++ word32Bytes module.code.size.toUInt32 ++ module.path.toUTF8 ++
    zeros (recordSize - 8 - module.path.utf8ByteSize)

/-- Appends the records of modules whose code lies back to back from `offset` on, or reports the
first path that is too long. -/
def records (table : ByteArray) (offset : Nat) : List FrozenModule → Except PackError ByteArray
  | [] => .ok table
  | m :: rest =>
    if pathLimit ≤ m.path.utf8ByteSize then .error (.pathTooLong m.path m.path.utf8ByteSize)
    else records (table ++ record m offset) (offset + m.code.size) rest

/-- The code of all modules back to back. -/
def blobs (store : FrozenStore) : ByteArray :=
  store.modules.foldl (fun bytes m => bytes ++ m.code) .empty

/-- The bytes of the image. -/
def image (store : FrozenStore) : Except PackError ByteArray :=
  if slots ≤ store.modules.size then .error (.tooManyModules store.modules.size)
  else if windowSize < store.imageSize then .error (.windowExceeded store.imageSize)
  else do
    let table ← records .empty (stringsOffset + store.poolSize) store.modules.toList
    return table ++ zeros (stringsOffset - table.size) ++ store.pool ++ store.blobs

/-- The module with the image as its last field. -/
def embedIn (store : FrozenStore) (module : Sexpr) : Except PackError Sexpr := do
  let bytes ← store.image
  return module.withFields
    (module.fields ++ [Sexpr.dataField segmentName baseAddress.toUInt32 bytes])

end FrozenStore

namespace PackError

/-- The report of a failure. -/
def message : PackError → String
  | .pathTooLong path size =>
    s!"module path `{path}` is {size} bytes, must be shorter than {Frozen.pathLimit}"
  | .tooManyModules count =>
    s!"{count} modules leave no room for the table terminator (limit {Frozen.slots - 1})"
  | .windowExceeded needed =>
    s!"frozen image needs {needed} bytes but the window holds {Frozen.windowSize}"
  | .unreadable path reason => s!"failed to read {path}: {reason}"
  | .damagedEntry archive path => s!"failed to read {archive}:{path}"
  | .badArchive path => s!"failed to read archive {path}"
  | .unlistable path reason => s!"failed to walk {path}: {reason}"

end PackError

end WasmTrim
