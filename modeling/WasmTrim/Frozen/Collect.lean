import WasmTrim.Archive.Zip
import WasmTrim.FileTree.View
import WasmTrim.Frozen.Store

/-!
# Collecting compiled modules

The modules of an image come from two places: the archive of the standard library, entry by entry,
and the tree of the user's library, file by file. Both are lists of candidates, and one rule adds
them to a store: those that are wanted, in order, up to the first that cannot be read.

`FrozenStore.collectFrom` takes both from what can be read at one time, with any reader of archives.
`FrozenStore.collect` takes them from a tree of files.
-/

namespace WasmTrim

/-- Something that may be a compiled module. -/
inductive Candidate where
  /-- Something that cannot even be opened. -/
  | broken (cause : PackError)
  /-- A compiled module by its path, or why its code cannot be read. -/
  | module (path : String) (code : Except PackError ByteArray)

/-- Reads the entries of an archive in their order, if the bytes are one. -/
abbrev ArchiveReader := ByteArray → Option (List Zip.Entry)

namespace FrozenStore

/-- Adds the wanted candidates to a store. The store keeps what was added before a failure. -/
def addCandidates (wanted : String → Bool) (store : FrozenStore) :
    List Candidate → FrozenStore × Option PackError
  | [] => (store, none)
  | .broken cause :: _ => (store, some cause)
  | .module path code :: rest =>
    if wanted path then
      match code with
      | .error cause => (store, some cause)
      | .ok bytes => addCandidates wanted (store.addModule path bytes) rest
    else addCandidates wanted store rest

/-- The candidates among the entries of an archive that `archive` names. -/
def archiveCandidates (archive : String) (entries : List Zip.Entry) : List Candidate :=
  entries.filterMap fun e =>
    if !e.supported then some (.broken (.badArchive archive))
    else if e.isDirectory then none
    else
      let cs := e.name.toList.dropWhile (· == '/')
      let path := String.ofList cs
      if ".pyc".toList.isSuffixOf cs then
        some (.module path (match e.contents with
          | some bytes => .ok bytes
          | none => .error (.damagedEntry archive path)))
      else none

/-- The candidates in an archive, or the failure to read it as the only one. -/
def candidatesOfArchive (entries? : ArchiveReader) (view : FileView) (archive : String) :
    List Candidate :=
  match view.read archive with
  | .error .isADirectory => [.broken (.badArchive archive)]
  | .error e => [.broken (.unreadable archive e.message)]
  | .ok bytes =>
    match entries? bytes with
    | some entries => archiveCandidates archive entries
    | none => [.broken (.badArchive archive)]

/-- The candidates below the directory of the user's library. -/
def candidatesBelow (view : FileView) (directory : String) : List Candidate :=
  let found := view.filesBelow directory "pyc"
  found.paths.map (fun path =>
    .module path (match view.read (Path.join directory path) with
      | .ok bytes => .ok bytes
      | .error e => .error (.unreadable (Path.join directory path) e.message))) ++
    found.failure.toList.map fun e => .broken (.unlistable directory e.message)

/-- Adds the compiled modules of the archive, if there is one, and of the user's library; with a
filter, only those whose paths are in it. -/
def collectFrom (store : FrozenStore) (entries? : ArchiveReader) (view : FileView)
    (filter : Option (List String)) (archive : Option String) (directory : String) :
    FrozenStore × Option PackError :=
  let wanted := fun path => match filter with
    | some paths => paths.contains path
    | none => true
  let fromArchive := match archive with
    | some path => candidatesOfArchive entries? view path
    | none => []
  store.addCandidates wanted (fromArchive ++ candidatesBelow view directory)

/-- Adds the compiled modules of the archive, if there is one, and of the user's library in a tree
of files; with a filter, only those whose paths are in it. -/
def collect (store : FrozenStore) (tree : FileTree) (filter : Option (List String))
    (archive : Option String) (directory : String) : FrozenStore × Option PackError :=
  store.collectFrom Zip.entries? tree.view filter archive directory

end FrozenStore

end WasmTrim
