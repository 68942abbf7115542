import WasmTrim.FileTree.Path
import WasmTrim.Memory.Words
import WasmTrim.SortedSet

/-!
# Trees of files

The files that a build works on: files, directories and symbolic links, each at its place, and the
operations on them that the build needs. Failures are those of a Unix system, and their texts too.

A place is the list of names from the root down. Paths are read from the current directory, and the
links in them are followed.

## Implementation notes

Entries stand in one list, so that what an operation leaves alone is everything but the places that
it names. A walk lists links and does not follow them, and it cannot list a directory whose path is
too long. The chain of links that a path may follow is bounded, as it is on a real system.
-/

namespace WasmTrim

/-- Why an operation on files fails. -/
inductive FileError where
  /-- Nothing is there. -/
  | notFound
  /-- The operation may not be done. -/
  | permissionDenied
  /-- Something is there already. -/
  | alreadyExists
  /-- A name in the middle of a path is no directory. -/
  | notADirectory
  /-- A directory stands where a file should. -/
  | isADirectory
  /-- A name is too long. -/
  | nameTooLong
  /-- Links lead on and on. -/
  | tooManyLinks
  /-- A path holds a zero byte. -/
  | zeroByteInPath
  /-- A text was asked for, and the bytes are none. -/
  | notText
  /-- Only a regular file can be copied. -/
  | notRegular
  /-- Something else, such as a disk that is full. -/
  | other (reason : String)
  deriving Repr, DecidableEq, Inhabited

namespace FileError

/-- The text of a failure. -/
def message : FileError → String
  | .notFound => "No such file or directory (os error 2)"
  | .permissionDenied => "Permission denied (os error 13)"
  | .alreadyExists => "File exists (os error 17)"
  | .notADirectory => "Not a directory (os error 20)"
  | .isADirectory => "Is a directory (os error 21)"
  | .nameTooLong => "File name too long (os error 36)"
  | .tooManyLinks => "Too many levels of symbolic links (os error 40)"
  | .zeroByteInPath => "file name contained an unexpected NUL byte"
  | .notText => "stream did not contain valid UTF-8"
  | .notRegular => "the source path is neither a regular file nor a symlink to a regular file"
  | .other reason => reason

end FileError

/-- The names from the root down to an entry. -/
abbrev Place := List String

/-- What can stand at a place. -/
inductive FileEntry where
  /-- A file, and whether it may be run. -/
  | file (bytes : ByteArray) (executable : Bool)
  /-- A directory. -/
  | directory
  /-- A symbolic link. -/
  | link (target : String)
  deriving DecidableEq, Inhabited

/-- Tells whether an entry is a file. -/
def FileEntry.isFile : FileEntry → Bool
  | file .. => true
  | _ => false

/-- Files, directories and links at their places. The root is always there. -/
structure FileTree where
  /-- The entries and their places, each place once. -/
  entries : List (Place × FileEntry) := []
  /-- The directory that relative paths start from. -/
  current : Place := []
  deriving DecidableEq, Inhabited

namespace FileTree

/-- What stands at a place. -/
def entry? (tree : FileTree) (place : Place) : Option FileEntry :=
  if place = [] then some .directory
  else (tree.entries.find? (·.1 = place)).map (·.2)

/-- Puts an entry at a place. -/
def put (tree : FileTree) (place : Place) (entry : FileEntry) : FileTree :=
  { tree with entries := replace tree.entries }
where
  /-- Replaces the entry of the place, or adds it at the end. -/
  replace : List (Place × FileEntry) → List (Place × FileEntry)
    | [] => [(place, entry)]
    | e :: rest => if e.1 = place then (place, entry) :: rest else e :: replace rest

/-- Where a path leads. -/
inductive Target where
  /-- To an entry. -/
  | found (place : Place) (entry : FileEntry)
  /-- To a name that is not there, in a directory that is. -/
  | missing (directory : Place) (name : String)
  deriving Inhabited

/-- What a path is followed for. -/
inductive Aim where
  /-- To reach what is there. -/
  | reach
  /-- To write a file, a new one if nothing is there. -/
  | write
  /-- To make a directory. A link at the end of the path is something that is there. -/
  | make
  deriving Repr, DecidableEq, Inhabited

/-- The size of the longest name. -/
def maxNameSize : Nat := 255

/-- The size of the longest path. -/
def maxPathSize : Nat := 4095

/-- The number of links that a path may follow. -/
def maxLinks : Nat := 40

/-- Follows steps from a directory on. A name that only empty steps follow is the last one; what
they ask for, a directory, is never what a file is written to. -/
def walk (tree : FileTree) (aim : Aim) (links : Nat) (here : Place) (path : List String) :
    Except FileError Target :=
  match path with
  | [] =>
    match tree.entry? here with
    | some entry => .ok (.found here entry)
    | none => .error .notFound
  | name :: rest =>
    let last := rest.all (· == "")
    if name = "" ∨ name = "." then walk tree aim links here rest
    else if name = ".." then walk tree aim links here.dropLast rest
    else if aim = .write ∧ last ∧ rest ≠ [] then .error .isADirectory
    else if maxNameSize < name.utf8ByteSize then .error .nameTooLong
    else
      match tree.entry? (here ++ [name]) with
      | none => if last then .ok (.missing here name) else .error .notFound
      | some .directory => walk tree aim links (here ++ [name]) rest
      | some (.file bytes executable) =>
        if rest = [] ∨ aim = .make ∧ last then .ok (.found (here ++ [name]) (.file bytes executable))
        else .error .notADirectory
      | some (.link target) =>
        if aim = .make ∧ last then .ok (.found (here ++ [name]) (.link target))
        else
          match links with
          | 0 => .error .tooManyLinks
          | links + 1 =>
            if target = "" then .error .notFound
            else
              walk tree aim links (if Path.isAbsolute target then [] else here)
                (Path.steps target ++ rest)
termination_by (links, path.length)

/-- Where a path leads, seen from the current directory. -/
def lookUp (tree : FileTree) (path : String) (aim : Aim) : Except FileError Target :=
  if path.toList.contains '\x00' then .error .zeroByteInPath
  else if path = "" then .error .notFound
  else if maxPathSize < path.utf8ByteSize then .error .nameTooLong
  else
    tree.walk aim maxLinks (if Path.isAbsolute path then [] else tree.current) (Path.steps path)

/-- Tells whether a path leads to a directory. -/
def isDirectory (tree : FileTree) (path : String) : Bool :=
  match tree.lookUp path .reach with
  | .ok (.found _ .directory) => true
  | _ => false

/-- Tells whether a path leads to a file. -/
def isFile (tree : FileTree) (path : String) : Bool :=
  match tree.lookUp path .reach with
  | .ok (.found _ (.file ..)) => true
  | _ => false

/-- The bytes of a file. -/
def read (tree : FileTree) (path : String) : Except FileError ByteArray :=
  match tree.lookUp path .reach with
  | .error e => .error e
  | .ok (.found _ (.file bytes _)) => .ok bytes
  | .ok (.found _ .directory) => .error .isADirectory
  | .ok _ => .error .notFound

/-- Writes a file, a new one or in place of its former bytes. -/
def write (tree : FileTree) (path : String) (bytes : ByteArray) : Except FileError FileTree :=
  match tree.lookUp path .write with
  | .error e => .error e
  | .ok (.found place (.file _ executable)) => .ok (tree.put place (.file bytes executable))
  | .ok (.found ..) => .error .isADirectory
  | .ok (.missing directory name) => .ok (tree.put (directory ++ [name]) (.file bytes false))

/-- Makes one directory. -/
def makeDirectory (tree : FileTree) (path : String) : Except FileError FileTree :=
  match tree.lookUp path .make with
  | .error e => .error e
  | .ok (.found ..) => .error .alreadyExists
  | .ok (.missing directory name) => .ok (tree.put (directory ++ [name]) .directory)

/-- Makes a directory after the ones that lead to it, where they are missing; `fuel` bounds how many
of them there are. Those that were made stay, also if a later one cannot be made. -/
def makeDirectoriesWith (tree : FileTree) : (fuel : Nat) → String → Except FileError Unit × FileTree
  | 0, _ => (.error .notFound, tree)
  | fuel + 1, path =>
    if path = "" then (.ok (), tree)
    else
      match tree.makeDirectory path with
      | .ok tree => (.ok (), tree)
      | .error .notFound =>
        match Path.parent? path with
        | none => (.error .notFound, tree)
        | some parent =>
          match makeDirectoriesWith tree fuel parent with
          | (.error e, tree) => (.error e, tree)
          | (.ok (), tree) =>
            match tree.makeDirectory path with
            | .ok tree => (.ok (), tree)
            | .error e => (if tree.isDirectory path then .ok () else .error e, tree)
      | .error e => (if tree.isDirectory path then .ok () else .error e, tree)

/-- Makes a directory and the ones that lead to it. -/
def makeDirectories (tree : FileTree) (path : String) : Except FileError Unit × FileTree :=
  tree.makeDirectoriesWith (path.length + 2) path

/-- Copies a file. The copy is cleared before its bytes are taken, so a file copied to itself ends
empty. -/
def copy (tree : FileTree) (source destination : String) : Except FileError FileTree :=
  match tree.lookUp source .reach with
  | .error e => .error e
  | .ok (.missing ..) => .error .notFound
  | .ok (.found place (.file ..)) =>
    match tree.write destination .empty with
    | .error e => .error e
    | .ok cleared =>
      match cleared.entry? place with
      | some (.file bytes _) => cleared.write destination bytes
      | _ => .ok cleared
  | .ok (.found ..) => .error .notRegular

/-- The names of the entries in a directory, sorted. -/
def children (tree : FileTree) (directory : Place) : List String :=
  sortedSet (tree.entries.filterMap fun (place, _) =>
    if place.dropLast = directory then place.getLast? else none)

/-- Why the tree below a directory cannot be walked to its end. -/
structure WalkError where
  /-- The directory that cannot be listed, as the walk names it. -/
  path : String
  /-- Why it cannot. -/
  cause : FileError
  deriving Repr, DecidableEq, Inhabited

/-- The text of a failure to walk a tree. -/
def WalkError.message (e : WalkError) : String :=
  s!"IO error for operation on {e.path}: {e.cause.message}"

/-- What a walk meets below the directory that `path` names and `directory` is, each directory ahead
of what it holds, and names in order. Places are told from that directory on. -/
def below (tree : FileTree) (path : String) (directory : Place) :
    List (Except WalkError (Place × FileEntry)) :=
  from? tree.entries.length directory []
where
  /-- What is met below a directory that is so many names deeper at most. -/
  from? (fuel : Nat) (directory shown : Place) : List (Except WalkError (Place × FileEntry)) :=
    let here := if shown = [] then path else Path.join path ("/".intercalate shown)
    match fuel with
    | 0 => []
    | fuel + 1 =>
      if maxPathSize < here.utf8ByteSize then [.error ⟨here, .nameTooLong⟩]
      else
        (tree.children directory).flatMap fun name =>
          let place := directory ++ [name]
          match tree.entry? place with
          | none => []
          | some .directory =>
            .ok (shown ++ [name], .directory) :: from? fuel place (shown ++ [name])
          | some entry => [.ok (shown ++ [name], entry)]

end FileTree

end WasmTrim
