/-!
# Paths

Paths as texts, with slashes between their names. A name's extension is what follows its last dot,
unless nothing precedes that dot.
-/

namespace WasmTrim.Path

/-- Tells whether a path starts at the root. -/
def isAbsolute (path : String) : Bool :=
  path.toList.head? == some '/'

/-- A path seen from a directory. An absolute path stays as it is. -/
def join (directory path : String) : String :=
  if isAbsolute path then path
  else if directory = "" ∨ directory.toList.getLast? = some '/' then directory ++ path
  else directory ++ "/" ++ path

/-- Splits characters at a separator; there is always at least one part. -/
def splitAt (separator : Char) (cs : List Char) : List (List Char) :=
  cs.foldr (fun c parts =>
    if c = separator then [] :: parts
    else match parts with
      | part :: rest => (c :: part) :: rest
      | [] => [[c]]) [[]]

/-- The names of a path, without the empty ones and those that stay in place. -/
def names (path : String) : List String :=
  ((splitAt '/' path.toList).map String.ofList).filter fun name => name != "" && name != "."

/-- The steps of a path: its names, those included that stay in place. A slash at its end leaves an
empty step there, which asks for a directory. -/
def steps (path : String) : List String :=
  let parts := (splitAt '/' path.toList).map String.ofList
  parts.filter (· != "") ++ if parts.getLast? = some "" then [""] else []

/-- What precedes the last name of a path; the root and the empty path have no such part. -/
def parent? (path : String) : Option String :=
  match (names path).reverse with
  | [] => none
  | _ :: before =>
    some ((if isAbsolute path then "/" else "") ++ "/".intercalate before.reverse)

/-- What precedes and what follows the last dot of a name, if something precedes it. -/
def splitExtension? (name : String) : Option (String × String) :=
  match (splitAt '.' name.toList).reverse with
  | last :: before@(_ :: _) =>
    let stem := List.intercalate ['.'] before.reverse
    if stem.isEmpty || name == ".." then none
    else some (String.ofList stem, String.ofList last)
  | _ => none

/-- The extension of a name. -/
def extension? (name : String) : Option String :=
  (splitExtension? name).map (·.2)

/-- A name without its extension. -/
def stem (name : String) : String :=
  match splitExtension? name with
  | some (stem, _) => stem
  | none => name

/-- A path whose last name has another extension, not empty. What follows that name, slashes and
steps that stay in place, is dropped; a path that ends in no name is left. -/
def withExtension (path extension : String) : String :=
  match (splitAt '/' path.toList).reverse.dropWhile fun part => part = [] ∨ part = ['.'] with
  | [] | ['.', '.'] :: _ => path
  | name :: before =>
    let parts := before.reverse ++ [(stem (String.ofList name)).toList]
    String.ofList (['/'].intercalate parts) ++ "." ++ extension

end WasmTrim.Path
