import WasmTrim.Memory.Words
import WasmTrim.Text.Digits

/-!
# Entry points

The exported methods of a contract, each with the sample payloads that it is traced with. Their
order is the order in which they were first named, and naming one again replaces its payloads.
-/

namespace WasmTrim

/-- An exported method and its sample payloads. -/
structure EntryPoint where
  /-- The method's name, with the name of its module and a dot in front unless that is
  `contract`. -/
  name : String
  /-- The inputs that it is traced with. -/
  payloads : List ByteArray
  deriving DecidableEq, Inhabited

/-- The entry points of a build, each name once. -/
abbrev EntryPoints := List EntryPoint

namespace EntryPoints

/-- The input of an entry point that has no sample payloads. -/
def defaultPayload : ByteArray := "\x7b\x7d".toUTF8

/-- The module of an entry point whose name has no dot. -/
def defaultModule : String := "contract"

/-- Names an entry point. A name that is known already keeps its place and takes the
new payloads. -/
def insert (entries : EntryPoints) (name : String) (payloads : List ByteArray) : EntryPoints :=
  match entries with
  | [] => [⟨name, payloads⟩]
  | e :: rest =>
    if e.name = name then ⟨name, payloads⟩ :: rest else e :: insert rest name payloads

/-- Names the entry points of another list, in its order. -/
def extend (entries others : EntryPoints) : EntryPoints :=
  others.foldl (fun entries e => insert entries e.name e.payloads) entries

/-- Entry points without sample payloads. -/
def ofNames (names : List String) : EntryPoints :=
  names.foldl (fun entries name => insert entries name []) []

/-- The entry points of a module, their names qualified by its name. -/
def qualified (entries : EntryPoints) (module : String) : EntryPoints :=
  entries.map fun e => { e with name := module ++ "." ++ e.name }

/-- The payloads that an entry point is traced with. -/
def payloadsToRun (e : EntryPoint) : List ByteArray :=
  if e.payloads.isEmpty then [defaultPayload] else e.payloads

end EntryPoints

namespace EntryPoint

/-- What follows the last dot, in reverse what was read before it, and what precedes that dot. -/
def splitReversed : List Char → Option (List Char × List Char)
  | [] => none
  | c :: before =>
    if c = '.' then some ([], before)
    else (splitReversed before).map fun (after, before) => (c :: after, before)

/-- The module and the function that an entry point's name stands for: what precedes its last dot,
and what follows it. -/
def split (name : String) : String × String :=
  match splitReversed name.toList.reverse with
  | some (after, before) => (String.ofList before.reverse, String.ofList after.reverse)
  | none => (EntryPoints.defaultModule, name)

/-- Removes the suffix `.py` from reversed characters, as often as it is there. -/
def dropSourceSuffix : List Char → List Char
  | 'y' :: 'p' :: '.' :: rest => dropSourceSuffix rest
  | cs => cs

/-- The name of the module that a source file makes, by its path in the library. -/
def moduleName (path : String) : String :=
  String.ofList ((dropSourceSuffix path.toList.reverse).reverse.map fun c =>
    if c = '/' ∨ c = '\\' then '.' else c)

end EntryPoint

end WasmTrim
