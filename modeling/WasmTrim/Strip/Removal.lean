import WasmTrim.Frozen.Store
import WasmTrim.SortedSet
import WasmTrim.Strip.Policy

/-!
# Removing functions

`Sexpr.strip` replaces the instructions of every removed function by `unreachable`, so that a call
of it fails at once. Every direct call of a removed function, folded or not, becomes a report of the
function's name to the panic handler followed by `unreachable`; the name is interned in the frozen
image, and the report carries its address.

## Implementation notes

The store of the image is threaded through the fields in the order in which calls occur, since that
order decides the addresses.
-/

namespace WasmTrim

/-- The function that is told the name of a removed function that was called. -/
def panicHandler : String := "optimized_out_function_panic_handler"

/-- A module without its removed functions. -/
structure Stripped where
  /-- What is left of the module. -/
  module : Sexpr
  /-- The names of the functions that went, sorted. -/
  removed : List String
  /-- The names of the functions that stayed, sorted. -/
  retained : List String
  deriving Inhabited

namespace Sexpr

/-- The instruction that fails. -/
def unreachable : Sexpr := .list [.atom "unreachable"]

/-- The removed function that an item names. -/
def removedTarget? (removed : List String) (item : Sexpr) : Option String :=
  match item.identifier? with
  | some name => if removed.contains name then some name else none
  | none => none

/-- The removed function that a folded call with these items calls. -/
def removedCall? (removed : List String) : List Sexpr → Option String
  | .atom "call" :: target :: _ => removedTarget? removed target
  | _ => none

/-- What stands for a folded call of a removed function, given the address of its name. -/
def foldedReport (name : UInt32) : Sexpr :=
  .list [.atom "block", call panicHandler [i32Const name], unreachable]

/-- What stands for an unfolded call of a removed function, given the address of its name. -/
def unfoldedReport (name : UInt32) : List Sexpr :=
  [.atom "i32.const", .atom (toString name.toNat), .atom "call", .atom ("$" ++ panicHandler),
    .atom "unreachable"]

mutual

/-- Replaces the calls of removed functions in a tree. -/
def replaceCalls (removed : List String) (store : FrozenStore) : Sexpr → Sexpr × FrozenStore
  | .atom text => (.atom text, store)
  | .list items =>
    match removedCall? removed items with
    | some name =>
      let (address, store) := store.intern name
      (foldedReport address, store)
    | none =>
      match items with
      | [] => (.list [], store)
      | first :: rest =>
        let (first, store) := replaceCalls removed store first
        let (rest, store) := replaceCallsIn removed store rest
        (.list (first :: rest), store)

/-- Replaces the calls of removed functions in what follows the first item of a list. -/
def replaceCallsIn (removed : List String) (store : FrozenStore) :
    List Sexpr → List Sexpr × FrozenStore
  | [] => ([], store)
  | [item] =>
    let (item, store) := replaceCalls removed store item
    ([item], store)
  | item :: next :: rest =>
    match removedCall? removed [item, next] with
    | some name =>
      let (address, store) := store.intern name
      let (rest, store) := replaceCallsIn removed store rest
      (unfoldedReport address ++ rest, store)
    | none =>
      let (item, store) := replaceCalls removed store item
      let (rest, store) := replaceCallsIn removed store (next :: rest)
      (item :: rest, store)

end

/-- A function without instructions of its own: its declaration, and the instruction that fails. -/
def stub (func : Sexpr) : Sexpr :=
  .list (declaration func.items ++ [unreachable])

/-- Strips one field: a removed function becomes a stub, and in any other function the calls of
removed functions are replaced. -/
def stripField (removed : List String) (store : FrozenStore) (field : Sexpr) :
    Sexpr × FrozenStore :=
  if field.isForm "func" then
    match field.functionName? with
    | some name =>
      if removed.contains name then (stub field, store) else replaceCalls removed store field
    | none => replaceCalls removed store field
  else (field, store)

/-- Strips fields in order. -/
def stripFields (removed : List String) (store : FrozenStore) :
    List Sexpr → List Sexpr × FrozenStore
  | [] => ([], store)
  | field :: rest =>
    let (field, store) := stripField removed store field
    let (rest, store) := stripFields removed store rest
    (field :: rest, store)

/-- Removes from a module the functions that the policy removes. -/
def strip (module : Sexpr) (policy : StripPolicy) (store : FrozenStore) : Stripped × FrozenStore :=
  let names := sortedSet module.functionNames
  let removed := names.filter policy.removes
  let retained := names.filter (!policy.removes ·)
  let (fields, store) := stripFields removed store module.fields
  (⟨module.withFields fields, removed, retained⟩, store)

end Sexpr

/-- A list of names as a text file, one name a line. -/
def manifest (names : List String) : String :=
  names.foldl (fun text name => text ++ name ++ "\n") ""

/-- The file that lists the functions that went. -/
def removedManifest : String := "removed_functions.txt"

/-- The file that lists the functions that stayed. -/
def retainedManifest : String := "retained_functions.txt"

end WasmTrim
