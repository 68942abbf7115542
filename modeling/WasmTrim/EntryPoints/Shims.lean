import WasmTrim.EntryPoints.Basic
import WasmTrim.Frozen.Store

/-!
# Shims

A shim is an exported function that passes the names of a contract's module and method to the
runtime's dispatcher. `Sexpr.addShims` adds one for every entry point and interns the names.
-/

namespace WasmTrim

/-- The function of the runtime that dispatches calls of contract methods. -/
def dispatcher : String := "contract_entry_point"

namespace Sexpr

/-- The export of a method and the function behind it, given the addresses of the two names. -/
def shim (module function : String) (moduleAddress functionAddress : UInt32) : List Sexpr :=
  let id := .atom ("$" ++ module ++ "_" ++ function)
  [.list [.atom "export", .atom ("\"" ++ function ++ "\""), .list [.atom "func", id]],
    .list [.atom "func", id,
      call dispatcher [i32Const moduleAddress, i32Const functionAddress]]]

/-- The shims of entry points with the given names, in order. -/
def shims (store : FrozenStore) : List String → List Sexpr × FrozenStore
  | [] => ([], store)
  | name :: rest =>
    let (module, function) := EntryPoint.split name
    let (moduleAddress, store) := store.intern module
    let (functionAddress, store) := store.intern function
    let (others, store) := shims store rest
    (shim module function moduleAddress functionAddress ++ others, store)

/-- Adds a shim for every entry point behind the fields of a module. -/
def addShims (module : Sexpr) (entries : EntryPoints) (store : FrozenStore) :
    Sexpr × FrozenStore :=
  let (added, store) := shims store (entries.map (·.name))
  (module.withFields (module.fields ++ added), store)

end Sexpr

end WasmTrim
