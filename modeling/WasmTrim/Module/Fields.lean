import WasmTrim.Sexpr.Basic

/-!
# Modules as sequences of fields

A module is a list whose leading atoms, the keyword and perhaps a name, are its header; everything
from the first list on is its fields. The passes over a module read its fields and put others in
their place, and leave its header alone.

This file also reads a function's name and the end of its declaration, and builds the few forms that
the passes insert.
-/

namespace WasmTrim

namespace Sexpr

/-- The fields of a module: its items from the first list on. -/
def fields (module : Sexpr) : List Sexpr :=
  module.items.dropWhile (!·.isList)

/-- The header of a module: its leading atoms, or the keyword alone where there are none. -/
def header (module : Sexpr) : List Sexpr :=
  match module.items.takeWhile (!·.isList) with
  | [] => [.atom "module"]
  | leading => leading

/-- The module with other fields under the same header. -/
def withFields (module : Sexpr) (fields : List Sexpr) : Sexpr :=
  .list (module.header ++ fields)

/-- The name behind the dollar sign of an identifier. -/
def identifier? : Sexpr → Option String
  | .atom text =>
    match text.toList with
    | '$' :: name => some (String.ofList name)
    | _ => none
  | .list _ => none

/-- The name of a function field, without its dollar sign. -/
def functionName? : Sexpr → Option String
  | .list (.atom "func" :: name :: _) => name.identifier?
  | _ => none

/-- The names of a module's functions, in the order of their fields. -/
def functionNames (module : Sexpr) : List String :=
  module.fields.filterMap functionName?

/-- The keywords of the forms that may stand between a function's name and its instructions. -/
def declarationKeywords : List String :=
  ["type", "export", "import", "param", "result", "local"]

/-- Tells whether an item of a function belongs to its declaration. -/
def isDeclaration (item : Sexpr) : Bool :=
  match item.head? with
  | some keyword => declarationKeywords.contains keyword
  | none => false

/-- The declaration of a function form: its keyword, its name, and the declaration forms that follow
them without a gap. -/
def declaration (func : List Sexpr) : List Sexpr :=
  func.take 2 ++ (func.drop 2).takeWhile isDeclaration

/-- The instructions of a function form: what follows its declaration. -/
def instructions (func : List Sexpr) : List Sexpr :=
  (func.drop 2).dropWhile isDeclaration

/-- A function form is its declaration followed by its instructions. -/
theorem declaration_append_instructions (func : List Sexpr) :
    declaration func ++ instructions func = func := by
  rw [declaration, instructions, List.append_assoc, List.takeWhile_append_dropWhile,
    List.take_append_drop]

/-- Tells whether a function is declared as an import, by an `import` form among its items. -/
def hasInlineImport (func : Sexpr) : Bool :=
  func.items.any (isForm "import")

/-- The constant of a 32-bit word. -/
def i32Const (value : UInt32) : Sexpr :=
  .list [.atom "i32.const", .atom (toString value.toNat)]

/-- The call of a function by its name. -/
def call (target : String) (args : List Sexpr) : Sexpr :=
  .list (.atom "call" :: .atom ("$" ++ target) :: args)

end Sexpr

end WasmTrim
