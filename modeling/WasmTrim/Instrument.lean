import WasmTrim.Fingerprint
import WasmTrim.Module.Fields
import WasmTrim.TraceHook

/-!
# Instrumentation

`Sexpr.instrument` makes every named function of a module report its fingerprint when it is entered,
and makes the runtime's two loading functions report the module they load. The reports stand between
a function's declaration and its instructions. The imports of the hooks follow the module's first
import, and are placed once however often a module is instrumented.
-/

namespace WasmTrim.Sexpr

/-- The field that imports a trace hook. -/
def hookImport (hook : TraceHook) : Sexpr :=
  .list [.atom "import", .atom ("\"" ++ hostModule ++ "\""), .atom ("\"" ++ hook.importName ++ "\""),
    .list [.atom "func", .atom ("$" ++ hook.importName), .list [.atom "param", .atom "i32"]]]

/-- The fields that import all trace hooks. -/
def hookImports : List Sexpr :=
  TraceHook.all.map hookImport

/-- Tells whether a field imports the hook for function calls. -/
def isHookImport (field : Sexpr) : Bool :=
  field.isForm "import" &&
    field.items.any fun item => item.functionName? == some TraceHook.functionCall.importName

/-- The calls that a function of the given name makes when it is entered. -/
def entryReports (name : String) : List Sexpr :=
  let report := call TraceHook.functionCall.importName [i32Const (fingerprint name)]
  match TraceHook.ofLoader? name with
  | some hook => [call hook.importName [.list [.atom "local.get", .atom "$0"]], report]
  | none => [report]

/-- Makes a named function with instructions of its own report when it is entered. -/
def reportEntry (field : Sexpr) : Sexpr :=
  match field.functionName? with
  | none => field
  | some name =>
    if field.hasInlineImport then field
    else .list (declaration field.items ++ entryReports name ++ instructions field.items)

/-- Places the imports of the hooks behind the first import, or in front where there is none. -/
def placeHooks (fields : List Sexpr) : List Sexpr :=
  match fields.dropWhile (!·.isForm "import") with
  | [] => hookImports ++ fields
  | first :: rest => fields.takeWhile (!·.isForm "import") ++ first :: hookImports ++ rest

/-- Makes every named function of a module report its fingerprint when it is entered. -/
def instrument (module : Sexpr) : Sexpr :=
  let reporting := module.fields.map reportEntry
  module.withFields (if module.fields.any isHookImport then reporting else placeHooks reporting)

end WasmTrim.Sexpr
