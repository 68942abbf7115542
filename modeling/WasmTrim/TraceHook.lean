/-!
# Trace hooks

The three imports through which an instrumented module tells its host what it does: that a function
runs, and that a frozen or a builtin module is being loaded. Each takes one 32-bit argument, the
function's fingerprint or the address of the loaded module's name.
-/

namespace WasmTrim

/-- The module that every host function is imported from. -/
def hostModule : String := "env"

/-- What an instrumented module reports. -/
inductive TraceHook where
  /-- A function runs; the argument is its fingerprint. -/
  | functionCall
  /-- A frozen module is loaded; the argument is the address of its path. -/
  | frozenModuleLoad
  /-- A builtin module is loaded; the argument is the address of its name. -/
  | builtinModuleLoad
  deriving Repr, DecidableEq, Inhabited

namespace TraceHook

/-- The name that the hook is imported by. -/
def importName : TraceHook → String
  | .functionCall => "trace_function_call"
  | .frozenModuleLoad => "trace_frozen_module_load"
  | .builtinModuleLoad => "trace_builtin_module_load"

/-- The hooks, in the order in which they are imported. -/
def all : List TraceHook := [.functionCall, .frozenModuleLoad, .builtinModuleLoad]

/-- The hook that reports the first argument of a function, for the functions of the runtime that
load the module named by it. -/
def ofLoader? (function : String) : Option TraceHook :=
  if function = "load_frozen_module" then some .frozenModuleLoad
  else if function = "notify_builtin_module_load" then some .builtinModuleLoad
  else none

end TraceHook

end WasmTrim
