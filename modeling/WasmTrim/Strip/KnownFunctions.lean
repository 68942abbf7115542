/-!
# Known functions of the runtime

What is known in advance about the functions of a Python runtime: which ones must stay although no
trace shows them, which ones implement a builtin module, and which ones contracts never need.
-/

namespace WasmTrim

/-- Functions that are kept whatever the trace shows: deallocation, the printing of exceptions and
tracebacks, release of the interpreter lock, and process exit. Sample calls rarely reach them, but
the runtime aborts without them. -/
def pinnedFunctions : List String := [
  "_Py_Dealloc", "PyObject_ClearWeakRefs", "PyObject_ClearManagedDict", "clear_inline_values",
  "is_basic_ref_or_proxy", "_PyWeakref_GetWeakrefCount", "set_len",
  "_weakref__remove_dead_weakref", "is_dead_weakref", "clear_slots", "PyObject_DelItem",
  "lock_dealloc", "_PySuper_Lookup", "wrapperdescr_call", "_PyObject_RealIsSubclass",
  "recursive_issubclass", "Py_Exit", "exit", "close_file", "_Exit", "__wasi_proc_exit",
  "setvbuf", "_PyErr_NoMemory", "optimized_out_function_panic_handler", "snprintf", "log_utf8_c",
  "strlen", "log_utf8", "abort", "decompress_data_initializer", "pymain_init",
  "_Py_GetErrorHandler", "siprintf", "vfiprintf", "iprintf", "PyErr_SetString",
  "_PyErr_SetString", "BaseException_vectorcall", "PyErr_PrintEx", "_PyErr_PrintEx",
  "handle_system_exit", "_PySys_GetOptionalAttr", "_PySys_Audit",
  "cfunction_vectorcall_FASTCALL", "sys_excepthook", "PyErr_Display", "_PyErr_Display",
  "PyImport_ImportModuleAttrString", "PyImport_ImportModuleAttr", "_PyErr_Format", "meth_repr",
  "puts", "fputs", "fwrite", "__overflow", "BaseException_dealloc", "PySet_New", "PySet_Add",
  "print_exception_recursive", "_Py_EnterRecursiveCall", "PyException_GetCause",
  "PyException_GetContext", "PyObject_GetOptionalAttr", "_Py_type_getattro",
  "_Py_type_getattro_impl", "PyDescr_IsData", "getset_get", "type_get_module",
  "PyType_GetQualName", "PyFile_WriteObject", "PyObject_GenericGetAttr", "method_get",
  "stdprinter_write", "_Py_write", "_Py_write_impl", "_PySys_SetAttr", "PyEval_SaveThread",
  "_PyThreadState_Detach", "detach_thread", "_PyEval_ReleaseLock", "drop_gil", "drop_gil_impl",
  "write", "PyEval_RestoreThread", "BaseException_str", "PyUnicode_GetLength",
  "PyFile_WriteString", "set_dealloc", "_PyFile_Flush", "PyObject_CallMethodNoArgs",
  "PyObject_VectorcallMethod", "method_vectorcall_NOARGS"
]

/-- The builtin modules, each with the starts of the names of the functions that implement it. -/
def builtinModules : List (String × List String) := [
  ("array", ["array"]),
  ("_bisect", ["_bisect"]),
  ("_contextvars", ["_contextvars"]),
  ("_heapq", ["_heapq"]),
  ("_json", ["_json"]),
  ("_queue", ["_queue"]),
  ("_random", ["_random"]),
  ("_struct", ["Struct_", "unpackiter_"]),
  ("math", ["math"]),
  ("cmath", ["cmath"]),
  ("_statistics", ["_statistics"]),
  ("_decimal", ["_decimal"]),
  ("binascii", ["binascii"]),
  ("_md5", ["md5_", "MD5_", "MD5Type_", "Hacl_Hash_MD5", "python_hashlib_Hacl_Hash_MD5"]),
  ("_sha1", ["_sha1", "SHA1", "Hacl_Hash_SHA1", "python_hashlib_Hacl_Hash_SHA1"]),
  ("_sha2", [
    "_sha2", "SHA2", "SHA256", "SHA512", "Hacl_Hash_SHA2", "python_hashlib_Hacl_Hash_SHA2"]),
  ("_sha3", ["_sha3", "SHA3", "py_sha3", "Hacl_Hash_SHA3", "python_hashlib_Hacl_Hash_SHA3"]),
  ("termios", ["termios"]),
  ("atexit", ["atexit"]),
  ("faulthandler", ["faulthandler"]),
  ("posix", ["posix"]),
  ("_signal", ["_signal_", "signal_", "signaldict"]),
  ("_codecs", ["_codecs"]),
  ("_collections", ["_collections"]),
  ("errno", ["errno"]),
  ("_io", ["_io"]),
  ("itertools", ["itertools"]),
  ("_sre", ["_sre_", "sre_"]),
  ("_sysconfig", ["_sysconfig"]),
  ("_thread", ["_thread"]),
  ("time", ["time", "pytime"]),
  ("_typing", ["_typing"]),
  ("_weakref", ["_weakref"]),
  ("_abc", ["_abc"]),
  ("_functools", ["_functools"]),
  ("_operator", ["_operator"]),
  ("marshal", ["marshal_", "PyMarshal_"]),
  ("_ast", ["_PyAST", "PyAST", "obj2ast", "ast2obj", "_ast", "ast_", "astfold_", "astmodule_"]),
  ("_asyncio", ["_asyncio", "task_", "Task", "FutureIter"]),
  ("_tokenize", ["_tokenize", "tokenize"]),
  ("_warnings", ["_PyWarnings"]),
  ("_string", ["_string", "_PyUnicode", "PyUnicode", "unicode"])
]

/-- The starts of the names of functions that a contract can do without: complex numbers,
coroutines and generators, the compiler and the parser, hooks for debugging and monitoring, and
support for pickling and XML. -/
def removablePrefixes : List String := [
  "_complex", "complex_", "PyComplex", "ucs4lib", "ucs2lib", "anextawaitable_", "coro_",
  "async_", "gen_", "ag_", "SyntaxError", "compiler", "_PyPegen", "_Pypegen", "_PyTokenizer",
  "_PyLexer", "builtin_compile", "_parser", "_PyParser", "InstructionSequence",
  "_PyInstructionSequence", "code_", "_PyCode", "_PyCompile", "PyCompile", "Py_Compile",
  "assemble_", "PyEval", "_PyEval", "builtin_eval", "validate_", "_PyMem_Debug", "_Py_Dump",
  "PySys", "PyOS", "OSError_", "oserror_", "symtable_", "PySymtable_", "_PySymtable",
  "sys_trace", "_PyMonitoring", "monitoring", "force_instrument", "_Py_call_instr", "_Py_Instr",
  "_start", "PyPickle", "pickle", "xml"
]

/-- The ends of the names of such functions: the rules of the parser. -/
def removableSuffixes : List String := ["_rule"]

/-- The starts of the names of functions that implement builtin modules not among `loaded`. -/
def unloadedBuiltinPrefixes (loaded : List String) : List String :=
  builtinModules.flatMap fun (name, prefixes) => if loaded.contains name then [] else prefixes

end WasmTrim
