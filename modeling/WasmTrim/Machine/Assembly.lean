import WasmTrim.Machine.Code
import WasmTrim.Machine.Lexeme
import WasmTrim.Module.Fields
import WasmTrim.Sexpr.Parse

/-!
# Assembling programs

Reading a program from the text form of a module: its fields are read one by one, then their
identifiers are resolved, then the instructions are read. A text that is no module, repeats an
identifier or refers to one that is not there has no program.
-/

namespace WasmTrim

namespace Assembly

/-- Parameters or locals: their identifiers and types. -/
abbrev Variables := List (Option String × ValueType)

/-- A field of a module whose identifiers are not resolved. -/
inductive Field where
  /-- An imported function. -/
  | imported (id : Option String) (exports : List String) (function : ImportedFunction)
  /-- A function with instructions of its own. -/
  | function (id : Option String) (exports : List String) (params : Variables)
      (results : List ValueType) (locals : Variables) (code : List Sexpr)
  /-- A memory. -/
  | memory (id : Option String) (exports : List String) (limits : MemoryLimits)
  /-- A global. -/
  | global (id : Option String) (exports : List String) (cell : GlobalVariable)
  /-- An export. -/
  | exported (name kind : String) (target : Sexpr)
  /-- Data that is laid into a memory at the start. -/
  | data (id : Option String) (memory : Sexpr) (address : UInt32) (bytes : ByteArray)
  /-- Data that is not laid. -/
  | passiveData (id : Option String)
  /-- The function that is called at the start. -/
  | start (target : Sexpr)

/-- The text that a quoted string denotes. -/
def name? : Sexpr → Option String
  | .atom text => (Literal.decode text).toOption.bind String.fromUTF8?
  | .list _ => none

/-- The names of the `export` forms among some items. -/
def exports? (items : List Sexpr) : Option (List String) :=
  (items.filter (·.isForm "export")).mapM fun form =>
    match form.items with
    | [_, name] => name? name
    | _ => none

/-- The variables that one form declares. -/
def declared? (form : Sexpr) : Option Variables :=
  match form.items.tail with
  | [id, type] =>
    if isIdentifier id then (valueType? type).map fun t => [(id.atom?, t)]
    else [id, type].mapM fun item => (valueType? item).map fun t => (none, t)
  | types => types.mapM fun item => (valueType? item).map fun t => (none, t)

/-- The variables that the forms with the given keyword declare. -/
def variables? (keyword : String) (items : List Sexpr) : Option Variables := do
  return (← (items.filter (·.isForm keyword)).mapM declared?).flatten

/-- The identifier that some items start with, and the items behind it. -/
def splitIdentifier (items : List Sexpr) : Option String × List Sexpr :=
  match items with
  | item :: rest => if isIdentifier item then (item.atom?, rest) else (none, items)
  | [] => (none, [])

/-- The field of a `func` form, by the items behind the keyword. -/
def functionField? (items : List Sexpr) : Option Field := do
  let (id, rest) := splitIdentifier items
  let declared := rest.takeWhile Sexpr.isDeclaration
  let exports ← exports? declared
  let params ← variables? "param" declared
  let results ← types? "result" declared
  if declared.any (·.isForm "type") then failure
  match declared.find? (·.isForm "import") with
  | some (.list [_, module, name]) =>
    return .imported id exports ⟨← name? module, ← name? name, ⟨params.map (·.2), results⟩⟩
  | some _ => failure
  | none =>
    return .function id exports params results (← variables? "local" declared)
      (rest.dropWhile Sexpr.isDeclaration)

/-- The field of an `import` form, which has to import a function. -/
def importField? (items : List Sexpr) : Option Field := do
  let [module, name, .list (.atom "func" :: signature)] := items | failure
  let (id, declared) := splitIdentifier signature
  unless declared.all (fun item => item.isForm "param" || item.isForm "result") do failure
  let params ← variables? "param" declared
  return .imported id [] ⟨← name? module, ← name? name,
    ⟨params.map (·.2), ← types? "result" declared⟩⟩

/-- The field of a `memory` form. -/
def memoryField? (items : List Sexpr) : Option Field := do
  let (id, rest) := splitIdentifier items
  let exports ← exports? rest
  match rest.filter (!·.isForm "export") with
  | [.atom pages] => return .memory id exports ⟨← Constant.word? 32 pages, none⟩
  | [.atom pages, .atom max] =>
    return .memory id exports ⟨← Constant.word? 32 pages, some (← Constant.word? 32 max)⟩
  | _ => failure

/-- The value of a constant form. -/
def constant? : Sexpr → Option Value
  | .list [.atom "i32.const", .atom text] => Constant.value? .i32 text
  | .list [.atom "i64.const", .atom text] => Constant.value? .i64 text
  | _ => none

/-- The field of a `global` form. -/
def globalField? (items : List Sexpr) : Option Field := do
  let (id, rest) := splitIdentifier items
  let exports ← exports? rest
  let [type, first] := rest.filter (!·.isForm "export") | failure
  match type with
  | .list [.atom "mut", t] => return .global id exports ⟨← valueType? t, true, ← constant? first⟩
  | t => return .global id exports ⟨← valueType? t, false, ← constant? first⟩

/-- The address of an active data segment. -/
def address? : Sexpr → Option UInt32
  | .list [.atom "offset", place] => place? place
  | place => place? place
where
  /-- The word of a constant form. -/
  place? (place : Sexpr) : Option UInt32 :=
    match constant? place with
    | some (.i32 word) => some word
    | _ => none

/-- The bytes of quoted strings. -/
def bytes? (items : List Sexpr) : Option ByteArray :=
  items.foldlM (fun bytes item => do
    let more ← (Literal.decode (← item.atom?)).toOption
    return bytes ++ more) .empty

/-- The field of a `data` form. -/
def dataField? (items : List Sexpr) : Option Field := do
  let (id, rest) := splitIdentifier items
  let (memory, rest) := match rest with
    | .list [.atom "memory", name] :: rest => (name, rest)
    | rest => (.atom "0", rest)
  match rest with
  | .list place :: strings => return .data id memory (← address? (.list place)) (← bytes? strings)
  | strings =>
    let _ ← bytes? strings
    return .passiveData id

/-- The field that a form denotes. -/
def field? : Sexpr → Option Field
  | .list (.atom "func" :: items) => functionField? items
  | .list (.atom "import" :: items) => importField? items
  | .list (.atom "memory" :: items) => memoryField? items
  | .list (.atom "global" :: items) => globalField? items
  | .list [.atom "export", name, .list [.atom kind, target]] =>
    (name? name).map fun name => .exported name kind target
  | .list (.atom "data" :: items) => dataField? items
  | .list [.atom "start", target] => some (.start target)
  | _ => none

/-- Tells whether a field defines something that may not precede an import. -/
def Field.isDefinition : Field → Bool
  | .function .. | .memory .. | .global .. => true
  | _ => false

/-- Tells whether a field is an import. -/
def Field.isImport : Field → Bool
  | .imported .. => true
  | _ => false

/-- The identifiers of the functions, imported or not. -/
def functionNames (fields : List Field) : Names :=
  fields.filterMap fun
    | .imported id .. | .function id .. => some id
    | _ => none

/-- The identifiers of the memories. -/
def memoryNames (fields : List Field) : Names :=
  fields.filterMap fun
    | .memory id .. => some id
    | _ => none

/-- The identifiers of the globals. -/
def globalNames (fields : List Field) : Names :=
  fields.filterMap fun
    | .global id .. => some id
    | _ => none

/-- The identifiers of the data. -/
def dataNames (fields : List Field) : Names :=
  fields.filterMap fun
    | .data id .. | .passiveData id => some id
    | _ => none

/-- Tells whether no identifier is repeated. -/
def areDistinct (names : Names) : Bool :=
  (names.filterMap id).Nodup

/-- The program that fields make, each read after those before it. -/
def program? (fields : List Field) : Option Program := do
  let functions := functionNames fields
  let memories := memoryNames fields
  let globals := globalNames fields
  unless [functions, memories, globals, dataNames fields].all areDistinct do failure
  if (fields.dropWhile (!·.isDefinition)).any (·.isImport) then failure
  fields.foldlM (add? functions memories globals) {}
where
  /-- Exports something under names. -/
  exportAll (program : Program) (names : List String) (target : Exported) : Program :=
    { program with exports := program.exports ++ names.map fun name => (name, target) }
  /-- Adds a field to a program. -/
  add? (functions memories globals : Names) (program : Program) (field : Field) :
      Option Program := do
    match field with
    | .imported _ exports function =>
      let index := program.imports.size
      return exportAll { program with imports := program.imports.push function } exports
        (.function index)
    | .function _ exports params results locals code =>
      let owned := (params ++ locals).map (·.1)
      unless areDistinct owned do failure
      let body ← code? { functions, globals, locals := owned, labels := [none] }
        (fun _ => false) code
      let function : FunctionBody :=
        { type := ⟨params.map (·.2), results⟩, locals := locals.map (·.2), body }
      let index := program.imports.size + program.functions.size
      return exportAll { program with functions := program.functions.push function } exports
        (.function index)
    | .memory _ exports limits =>
      return exportAll { program with memories := program.memories ++ [limits] } exports
        (.memory program.memories.length)
    | .global _ exports cell =>
      return exportAll { program with globals := program.globals ++ [cell] } exports
        (.global program.globals.length)
    | .exported name kind target =>
      let target ← match kind with
        | "func" => (resolve? functions target).map .function
        | "memory" => (resolve? memories target).map .memory
        | "global" => (resolve? globals target).map .global
        | _ => none
      return exportAll program [name] target
    | .data _ memory address bytes =>
      return { program with
        data := program.data ++ [(← resolve? memories memory, address, bytes)] }
    | .passiveData _ => return program
    | .start target =>
      if program.start.isSome then failure
      return { program with start := some (← resolve? functions target) }

/-- The lists that a text consists of. -/
def lists? (text : String) : Option (List Sexpr) := do
  let inside := (← tokens? text).map fun kind => (⟨kind, .start⟩ : Token)
  let _ ← (Sexpr.ofTokens inside).toOption
  let whole ← (Sexpr.ofTokens (⟨.opening, .start⟩ :: inside ++ [⟨.closing, .start⟩])).toOption
  return whole.items

/-- The fields of a text: those of its module, or its own if it has no module around them. A text
without any list is none of a module. -/
def fields? (text : String) : Option (List Sexpr) := do
  match ← lists? text with
  | [] => failure
  | [.list (.atom "module" :: items)] => return (splitIdentifier items).2
  | items => return items

end Assembly

/-- The program that a text denotes. -/
def Program.ofText? (text : String) : Option Program := do
  Assembly.program? (← (← Assembly.fields? text).mapM Assembly.field?)

end WasmTrim
