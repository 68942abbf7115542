import WasmTrim.Machine.Constant
import WasmTrim.Machine.Program
import WasmTrim.Sexpr.Basic

/-!
# Reading instructions

Instructions stand in the text form either one after another, each followed by what it refers to, or
folded: `(i32.add (local.get $x) (i32.const 1))` is the instruction behind those that put its
arguments on the stack. Blocks are always folded.
-/

namespace WasmTrim.Assembly

/-- The identifiers of things that are numbered in their order; some have none. -/
abbrev Names := List (Option String)

/-- Tells whether an item is an identifier. -/
def isIdentifier : Sexpr → Bool
  | .atom text => text.toList.head? == some '$'
  | .list _ => false

/-- The number that an item refers to, by identifier or by itself. -/
def resolve? (names : Names) : Sexpr → Option Nat
  | .list _ => none
  | .atom text =>
    if isIdentifier (.atom text) then names.findIdx? (· == some text)
    else (Constant.word? 32 text)

/-- The type that an item names. -/
def valueType? : Sexpr → Option ValueType
  | .atom "i32" => some .i32
  | .atom "i64" => some .i64
  | _ => none

/-- What instructions may refer to. -/
structure Scope where
  /-- The functions. -/
  functions : Names
  /-- The globals. -/
  globals : Names
  /-- The parameters and locals of the function. -/
  locals : Names := []
  /-- The labels, the innermost first. -/
  labels : Names := []

/-- The scope inside a block. -/
def Scope.inside (scope : Scope) (label : Option String) : Scope :=
  { scope with labels := label :: scope.labels }

/-- The operator that a keyword names. -/
def operator? : String → Option Operator
  | "i32.add" => some (.add .i32)
  | "i64.add" => some (.add .i64)
  | "i32.eq" => some (.eq .i32)
  | "i64.eq" => some (.eq .i64)
  | "i32.gt_u" => some (.gtU .i32)
  | "i64.gt_u" => some (.gtU .i64)
  | "i32.eqz" => some (.eqz .i32)
  | "i64.eqz" => some (.eqz .i64)
  | "i32.shr_u" => some (.shrU .i32)
  | "i64.shr_u" => some (.shrU .i64)
  | "i32.wrap_i64" => some .wrap
  | "i64.extend_i32_s" => some .extendS
  | "i64.extend_i32_u" => some .extendU
  | _ => none

/-- The offset that follows the keyword of an access to memory. -/
def offset? : List Sexpr → Option Nat
  | [] => some 0
  | [.atom text] =>
    if "offset=".toList.isPrefixOf text.toList then
      Constant.word? 32 (String.ofList (text.toList.drop 7))
    else none
  | _ => none

/-- The instruction of a keyword and what it refers to. -/
def plain? (scope : Scope) (keyword : String) (references : List Sexpr) : Option Instruction :=
  match keyword, references with
  | "nop", [] => some .nop
  | "unreachable", [] => some .unreachable
  | "drop", [] => some .drop
  | "return", [] => some .return
  | "memory.grow", [] => some .grow
  | "i32.load8_u", more => (offset? more).map .loadByte
  | "i32.store8", more => (offset? more).map .storeByte
  | "i32.store", more => (offset? more).map .storeWord
  | "i32.const", [.atom text] => (Constant.value? .i32 text).map .const
  | "i64.const", [.atom text] => (Constant.value? .i64 text).map .const
  | "local.get", [name] => (resolve? scope.locals name).map .localGet
  | "local.set", [name] => (resolve? scope.locals name).map .localSet
  | "global.get", [name] => (resolve? scope.globals name).map .globalGet
  | "global.set", [name] => (resolve? scope.globals name).map .globalSet
  | "call", [name] => (resolve? scope.functions name).map .call
  | "br", [name] => (resolve? scope.labels name).map .branch
  | "br_if", [name] => (resolve? scope.labels name).map .branchIf
  | _, [] => (operator? keyword).map .operate
  | _, _ => none

/-- Tells whether an item of a block precedes its instructions: its label or its results. -/
def isBlockHeader (item : Sexpr) : Bool :=
  isIdentifier item || item.isForm "result"

/-- The label of a block. -/
def label (items : List Sexpr) : Option String :=
  match items with
  | item :: _ => if isIdentifier item then item.atom? else none
  | [] => none

/-- The types that the forms with the given keyword list. -/
def types? (keyword : String) (items : List Sexpr) : Option (List ValueType) := do
  let lists ← (items.filter (·.isForm keyword)).mapM fun form => form.items.tail.mapM valueType?
  return lists.flatten

mutual

/-- The instructions of a sequence, whose first items may have to be skipped. -/
def code? (scope : Scope) (skip : Sexpr → Bool) : List Sexpr → Option (List Instruction)
  | [] => some []
  | .list items :: rest =>
    if skip (.list items) then code? scope skip rest
    else do
      let first ← folded? scope (.list items)
      return first ++ (← code? scope (fun _ => false) rest)
  | .atom keyword :: rest =>
    if skip (.atom keyword) then code? scope skip rest
    else
      match plain? scope keyword [] with
      | some i => (code? scope (fun _ => false) rest).map (i :: ·)
      | none =>
        match rest with
        | .atom reference :: rest => do
          let i ← plain? scope keyword [.atom reference]
          return i :: (← code? scope (fun _ => false) rest)
        | _ => none

/-- The instructions of a folded form. -/
def folded? (scope : Scope) : Sexpr → Option (List Instruction)
  | .list (.atom keyword :: items) =>
    if keyword = "block" then do
      let body ← code? (scope.inside (label items)) isBlockHeader items
      return [.block (← types? "result" items) body]
    else if keyword = "loop" then do
      let body ← code? (scope.inside (label items)) isBlockHeader items
      return [.loop (← types? "result" items) body]
    else if keyword = "if" then do
      let condition ← condition? scope items
      let inside := scope.inside (label items)
      let yes ← arm? inside "then" items
      let no ← arm? inside "else" items
      return condition ++ [.choose (← types? "result" items) (← yes) (no.getD [])]
    else do
      let arguments ← code? scope (fun item => !item.isList) items
      let i ← plain? scope keyword (items.takeWhile fun item => !item.isList)
      return arguments ++ [i]
  | _ => none

/-- The instructions that decide which arm of a choice is taken. -/
def condition? (scope : Scope) : List Sexpr → Option (List Instruction)
  | [] => some []
  | item :: rest =>
    if isBlockHeader item || item.isForm "then" || item.isForm "else" then condition? scope rest
    else do
      let first ← folded? scope item
      return first ++ (← condition? scope rest)

/-- The instructions of an arm of a choice, if there is one of that keyword. -/
def arm? (scope : Scope) (keyword : String) : List Sexpr → Option (Option (List Instruction))
  | [] => some none
  | .list (.atom k :: body) :: rest =>
    if k = keyword then (code? scope (fun _ => false) body).map some
    else arm? scope keyword rest
  | _ :: rest => arm? scope keyword rest

end

end WasmTrim.Assembly
