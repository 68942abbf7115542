import WasmTrim.Host.Function

/-!
# Imports of the host

The functions that a guest may import from the host, each with its name and its type. An import that
is not among them can be declared, but calling it traps.
-/

namespace WasmTrim

/-- A function that the host offers. -/
structure HostImport where
  /-- The name that it is imported by. -/
  name : String
  /-- Its type. -/
  type : FunctionType
  /-- What it does. -/
  function : HostFunction
  deriving DecidableEq, Inhabited

namespace HostImport

/-- The account that the contract runs as. -/
def currentAccount : String := "wasm.optimizer"

/-- The account that signs. -/
def signer : String := "wasm.optimizer_signer"

/-- The public key of the account that signs. -/
def signerKey : String := "wasm.optimizer_pk=="

/-- The account that calls. -/
def predecessor : String := "wasm.optimizer_predecessor"

/-- The number of the present block, which is the number of the present epoch too. -/
def blockIndex : UInt64 := 200000000

/-- The time of the present block, in nanoseconds. -/
def blockTimestamp : UInt64 := 1700000000000000000

/-- The number of bytes that the contract stores. -/
def storageUsage : UInt64 := 100000

/-- What the contract owns. -/
def accountBalance : Nat := 99800000000000000000000000

/-- What the contract owns and cannot spend. -/
def lockedBalance : Nat := 100000000000000

/-- What is paid with the call. -/
def attachedDeposit : Nat := 100000000000000

/-- The gas that is paid for. -/
def prepaidGas : UInt64 := 300000000000000

/-- The gas that was used. -/
def usedGas : UInt64 := 10000000000000

/-- The number that the random seed starts with. -/
def randomSeed : Nat := 100000000000000000000000000

/-- A type of so many 64-bit parameters. -/
def wide (params : Nat) (results : List ValueType := []) : FunctionType :=
  { params := List.replicate params .i64, results }

/-- A function that sets a register to a fixed text. -/
def text (name : String) (content : String) : HostImport :=
  ⟨name, wide 1, .tell content.toUTF8⟩

/-- A function that sets a register to the bytes of a fixed number. -/
def number (name : String) (content : Nat) : HostImport :=
  ⟨name, wide 1, .tell (word128Bytes content)⟩

/-- A function that answers a fixed number. -/
def fact (name : String) (word : UInt64) : HostImport :=
  ⟨name, wide 0 [.i64], .constant [.i64 word]⟩

/-- A function that does nothing and answers nothing. -/
def idle (name : String) (params : Nat) : HostImport :=
  ⟨name, wide params, .constant []⟩

/-- A function that does nothing and answers zero. -/
def nought (name : String) (params : Nat) : HostImport :=
  ⟨name, wide params [.i64], .constant [.i64 0]⟩

/-- The function behind a trace hook. -/
def hook (hook : TraceHook) : HostImport :=
  ⟨hook.importName, { params := [.i32] }, .report hook⟩

/-- The functions that the host offers. -/
def all : List HostImport :=
  TraceHook.all.map hook ++
  [⟨"read_register", wide 2, .readRegister⟩,
   ⟨"register_len", wide 1 [.i64], .registerLength⟩,
   ⟨"write_register", wide 3, .writeRegister⟩,
   text "current_account_id" currentAccount,
   text "signer_account_pk" signerKey,
   text "signer_account_id" signer,
   text "predecessor_account_id" predecessor,
   ⟨"input", wide 1, .tellInput⟩,
   fact "block_index" blockIndex,
   fact "block_timestamp" blockTimestamp,
   fact "epoch_height" blockIndex,
   fact "storage_usage" storageUsage,
   number "account_balance" accountBalance,
   number "account_locked_balance" lockedBalance,
   number "attached_deposit" attachedDeposit,
   fact "prepaid_gas" prepaidGas,
   fact "used_gas" usedGas,
   ⟨"random_seed", wide 1, .tell (word128Bytes randomSeed ++ zeros 16)⟩,
   idle "sha256" 3,
   idle "keccak256" 3,
   idle "keccak512" 3,
   idle "ripemd160" 3,
   nought "ecrecover" 7,
   nought "ed25519_verify" 6,
   ⟨"value_return", wide 2, .returnValue⟩,
   ⟨"panic", wide 0, .panic⟩,
   ⟨"panic_utf8", wide 2, .panicText⟩,
   ⟨"log_utf8", wide 2, .logText⟩,
   ⟨"log_utf16", wide 2, .logWideText⟩,
   ⟨"abort", { params := List.replicate 4 .i32 }, .abort⟩,
   nought "promise_create" 8,
   nought "promise_then" 9,
   nought "promise_and" 2,
   nought "promise_batch_create" 2,
   nought "promise_batch_then" 3,
   idle "promise_batch_action_create_account" 1,
   idle "promise_batch_action_deploy_contract" 3,
   idle "promise_batch_action_function_call" 7,
   idle "promise_batch_action_function_call_weight" 8,
   idle "promise_batch_action_transfer" 2,
   idle "promise_batch_action_stake" 4,
   idle "promise_batch_action_add_key_with_full_access" 4,
   idle "promise_batch_action_add_key_with_function_call" 9,
   idle "promise_batch_action_delete_key" 3,
   idle "promise_batch_action_delete_account" 3,
   nought "promise_yield_create" 7,
   ⟨"promise_yield_resume", wide 4 [.i32], .constant [.i32 0]⟩,
   nought "promise_results_count" 0,
   nought "promise_result" 2,
   idle "promise_return" 1,
   ⟨"storage_write", wide 5 [.i64], .storageWrite⟩,
   ⟨"storage_read", wide 3 [.i64], .storageRead⟩,
   ⟨"storage_remove", wide 3 [.i64], .storageRemove⟩,
   ⟨"storage_has_key", wide 2 [.i64], .storageHasKey⟩,
   idle "validator_stake" 3,
   idle "validator_total_stake" 1,
   idle "alt_bn128_g1_multiexp" 3,
   idle "alt_bn128_g1_sum" 3,
   nought "alt_bn128_pairing_check" 2]

/-- The host's function behind an import. -/
def find? (module name : String) : Option HostImport :=
  if module = hostModule then all.find? (·.name = name) else none

end HostImport

namespace ImportedFunction

/-- Tells whether the host has the function. -/
def isEmulated (imported : ImportedFunction) : Bool :=
  (HostImport.find? imported.module imported.name).isSome

/-- The type that an import has to be declared with, among the imports of one guest: that of the
host's function, or the first declared one where the host has none. -/
def expected (imports : List ImportedFunction) (imported : ImportedFunction) : FunctionType :=
  match HostImport.find? imported.module imported.name with
  | some offered => offered.type
  | none =>
    match imports.find? fun other => other.module = imported.module ∧ other.name = imported.name with
    | some first => first.type
    | none => imported.type

/-- Tells whether an import, among those of one guest, is declared with the type that it has to
have. -/
def fits (imports : List ImportedFunction) (imported : ImportedFunction) : Bool :=
  expected imports imported = imported.type

/-- What the host does at a call of the import. -/
def serve (imported : ImportedFunction) (arguments : List Value) : Serving (List Value) :=
  match HostImport.find? imported.module imported.name with
  | some offered => offered.function.serve arguments
  | none => throw .unknownImport

/-- What the host answers to a call of the import. -/
def answer (imported : ImportedFunction) (host : HostState) (memory : Option GuestMemory)
    (arguments : List Value) : Except Trap HostReply :=
  match HostImport.find? imported.module imported.name with
  | some offered => offered.function.answer host memory arguments
  | none => .error .unknownImport

end ImportedFunction

end WasmTrim
