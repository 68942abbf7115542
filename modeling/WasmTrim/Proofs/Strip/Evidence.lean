import WasmTrim.Host.Imports
import WasmTrim.Proofs.Instrument
import WasmTrim.Proofs.Strip.Fields
import WasmTrim.Proofs.Text.Numerals

/-!
# Functions that were seen running

The report that instrumentation gives a function, the evidence that the host makes of it, and the
policy that is asked about the function agree on one identity. So a function that was seen running
stays, whatever else the policy says.

`Sexpr.strip_retains_called` follows a function along that way. Instrumentation keeps the names of
functions, and puts in front of a function's own instructions a call whose constant the host takes
for the function's fingerprint. A function that is retained keeps its place and its instructions but
for the calls of other functions that go.
-/

namespace WasmTrim

/-- The host notes the argument of a report as a function that ran. -/
theorem answer_functionCall (type : FunctionType) (host : HostState)
    (memory : Option GuestMemory) (word : UInt32) :
    ImportedFunction.answer ⟨hostModule, TraceHook.functionCall.importName, type⟩ host memory
        [.i32 word] =
      .ok { host := { host with trace := host.trace.addCall word }, memory } := by
  have hfound : HostImport.find? hostModule TraceHook.functionCall.importName =
      some (HostImport.hook .functionCall) := by decide
  rw [ImportedFunction.answer]
  simp only [hfound]
  rfl

theorem mem_addCall (log : TraceLog) (word : UInt32) : word ∈ (log.addCall word).called :=
  mem_insertSorted.mpr (Or.inl rfl)

/-- No policy removes a function whose fingerprint is among its evidence. -/
theorem StripPolicy.removes_of_mem_called {policy : StripPolicy} {name : String}
    (h : fingerprint name ∈ policy.called) : policy.removes name = false := by
  rw [removes, isCandidate, List.contains_iff_mem.mpr h, Bool.not_true, Bool.false_and,
    Bool.false_and]

namespace Sexpr

variable {removed : List String} {module field : Sexpr} {fields' before after : List Sexpr}
variable {sites : List (String × UInt32)} {name : String}

/-- A field is stripped at its own place. -/
theorem FieldsReplaced.exists_of_append
    (h : FieldsReplaced removed (before ++ field :: after) fields' sites) :
    ∃ before' field' after' found, fields' = before' ++ field' :: after' ∧
      before'.length = before.length ∧ FieldReplaced removed field field' found := by
  induction before generalizing fields' sites with
  | nil =>
      cases h with
      | cons hfield _ => exact ⟨[], _, _, _, rfl, rfl, hfield⟩
  | cons first rest ih =>
      cases h with
      | cons _ hrest =>
          obtain ⟨before', field', after', found, rfl, hlength, hfield⟩ := ih hrest
          exact ⟨_ :: before', field', after', found, rfl, congrArg (· + 1) hlength, hfield⟩

/-- The reports of a function end with its fingerprint. -/
theorem exists_entryReports (name : String) :
    ∃ hooks, entryReports name =
      hooks ++ [call TraceHook.functionCall.importName [i32Const (fingerprint name)]] := by
  rw [entryReports]
  split
  · exact ⟨[_], rfl⟩
  · exact ⟨[], rfl⟩

/-- A function with a name that is not removed is found at its place in the stripped module, with
its calls of removed functions replaced. -/
theorem replaced_of_not_mem_removed (policy : StripPolicy) (store : FrozenStore)
    (hfields : module.fields = before ++ field :: after) (hname : field.functionName? = some name)
    (hkept : name ∉ (module.strip policy store).1.removed) :
    ∃ before' field' after' found,
      (module.strip policy store).1.module.fields = before' ++ field' :: after' ∧
      before'.length = before.length ∧ field'.functionName? = some name ∧
      Replaced (module.strip policy store).1.removed field field' found := by
  obtain ⟨sites, hstripped, _⟩ := replaced_strip module policy store
  rw [hfields] at hstripped
  obtain ⟨before', field', after', found, hsplit, hlength, hfield⟩ := hstripped.exists_of_append
  have hname' := hfield.functionName?_eq.2.trans hname
  refine ⟨before', field', after', found, hsplit, hlength, hname', ?_⟩
  cases hfield with
  | other hfunc =>
      rw [isForm_func_of_functionName? hname] at hfunc
      cases hfunc
  | stub hstub hmem =>
      rw [hname, Option.some.injEq] at hstub
      subst hstub
      exact absurd hmem hkept
  | kept _ _ hcalls => exact hcalls

/-- A function that was seen running is never removed: instrumentation has it report its
fingerprint, and every policy whose evidence has that fingerprint retains the function. -/
theorem strip_retains_called (module : Sexpr) :
    (instrument module).functionNames = module.functionNames ∧
    ∀ (before after : List Sexpr) (field : Sexpr) (name : String),
      module.fields = before ++ field :: after → field.functionName? = some name →
      field.hasInlineImport = false →
      (∃ front back hooks literal,
        (instrument module).fields = front ++
          .list (declaration field.items ++ (hooks ++
            [call TraceHook.functionCall.importName [.list [.atom "i32.const", .atom literal]]]) ++
            instructions field.items) :: back ∧
        front.filterMap functionName? = before.filterMap functionName? ∧
        back.filterMap functionName? = after.filterMap functionName? ∧
        ∃ argument, Constant.value? .i32 literal = some argument ∧
          ∀ (host : HostState) (memory : Option GuestMemory),
            ImportedFunction.answer ⟨hostModule, TraceHook.functionCall.importName,
                (HostImport.hook .functionCall).type⟩ host memory [argument] =
              .ok { host := { host with trace := host.trace.addCall (fingerprint name) }, memory } ∧
            fingerprint name ∈ (host.trace.addCall (fingerprint name)).called) ∧
      ∀ (policy : StripPolicy) (store : FrozenStore), fingerprint name ∈ policy.called →
        name ∈ (module.strip policy store).1.retained ∧
        name ∉ (module.strip policy store).1.removed ∧
        ∃ before' field' after' sites,
          (module.strip policy store).1.module.fields = before' ++ field' :: after' ∧
          before'.length = before.length ∧ field'.functionName? = some name ∧
          Replaced (module.strip policy store).1.removed field field' sites := by
  refine ⟨functionNames_instrument module, ?_⟩
  intro before after field name hfields hname hbody
  constructor
  · obtain ⟨front, back, hplaced, hfront, hback⟩ := fields_instrument_of_fields hfields
    obtain ⟨hooks, hreports⟩ := exists_entryReports name
    rw [reportEntry_of_functionName? hname hbody, hreports, i32Const] at hplaced
    exact ⟨front, back, hooks, toString (fingerprint name).toNat, hplaced, hfront, hback,
      .i32 (fingerprint name), Constant.value?_toString _,
      fun host memory => ⟨answer_functionCall _ host memory _, mem_addCall _ _⟩⟩
  · intro policy store hcalled
    have hremoves := StripPolicy.removes_of_mem_called hcalled
    have hmem : name ∈ module.functionNames := by
      rw [functionNames, hfields]
      exact List.mem_filterMap.mpr ⟨field, List.mem_append_right _ (List.mem_cons_self ..), hname⟩
    have hkept : name ∉ (module.strip policy store).1.removed := by
      rw [mem_removed_iff, hremoves]
      rintro ⟨_, ⟨⟩⟩
    exact ⟨(mem_retained_iff module policy store).mpr ⟨hmem, hremoves⟩, hkept,
      replaced_of_not_mem_removed policy store hfields hname hkept⟩

/-- A function whose fingerprint is above the largest signed word stays when it was seen running. -/
theorem strip_retains_called_a :
    0x80000000 ≤ (fingerprint "a").toNat ∧
      "a" ∈ ((list [.atom "module", .list [.atom "func", .atom "$a", .atom "nop"]]).strip
        ⟨.aggressive, [fingerprint "a"], [], []⟩ .empty).1.retained := by
  refine ⟨by decide, ?_⟩
  have hstays := (strip_retains_called
    (list [.atom "module", .list [.atom "func", .atom "$a", .atom "nop"]])).2
    [] [] (.list [.atom "func", .atom "$a", .atom "nop"]) "a" rfl (by decide) (by decide)
  exact (hstays.2 _ .empty (List.mem_singleton_self _)).1

end Sexpr

end WasmTrim
