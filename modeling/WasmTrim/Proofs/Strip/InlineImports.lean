import WasmTrim.Proofs.Instrument
import WasmTrim.Proofs.Strip.Addresses
import WasmTrim.Proofs.Strip.Evidence
import WasmTrim.Proofs.Strip.NoRemovedCalls

/-!
# Functions that are declared as imports

A function may be declared as an import by a form among its items, and then has no instructions.
Instrumentation leaves it alone, so no trace ever has evidence of it; stripping treats it like any
other function. The policy alone decides: if it removes the name, the import is given an
instruction, which no assembler takes.
-/

namespace WasmTrim.Sexpr

variable {module field field' : Sexpr} {before after : List Sexpr} {name : String}
variable {removed : List String} {sites : List (String × UInt32)}

/-- What is put behind the declaration of a function is read as its instructions. -/
theorem instructions_declaration_append (hname : field.functionName? = some name)
    (body : List Sexpr) :
    instructions (declaration field.items ++ body) = body.dropWhile isDeclaration := by
  obtain ⟨rest, rfl⟩ := eq_of_functionName? hname
  have hdeclared : ∀ item ∈ rest.takeWhile isDeclaration, isDeclaration item = true :=
    List.all_eq_true.mp List.all_takeWhile
  exact List.dropWhile_append_of_pos hdeclared

/-- The stub of a function has one instruction, whatever the function had. -/
theorem instructions_stub (hname : field.functionName? = some name) :
    instructions (stub field).items = [unreachable] :=
  instructions_declaration_append hname [unreachable]

theorem hasInlineImport_stub (h : field.hasInlineImport = true)
    (hbody : instructions field.items = []) : (stub field).hasInlineImport = true := by
  have hitems : declaration field.items = field.items := by
    have hsplit := declaration_append_instructions field.items
    rwa [hbody, List.append_nil] at hsplit
  rw [hasInlineImport, stub, items_list, hitems, List.any_append]
  exact Bool.or_eq_true_iff.mpr (Or.inl h)

theorem FieldReplaced.eq_stub (h : FieldReplaced removed field field' sites)
    (hname : field.functionName? = some name) (hmem : name ∈ removed) : field' = field.stub := by
  cases h with
  | other hfunc =>
      rw [isForm_func_of_functionName? hname] at hfunc
      cases hfunc
  | stub => rfl
  | kept _ hkept _ => exact absurd hmem (hkept name hname)

/-- A function that stays and calls no removed one is left as it is. -/
theorem FieldReplaced.eq_self (h : FieldReplaced removed field field' sites)
    (hkept : ∀ name, field.functionName? = some name → name ∉ removed)
    (hclean : ∀ name ∈ removed, ¬CallsDirectly name field) : field' = field := by
  cases h with
  | other => rfl
  | stub hname hmem => exact absurd hmem (hkept _ hname)
  | kept _ _ hcalls => exact (hcalls.eq_self hclean).1

/-- A function that is declared as an import is not removed if the policy does not remove its name.
If it does, the import without instructions becomes one with an instruction. -/
theorem strip_inlineImport (policy : StripPolicy) (store : FrozenStore)
    (hfields : module.fields = before ++ field :: after) (himport : field.hasInlineImport = true) :
    reportEntry field = field ∧
    ∃ before' field' after',
      (module.strip policy store).1.module.fields = before' ++ field' :: after' ∧
      before'.length = before.length ∧ field'.functionName? = field.functionName? ∧
      ((∀ name, field.functionName? = some name → policy.removes name = false) →
        (∀ name, field.functionName? = some name →
          name ∉ (module.strip policy store).1.removed) ∧
        ((∀ name ∈ (module.strip policy store).1.removed, ¬CallsDirectly name field) →
          field' = field)) ∧
      ∀ name, field.functionName? = some name → policy.removes name = true →
        name ∈ (module.strip policy store).1.removed ∧ field' = stub field ∧
        instructions field'.items = [unreachable] ∧
        (instructions field.items = [] → field'.hasInlineImport = true) := by
  refine ⟨reportEntry_eq_self fun _ _ => himport, ?_⟩
  obtain ⟨sites, hstripped, _⟩ := replaced_strip module policy store
  rw [hfields] at hstripped
  obtain ⟨before', field', after', found, hsplit, hlength, hfield⟩ := hstripped.exists_of_append
  refine ⟨before', field', after', hsplit, hlength, hfield.functionName?_eq.2, ?_, ?_⟩
  · intro hremoves
    have hkept : ∀ name, field.functionName? = some name →
        name ∉ (module.strip policy store).1.removed := by
      intro name hname
      rw [mem_removed_iff, hremoves name hname]
      rintro ⟨_, ⟨⟩⟩
    exact ⟨hkept, hfield.eq_self hkept⟩
  · intro name hname hremoves
    have hmem := mem_functionNames hfields hname
    have hremoved := (mem_removed_iff module policy store).mpr ⟨hmem, hremoves⟩
    have hstub := hfield.eq_stub hname hremoved
    refine ⟨hremoved, hstub, ?_, ?_⟩
    · rw [hstub]
      exact instructions_stub hname
    · intro hbody
      rw [hstub]
      exact hasInlineImport_stub himport hbody

/-- A function that is imported by a form of its own. -/
def importingFunction : Sexpr :=
  .list [.atom "func", .atom "$f", .list [.atom "import", .atom "\"env\"", .atom "\"y\""],
    .list [.atom "param", .atom "i32"]]

def importingModule : Sexpr :=
  .list [.atom "module", importingFunction]

/-- Without evidence, the import is removed and given an instruction. -/
theorem strip_importingModule :
    "f" ∈ (importingModule.strip blindPolicy .empty).1.removed ∧
      ∃ field ∈ (importingModule.strip blindPolicy .empty).1.module.fields,
        field.hasInlineImport = true ∧ instructions field.items = [unreachable] := by
  have hplace : importingModule.fields = [] ++ importingFunction :: [] := rfl
  obtain ⟨_, before', field, after', hfields, _, _, _, hstub⟩ :=
    strip_inlineImport blindPolicy .empty hplace (by decide)
  obtain ⟨hremoved, _, hcode, himport⟩ := hstub "f" (by decide) removes_blindPolicy
  refine ⟨hremoved, field, ?_, himport (by decide), hcode⟩
  rw [hfields]
  exact List.mem_append_right _ (List.mem_cons_self ..)

/-- The one field of that module does not appear in the stripped one. -/
theorem importingFunction_not_mem_strip :
    importingFunction.isForm "func" = true ∧ importingFunction.hasInlineImport = true ∧
      importingFunction ∈ importingModule.fields ∧
      importingFunction ∉ (importingModule.strip blindPolicy .empty).1.module.fields := by
  have hfields : importingModule.fields = [importingFunction] := rfl
  have hnames : sortedSet importingModule.functionNames = ["f"] := by decide +kernel
  have hremoved : (importingModule.strip blindPolicy .empty).1.removed = ["f"] := by
    rw [removed_strip, hnames, List.filter_cons_of_pos removes_blindPolicy, List.filter_nil]
  refine ⟨by decide, by decide, ?_, ?_⟩
  · rw [hfields]
    exact List.mem_singleton_self _
  · have hstripped : (stripFields ["f"] .empty importingModule.fields).1 =
        [importingFunction.stub] := by decide +kernel
    rw [fields_strip, hremoved, hstripped, List.mem_singleton]
    decide

end WasmTrim.Sexpr
