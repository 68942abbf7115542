import WasmTrim.Proofs.Strip.Frame

/-!
# Stripping twice

A stripped module has nothing left for the same policy to do: its stubs are the stubs of themselves,
and no other function calls a removed one. So a second run returns what the first one did, and
interns no name.
-/

namespace WasmTrim.Sexpr

variable {removed : List String} {field field' : Sexpr} {fields fields' : List Sexpr}
variable {sites : List (String × UInt32)} {name : String}

/-- Stripping with some removed names has nothing to do in a field. -/
structure Settled (removed : List String) (field : Sexpr) : Prop where
  /-- A removed function is a stub already. -/
  stub_eq : ∀ name, field.functionName? = some name → name ∈ removed → stub field = field
  /-- A function that stays calls no removed one. -/
  clean : field.isForm "func" = true →
    (∀ name, field.functionName? = some name → name ∉ removed) →
    ∀ name ∈ removed, ¬CallsDirectly name field

/-- The stub of a stub is the stub itself. -/
theorem stub_stub (hname : field.functionName? = some name) : stub (stub field) = stub field := by
  conv_lhs => rw [stub, declaration_stub hname]
  rfl

/-- What stripping makes of a field is settled. -/
theorem FieldReplaced.settled (hhandler : panicHandler ∉ removed)
    (h : FieldReplaced removed field field' sites) : Settled removed field' := by
  have hcleared := h.cleared hhandler
  obtain ⟨hform, hname⟩ := h.functionName?_eq
  constructor
  · intro name hsome hmem
    rw [hname] at hsome
    rw [h.eq_stub hsome hmem]
    exact stub_stub hsome
  · intro hfunc hkept
    rw [hform] at hfunc
    rw [hname] at hkept
    exact hcleared.clean hfunc hkept

/-- A settled field stays as it is, and reports nothing. -/
theorem FieldReplaced.eq_of_settled (h : FieldReplaced removed field field' sites)
    (hsettled : Settled removed field) : field' = field ∧ sites = [] := by
  cases h with
  | other => exact ⟨rfl, rfl⟩
  | stub hname hmem => exact ⟨hsettled.stub_eq _ hname hmem, rfl⟩
  | kept hfunc hkept hcalls => exact hcalls.eq_self (hsettled.clean hfunc hkept)

theorem FieldsReplaced.settled (hhandler : panicHandler ∉ removed)
    (h : FieldsReplaced removed fields fields' sites) : ∀ field ∈ fields', Settled removed field := by
  induction h with
  | nil => exact List.forall_mem_nil _
  | cons hfield _ ih => exact List.forall_mem_cons.mpr ⟨hfield.settled hhandler, ih⟩

theorem FieldsReplaced.eq_of_settled (h : FieldsReplaced removed fields fields' sites)
    (hsettled : ∀ field ∈ fields, Settled removed field) : fields' = fields ∧ sites = [] := by
  induction h with
  | nil => exact ⟨rfl, rfl⟩
  | cons hfield _ ih =>
      obtain ⟨hfirst, hrest⟩ := List.forall_mem_cons.mp hsettled
      obtain ⟨rfl, rfl⟩ := hfield.eq_of_settled hfirst
      obtain ⟨rfl, rfl⟩ := ih hrest
      exact ⟨rfl, rfl⟩

/-- Fields keep their names when they are stripped. -/
theorem FieldsReplaced.filterMap_functionName?_eq
    (h : FieldsReplaced removed fields fields' sites) :
    fields'.filterMap functionName? = fields.filterMap functionName? := by
  induction h with
  | nil => rfl
  | cons hfield _ ih =>
      rw [List.filterMap_cons, List.filterMap_cons, hfield.functionName?_eq.2, ih]

section Strip

variable (module : Sexpr) (policy : StripPolicy) (store : FrozenStore)

theorem functionNames_strip :
    (module.strip policy store).1.module.functionNames = module.functionNames := by
  obtain ⟨_, hfields, _⟩ := replaced_strip module policy store
  exact hfields.filterMap_functionName?_eq

/-- A stripped module is the module with its stripped fields. -/
theorem module_strip :
    (module.strip policy store).1.module =
      module.withFields (module.strip policy store).1.module.fields := by
  rw [fields_strip]
  rfl

/-- What is stripped again is built under the same header. -/
theorem withFields_module_strip (fields : List Sexpr) :
    (module.strip policy store).1.module.withFields fields = module.withFields fields := by
  rw [module_strip]
  exact withFields_withFields module (fun _ => isList_of_mem_head?_fields) fields

end Strip

/-- Stripping is idempotent. Stripping what was stripped, with the same policy and with the store
that the first run left, returns the same module, the same removed and retained functions, and that
store. -/
theorem strip_strip (module : Sexpr) (policy : StripPolicy) (store : FrozenStore) :
    (module.strip policy store).1.module.strip policy (module.strip policy store).2 =
      module.strip policy store := by
  generalize honce : module.strip policy store = once
  generalize htwice : once.1.module.strip policy once.2 = twice
  have hnames : once.1.module.functionNames = module.functionNames := by
    rw [← honce]
    exact functionNames_strip module policy store
  have hremoved : twice.1.removed = once.1.removed := by
    rw [← htwice, ← honce, removed_strip, functionNames_strip, removed_strip]
  have hretained : twice.1.retained = once.1.retained := by
    rw [← htwice]
    conv_lhs => rw [strip, hnames]
    rw [← honce]
    rfl
  -- The first run settles every field, so the second one keeps them and has nothing to report.
  obtain ⟨_, hfirst, _⟩ := replaced_strip module policy store
  obtain ⟨sites, hsecond, hinterns⟩ := replaced_strip once.1.module policy once.2
  rw [honce] at hfirst
  rw [htwice, hremoved] at hsecond
  rw [htwice] at hinterns
  have hhandler : panicHandler ∉ once.1.removed := by
    rw [← honce]
    exact panicHandler_not_mem_removed module policy store
  obtain ⟨hfields, rfl⟩ := hsecond.eq_of_settled (hfirst.settled hhandler)
  have hstore : twice.2 = once.2 := hinterns.eq_of_nil
  have hmodule : twice.1.module = once.1.module := by
    have hagain := module_strip once.1.module policy once.2
    rw [htwice, hfields, ← honce, withFields_module_strip, ← module_strip] at hagain
    rw [← honce]
    exact hagain
  obtain ⟨⟨module₁, removed₁, retained₁⟩, store₁⟩ := once
  obtain ⟨⟨module₂, removed₂, retained₂⟩, store₂⟩ := twice
  subst hmodule hremoved hretained hstore
  rfl

end WasmTrim.Sexpr
