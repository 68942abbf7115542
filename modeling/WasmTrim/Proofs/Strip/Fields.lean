import WasmTrim.Proofs.Strip.CallSites

/-!
# Stripping field by field

Every field of a stripped module is the field at the same place of the module before: another field
as it was, a removed function as a stub, or a function that stayed with its calls replaced.
-/

namespace WasmTrim.Sexpr

open FrozenStore (Interns)

variable {removed : List String} {field field' : Sexpr} {fields fields' : List Sexpr}
variable {sites : List (String × UInt32)} {name : String}

/-- A field, what stripping makes of it, and the names and addresses that its replaced calls
report. -/
inductive FieldReplaced (removed : List String) (field : Sexpr) :
    Sexpr → List (String × UInt32) → Prop
  /-- A field that is no function stays. -/
  | other (hfunc : field.isForm "func" = false) : FieldReplaced removed field field []
  /-- A removed function loses its instructions. -/
  | stub {name : String} (hname : field.functionName? = some name) (hmem : name ∈ removed) :
      FieldReplaced removed field (stub field) []
  /-- In a function that stays, the calls of removed functions are replaced. -/
  | kept {field' : Sexpr} {sites : List (String × UInt32)} (hfunc : field.isForm "func" = true)
      (hname : ∀ name, field.functionName? = some name → name ∉ removed)
      (hcalls : Replaced removed field field' sites) : FieldReplaced removed field field' sites

/-- Fields, what stripping makes of them one by one, and what their replaced calls report. -/
inductive FieldsReplaced (removed : List String) :
    List Sexpr → List Sexpr → List (String × UInt32) → Prop
  /-- There are no fields. -/
  | nil : FieldsReplaced removed [] [] []
  /-- One field and all others. -/
  | cons {field field' : Sexpr} {rest rest' : List Sexpr} {sites others : List (String × UInt32)}
      (hfield : FieldReplaced removed field field' sites)
      (hrest : FieldsReplaced removed rest rest' others) :
      FieldsReplaced removed (field :: rest) (field' :: rest') (sites ++ others)

theorem replaced_stripField (removed : List String) (store : FrozenStore) (field : Sexpr) :
    ∃ sites, FieldReplaced removed field (stripField removed store field).1 sites ∧
      Interns store sites (stripField removed store field).2 := by
  obtain ⟨sites, hcalls, hnames⟩ := replaced_replaceCalls removed store field
  rw [stripField]
  split
  · next hfunc =>
    split
    · next name hname =>
      split
      · next hmem =>
        exact ⟨[], .stub hname (List.contains_iff_mem.mp hmem), .done store⟩
      · next hmem =>
        refine ⟨sites, .kept hfunc ?_ hcalls, hnames⟩
        intro other hother hremoved
        rw [hname, Option.some.injEq] at hother
        subst hother
        exact hmem (List.contains_iff_mem.mpr hremoved)
    · next hname =>
      refine ⟨sites, .kept hfunc ?_ hcalls, hnames⟩
      intro other hother
      rw [hname] at hother
      cases hother
  · next hfunc => exact ⟨[], .other (Bool.eq_false_iff.mpr hfunc), .done store⟩

theorem replaced_stripFields (removed : List String) (store : FrozenStore) (fields : List Sexpr) :
    ∃ sites, FieldsReplaced removed fields (stripFields removed store fields).1 sites ∧
      Interns store sites (stripFields removed store fields).2 := by
  induction fields generalizing store with
  | nil => exact ⟨[], .nil, .done store⟩
  | cons field rest ih =>
      obtain ⟨sites, hfield, hnames⟩ := replaced_stripField removed store field
      obtain ⟨others, hrest, hothers⟩ := ih (stripField removed store field).2
      exact ⟨sites ++ others, .cons hfield hrest, hnames.append hothers⟩

/-! ### What stays of a field -/

theorem Replaced.isList_eq (h : Replaced removed field field' sites) :
    field'.isList = field.isList := by
  cases h <;> rfl

theorem Replaced.identifier?_eq (h : Replaced removed field field' sites) :
    field'.identifier? = field.identifier? := by
  cases h <;> rfl

/-- A function form stays one, and keeps its name or its lack of one. -/
theorem Replaced.functionName?_eq (hfunc : field.isForm "func" = true)
    (h : Replaced removed field field' sites) :
    field'.isForm "func" = true ∧ field'.functionName? = field.functionName? := by
  obtain ⟨items, rfl⟩ := isForm_eq_true_iff.mp hfunc
  generalize hkeyword : "func" = keyword at h
  cases h with
  | folded => exact absurd hkeyword (by decide)
  | cons _ hfirst hrest =>
      subst hkeyword
      cases hfirst
      refine ⟨rfl, ?_⟩
      cases hrest with
      | nil => rfl
      | unfolded => rfl
      | cons _ hitem _ => exact hitem.identifier?_eq

theorem FieldReplaced.isList_eq (h : FieldReplaced removed field field' sites) :
    field'.isList = field.isList := by
  cases h with
  | other => rfl
  | stub hname =>
      obtain ⟨rest, rfl⟩ := eq_of_functionName? hname
      rfl
  | kept _ _ hcalls => exact hcalls.isList_eq

/-- Every field keeps its name, and functions stay functions. -/
theorem FieldReplaced.functionName?_eq (h : FieldReplaced removed field field' sites) :
    field'.isForm "func" = field.isForm "func" ∧ field'.functionName? = field.functionName? := by
  cases h with
  | other => exact ⟨rfl, rfl⟩
  | stub hname =>
      have hstub : (Sexpr.stub field).functionName? = some _ :=
        functionName?_declaration_append hname _
      rw [isForm_func_of_functionName? hstub, isForm_func_of_functionName? hname, hstub, hname]
      exact ⟨rfl, rfl⟩
  | kept hfunc _ hcalls =>
      obtain ⟨hform, hname⟩ := hcalls.functionName?_eq hfunc
      exact ⟨hform.trans hfunc.symm, hname⟩

theorem FieldsReplaced.isList_of_mem_head? (h : FieldsReplaced removed fields fields' sites)
    (hfields : ∀ field ∈ fields.head?, field.isList = true) :
    ∀ field ∈ fields'.head?, field.isList = true := by
  cases h with
  | nil => exact hfields
  | cons hfield _ =>
      rintro _ ⟨⟩
      rw [hfield.isList_eq]
      exact hfields _ rfl

/-! ### Stripped modules -/

section Strip

variable (module : Sexpr) (policy : StripPolicy) (store : FrozenStore)

theorem removed_strip :
    (module.strip policy store).1.removed =
      (sortedSet module.functionNames).filter policy.removes :=
  rfl

/-- A function is removed when the policy removes its name. -/
theorem mem_removed_iff {name : String} :
    name ∈ (module.strip policy store).1.removed ↔
      name ∈ module.functionNames ∧ policy.removes name = true := by
  rw [removed_strip, List.mem_filter, mem_sortedSet]

/-- All other functions are retained. -/
theorem mem_retained_iff {name : String} :
    name ∈ (module.strip policy store).1.retained ↔
      name ∈ module.functionNames ∧ policy.removes name = false := by
  rw [strip, List.mem_filter, mem_sortedSet, Bool.not_eq_true']

/-- The fields of a stripped module are the stripped fields. -/
theorem fields_strip :
    (module.strip policy store).1.module.fields =
      (stripFields (module.strip policy store).1.removed store module.fields).1 := by
  obtain ⟨sites, hfields, _⟩ :=
    replaced_stripFields (module.strip policy store).1.removed store module.fields
  exact fields_withFields module
    (hfields.isList_of_mem_head? fun _ => isList_of_mem_head?_fields)

/-- Stripping replaces every field of a module, and interns the names that its reports need. -/
theorem replaced_strip :
    ∃ sites, FieldsReplaced (module.strip policy store).1.removed module.fields
        (module.strip policy store).1.module.fields sites ∧
      Interns store sites (module.strip policy store).2 := by
  rw [fields_strip]
  exact replaced_stripFields _ store module.fields

end Strip

end WasmTrim.Sexpr
