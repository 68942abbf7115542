import WasmTrim.Module.Fields

/-!
# Reading and replacing the fields of a module

The fields that are put under a module's header are the ones that are read from it, as long as the
first of them is a list. An atom there would be taken for a part of the header.
-/

namespace WasmTrim.Sexpr

/-- The header of a module holds atoms only. -/
theorem isList_of_mem_header {module item : Sexpr} (h : item ∈ module.header) :
    item.isList = false := by
  rw [header] at h
  split at h
  · rw [List.mem_singleton.mp h]
    rfl
  · have hall := List.all_eq_true.mp (List.all_takeWhile (p := fun t : Sexpr => !t.isList)
      (l := module.items))
    simpa using hall item h

theorem header_ne_nil (module : Sexpr) : module.header ≠ [] := by
  rw [header]
  split
  · exact List.cons_ne_nil _ _
  · next hsome => exact hsome

/-- What is read from a module with other fields are these from their first list on. -/
theorem fields_withFields_eq_dropWhile (module : Sexpr) (fields : List Sexpr) :
    (module.withFields fields).fields = fields.dropWhile (!·.isList) := by
  rw [Sexpr.fields, withFields, items_list, List.dropWhile_append_of_pos]
  exact fun item hitem => by rw [isList_of_mem_header hitem, Bool.not_false]

/-- The atoms in front of that list are taken for a part of the header. -/
theorem header_withFields_eq_append (module : Sexpr) (fields : List Sexpr) :
    (module.withFields fields).header = module.header ++ fields.takeWhile (!·.isList) := by
  have hheader : ∀ item ∈ module.header, (!item.isList) = true :=
    fun item hitem => by rw [isList_of_mem_header hitem, Bool.not_false]
  rw [header, withFields, items_list, List.takeWhile_append_of_pos hheader]
  split
  · next hnone => exact absurd (List.append_eq_nil_iff.mp hnone).1 (header_ne_nil module)
  · rfl

/-- The fields that were put into a module are the ones that are read from it. -/
theorem fields_withFields (module : Sexpr) {fields : List Sexpr}
    (h : ∀ field ∈ fields.head?, field.isList = true) :
    (module.withFields fields).fields = fields := by
  rw [fields_withFields_eq_dropWhile]
  cases fields with
  | nil => rfl
  | cons field rest => exact List.dropWhile_cons_of_neg (by simp [h field rfl])

/-- A module with other fields keeps its header. -/
theorem header_withFields (module : Sexpr) {fields : List Sexpr}
    (h : ∀ field ∈ fields.head?, field.isList = true) :
    (module.withFields fields).header = module.header := by
  rw [header_withFields_eq_append]
  cases fields with
  | nil => exact List.append_nil _
  | cons field rest =>
      rw [List.takeWhile_cons_of_neg (by simp [h field rfl]), List.append_nil]

/-- Of fields that are put into a module one after the other the last ones stay. -/
theorem withFields_withFields (module : Sexpr) {fields : List Sexpr}
    (h : ∀ field ∈ fields.head?, field.isList = true) (others : List Sexpr) :
    (module.withFields fields).withFields others = module.withFields others := by
  rw [withFields, header_withFields module h, withFields]

/-- The header of a module are its leading atoms, or its keyword alone where it has none. -/
theorem exists_leading (module : Sexpr) :
    ∃ leading, module.items = leading ++ module.fields ∧ (∀ item ∈ leading, item.isList = false) ∧
      module.header = if leading.isEmpty then [.atom "module"] else leading := by
  refine ⟨module.items.takeWhile (!·.isList), List.takeWhile_append_dropWhile.symm, ?_, ?_⟩
  · intro item hitem
    have hall := List.all_eq_true.mp List.all_takeWhile item hitem
    simpa using hall
  · rw [header]
    split
    · next hnone =>
      rw [hnone]
      rfl
    · next hsome =>
      rw [if_neg]
      rw [List.isEmpty_iff]
      exact hsome

/-- The first field of a module is a list. -/
theorem isList_of_mem_head?_fields {module field : Sexpr} (h : field ∈ module.fields.head?) :
    field.isList = true := by
  have hhead := List.head?_dropWhile_not (fun t : Sexpr => !t.isList) module.items
  rw [← Sexpr.fields, Option.mem_def.mp h] at hhead
  simpa using hhead

/-- A module that starts with a word is its header followed by its fields. -/
theorem eq_header_fields {module : Sexpr} {keyword : String} {rest : List Sexpr}
    (hstart : module = .list (.atom keyword :: rest)) :
    module = .list (module.header ++ module.fields) := by
  obtain ⟨leading, hitems, _, hheader⟩ := exists_leading module
  have hleading : ¬leading.isEmpty = true := by
    intro hempty
    rw [List.isEmpty_iff.mp hempty, List.nil_append] at hitems
    have hfirst : Sexpr.atom keyword ∈ module.fields.head? := by
      rw [← hitems, hstart]
      rfl
    cases isList_of_mem_head?_fields hfirst
  rw [hheader, if_neg hleading, ← hitems, hstart]
  rfl

/-- Fields that are added behind those of a module are read as such. -/
theorem fields_withFields_append (module : Sexpr) {added : List Sexpr}
    (h : ∀ field ∈ added.head?, field.isList = true) :
    (module.withFields (module.fields ++ added)).fields = module.fields ++ added := by
  apply fields_withFields
  intro field hmem
  cases hfields : module.fields with
  | nil =>
      rw [hfields] at hmem
      exact h field hmem
  | cons first rest =>
      rw [hfields, List.cons_append, List.head?_cons] at hmem
      have hfirst : field ∈ module.fields.head? := by
        rw [hfields]
        exact hmem
      exact isList_of_mem_head?_fields hfirst

/-- An identifier is a dollar sign and the name behind it. -/
theorem identifier?_eq_some_iff {item : Sexpr} {name : String} :
    item.identifier? = some name ↔ item = .atom ("$" ++ name) := by
  cases item with
  | list items => simp [identifier?]
  | atom text =>
      rw [atom.injEq, ← String.toList_inj, String.toList_append, identifier?]
      split
      · next rest hrest =>
        rw [hrest, Option.some.injEq, ← String.toList_inj, String.toList_ofList]
        simp
      · next hother =>
        constructor
        · rintro ⟨⟩
        · intro htext
          exact absurd htext (hother name.toList)

@[simp] theorem identifier?_atom_append (name : String) :
    (atom ("$" ++ name)).identifier? = some name :=
  identifier?_eq_some_iff.mpr rfl

/-- Identifiers of different names differ. -/
theorem name_eq_of_identifier_eq {a b : String} (h : atom ("$" ++ a) = .atom ("$" ++ b)) :
    a = b := by
  have hname := congrArg identifier? h
  rwa [identifier?_atom_append, identifier?_atom_append, Option.some.injEq] at hname

theorem isForm_eq_true_iff {keyword : String} {field : Sexpr} :
    field.isForm keyword = true ↔ ∃ rest, field = .list (.atom keyword :: rest) := by
  rw [isForm, beq_iff_eq, head?.eq_def]
  split
  · next found rest =>
    simp only [Option.some.injEq, list.injEq, List.cons.injEq, atom.injEq, exists_and_left,
      exists_eq', and_true]
  · next hother =>
    constructor
    · rintro ⟨⟩
    · rintro ⟨rest, rfl⟩
      exact absurd rfl (hother keyword rest)

section FunctionName

variable {field : Sexpr} {name : String}

/-- A field with a name is a function form whose second item is the name. -/
theorem eq_of_functionName? (h : field.functionName? = some name) :
    ∃ rest, field = .list (.atom "func" :: .atom ("$" ++ name) :: rest) := by
  rw [functionName?.eq_def] at h
  split at h
  · next item rest => exact ⟨rest, by rw [identifier?_eq_some_iff.mp h]⟩
  · cases h

theorem mem_functionNames {module : Sexpr} {before after : List Sexpr}
    (hfields : module.fields = before ++ field :: after) (h : field.functionName? = some name) :
    name ∈ module.functionNames := by
  rw [functionNames, hfields]
  exact List.mem_filterMap.mpr ⟨field, List.mem_append_right _ (List.mem_cons_self ..), h⟩

theorem isForm_func_of_functionName? (h : field.functionName? = some name) :
    field.isForm "func" = true := by
  obtain ⟨rest, rfl⟩ := eq_of_functionName? h
  rfl

/-- What follows a declaration does not change the name. -/
theorem functionName?_declaration_append (h : field.functionName? = some name)
    (body : List Sexpr) :
    (list (declaration field.items ++ body)).functionName? = some name := by
  obtain ⟨rest, rfl⟩ := eq_of_functionName? h
  exact identifier?_atom_append name

end FunctionName

end WasmTrim.Sexpr
