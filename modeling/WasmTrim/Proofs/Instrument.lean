import WasmTrim.Instrument
import WasmTrim.Proofs.Module.Fields

/-!
# What instrumentation leaves alone

Instrumentation keeps the names of a module's functions and their order. A function with
instructions of its own is found at its place among them, with its reports between declaration and
instructions.
-/

namespace WasmTrim.Sexpr

variable {module field : Sexpr} {name : String}

theorem reportEntry_of_functionName? (h : field.functionName? = some name)
    (hbody : field.hasInlineImport = false) :
    reportEntry field =
      .list (declaration field.items ++ entryReports name ++ instructions field.items) := by
  simp only [reportEntry, h, hbody, Bool.false_eq_true, if_false]

/-- A field without a function's name, and a function that is declared as an import, stays. -/
theorem reportEntry_eq_self
    (h : ∀ name, field.functionName? = some name → field.hasInlineImport = true) :
    reportEntry field = field := by
  cases hname : field.functionName? with
  | none => simp only [reportEntry, hname]
  | some name => simp only [reportEntry, hname, h name hname, if_true]

/-- Reporting leaves a field alone, or puts the reports of its function between declaration and
instructions. -/
theorem reportEntry_cases (field : Sexpr) :
    reportEntry field = field ∨ ∃ name, field.functionName? = some name ∧
      reportEntry field =
        .list (declaration field.items ++ entryReports name ++ instructions field.items) := by
  by_cases hself : ∀ name, field.functionName? = some name → field.hasInlineImport = true
  · exact Or.inl (reportEntry_eq_self hself)
  · obtain ⟨name, hboth⟩ := Classical.not_forall.mp hself
    obtain ⟨hname, himport⟩ := Classical.not_imp.mp hboth
    exact Or.inr ⟨name, hname, reportEntry_of_functionName? hname (Bool.eq_false_iff.mpr himport)⟩

/-- Reporting keeps the name of a field. -/
@[simp] theorem functionName?_reportEntry (field : Sexpr) :
    (reportEntry field).functionName? = field.functionName? := by
  rcases reportEntry_cases field with hself | ⟨name, hname, hreports⟩
  · rw [hself]
  · rw [hreports, hname, List.append_assoc]
    exact functionName?_declaration_append hname _

/-- Reporting makes no list of an atom and no atom of a list. -/
@[simp] theorem isList_reportEntry (field : Sexpr) :
    (reportEntry field).isList = field.isList := by
  rcases reportEntry_cases field with hself | ⟨name, hname, hreports⟩
  · rw [hself]
  · obtain ⟨rest, rfl⟩ := eq_of_functionName? hname
    rw [hreports]
    rfl

/-- Reporting makes no import of another field, and no other field of an import. -/
@[simp] theorem isForm_import_reportEntry (field : Sexpr) :
    (reportEntry field).isForm "import" = field.isForm "import" := by
  rcases reportEntry_cases field with hself | ⟨name, hname, hreports⟩
  · rw [hself]
  · obtain ⟨rest, rfl⟩ := eq_of_functionName? hname
    rw [hreports]
    rfl

/-- Where the imports of the hooks belong: behind the first import, or in front of all fields. -/
inductive HooksBetween : List Sexpr → List Sexpr → Prop
  /-- No field is an import. -/
  | front {fields : List Sexpr} (h : ∀ field ∈ fields, field.isForm "import" = false) :
      HooksBetween [] fields
  /-- A field is the first import. -/
  | behind {before : List Sexpr} {first : Sexpr} (rest : List Sexpr)
      (hbefore : ∀ field ∈ before, field.isForm "import" = false)
      (hfirst : first.isForm "import" = true) : HooksBetween (before ++ [first]) rest

/-- The imports of the hooks are placed where they belong among the fields, which report. -/
theorem placeHooks_map_reportEntry (fields : List Sexpr) :
    ∃ front back, fields = front ++ back ∧ HooksBetween front back ∧
      placeHooks (fields.map reportEntry) =
        front.map reportEntry ++ hookImports ++ back.map reportEntry := by
  have hform : (fun field => !isForm "import" field) ∘ reportEntry =
      fun field => !isForm "import" field := by
    funext field
    exact congrArg not (isForm_import_reportEntry field)
  have hsplit := List.takeWhile_append_dropWhile (p := (!isForm "import" ·)) (l := fields)
  have hbefore : ∀ field ∈ fields.takeWhile (!isForm "import" ·),
      field.isForm "import" = false := by
    intro field hfield
    have hall := List.all_eq_true.mp List.all_takeWhile field hfield
    simpa using hall
  rw [placeHooks, List.takeWhile_map, List.dropWhile_map, hform]
  cases hrest : fields.dropWhile (!isForm "import" ·) with
  | nil =>
      rw [hrest, List.append_nil] at hsplit
      rw [hsplit] at hbefore
      exact ⟨[], fields, rfl, .front hbefore, rfl⟩
  | cons first rest =>
      have hfirst : first.isForm "import" = true := by
        have hhead := List.head?_dropWhile_not (!isForm "import" ·) fields
        rw [hrest] at hhead
        simpa using hhead
      rw [hrest] at hsplit
      refine ⟨fields.takeWhile (!isForm "import" ·) ++ [first], rest, ?_, ?_, ?_⟩
      · rw [List.append_assoc]
        exact hsplit.symm
      · exact .behind rest hbefore hfirst
      · simp

theorem filterMap_hookImports : hookImports.filterMap functionName? = [] := rfl

theorem filterMap_map_reportEntry (fields : List Sexpr) :
    (fields.map reportEntry).filterMap functionName? = fields.filterMap functionName? := by
  rw [List.filterMap_map]
  exact congrArg (List.filterMap · fields) (funext functionName?_reportEntry)

/-- Reporting fields start with a list where the fields do. -/
theorem isList_of_mem_head?_map_reportEntry {fields : List Sexpr}
    (h : ∀ field ∈ fields.head?, field.isList = true) :
    ∀ item ∈ (fields.map reportEntry).head?, item.isList = true := by
  intro item hitem
  rw [List.head?_map] at hitem
  obtain ⟨field, hfield, rfl⟩ := Option.map_eq_some_iff.mp hitem
  rw [isList_reportEntry]
  exact h field hfield

/-- With the hooks placed among them, too. -/
theorem isList_of_mem_head?_placeHooks {fields : List Sexpr}
    (h : ∀ field ∈ fields.head?, field.isList = true) :
    ∀ item ∈ (placeHooks (fields.map reportEntry)).head?, item.isList = true := by
  obtain ⟨front, back, rfl, _, hplaced⟩ := placeHooks_map_reportEntry fields
  rw [hplaced]
  cases front with
  | nil =>
      rintro _ ⟨⟩
      rfl
  | cons first rest =>
      rintro _ ⟨⟩
      rw [isList_reportEntry]
      exact h first rfl

/-- The fields of an instrumented module are the ones that were put into it. -/
theorem fields_instrument_eq (module : Sexpr) :
    (instrument module).fields =
      if module.fields.any isHookImport then module.fields.map reportEntry
      else placeHooks (module.fields.map reportEntry) := by
  have hhead : ∀ field ∈ module.fields.head?, field.isList = true :=
    fun _ => isList_of_mem_head?_fields
  rw [instrument]
  apply fields_withFields
  split
  · exact isList_of_mem_head?_map_reportEntry hhead
  · exact isList_of_mem_head?_placeHooks hhead

/-- The fields that instrumentation writes: the reporting ones, perhaps with hooks between them. -/
theorem fields_instrument (module : Sexpr) :
    ∃ front back hooks, module.fields = front ++ back ∧ hooks.filterMap functionName? = [] ∧
      (instrument module).fields = front.map reportEntry ++ hooks ++ back.map reportEntry := by
  rw [fields_instrument_eq]
  split
  · refine ⟨module.fields, [], [], (List.append_nil _).symm, rfl, ?_⟩
    rw [List.map_nil, List.append_nil, List.append_nil]
  · obtain ⟨front, back, hfields, _, hplaced⟩ := placeHooks_map_reportEntry module.fields
    exact ⟨front, back, hookImports, hfields, filterMap_hookImports, hplaced⟩

/-- Instrumentation keeps the names of a module's functions and their order. -/
theorem functionNames_instrument (module : Sexpr) :
    (instrument module).functionNames = module.functionNames := by
  obtain ⟨front, back, hooks, hfields, hhooks, hinstrument⟩ := fields_instrument module
  rw [functionNames, functionNames, hinstrument, hfields]
  simp only [List.filterMap_append, filterMap_map_reportEntry, hhooks, List.append_nil]

/-- A field keeps its place among the named ones. -/
theorem fields_instrument_of_fields {before after : List Sexpr}
    (h : module.fields = before ++ field :: after) :
    ∃ before' after', (instrument module).fields = before' ++ reportEntry field :: after' ∧
      before'.filterMap functionName? = before.filterMap functionName? ∧
      after'.filterMap functionName? = after.filterMap functionName? := by
  obtain ⟨front, back, hooks, hfields, hhooks, hinstrument⟩ := fields_instrument module
  rw [hinstrument]
  -- The hooks stand before the field or behind it.
  rcases List.append_eq_append_iff.mp (h.symm.trans hfields) with
    ⟨middle, rfl, hback⟩ | ⟨middle, rfl, rfl⟩
  · cases middle with
    | nil =>
        rw [List.nil_append] at hback
        subst hback
        refine ⟨before.map reportEntry ++ hooks, after.map reportEntry, ?_, ?_,
          filterMap_map_reportEntry after⟩
        · rw [List.append_nil, List.map_cons]
        · rw [List.filterMap_append, hhooks, List.append_nil, filterMap_map_reportEntry]
    | cons first rest =>
        rw [List.cons_append] at hback
        obtain ⟨rfl, rfl⟩ := List.cons.inj hback
        refine ⟨before.map reportEntry, rest.map reportEntry ++ hooks ++ back.map reportEntry, ?_,
          filterMap_map_reportEntry before, ?_⟩
        · simp
        · simp only [List.filterMap_append, filterMap_map_reportEntry, hhooks, List.append_nil]
  · refine ⟨front.map reportEntry ++ hooks ++ middle.map reportEntry, after.map reportEntry, ?_, ?_,
      filterMap_map_reportEntry after⟩
    · simp
    · simp only [List.filterMap_append, filterMap_map_reportEntry, hhooks, List.append_nil]

end WasmTrim.Sexpr
