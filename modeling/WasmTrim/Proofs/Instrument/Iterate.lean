import Mathlib.Data.List.Forall2
import Mathlib.Logic.Function.Iterate
import WasmTrim.Proofs.Instrument

/-!
# What instrumentation inserts

However often a module is instrumented, its header stays and its fields stay in order. The imports
of the hooks are inserted once, behind the first import, and every function with instructions of its
own is given its reports once for each time, between its declaration and its instructions. Nothing
else changes, so taking these insertions out gives the fields back.

The hooks stand in a row and in fixed order; where there is no import, they stand in front of all
fields. `Sexpr.instrument_iterate_inserts` puts this together.

## Implementation notes

`Sexpr.ReportsOnEntry` counts the reports of one field. One more instrumentation adds one to the
count: reports are calls, so the declaration ends where it ended before.
-/

namespace WasmTrim.Sexpr

variable {module field field' : Sexpr} {name : String} {block forms body : List Sexpr} {count : Nat}

/-- A field that imports the function `$trace_function_call`. -/
def ImportsFunctionHook (field : Sexpr) : Prop :=
  ∃ items forms, field = .list (.atom "import" :: items) ∧
    .list (.atom "func" :: .atom "$trace_function_call" :: forms) ∈ items

theorem isHookImport_eq_true_iff : isHookImport field = true ↔ ImportsFunctionHook field := by
  rw [isHookImport, Bool.and_eq_true, isForm_eq_true_iff]
  constructor
  · rintro ⟨⟨items, rfl⟩, hany⟩
    obtain ⟨item, hitem, hname⟩ := List.any_eq_true.mp hany
    obtain ⟨forms, rfl⟩ := eq_of_functionName? (beq_iff_eq.mp hname)
    refine ⟨items, forms, rfl, ?_⟩
    exact List.mem_of_ne_of_mem (by rintro ⟨⟩) hitem
  · rintro ⟨items, forms, rfl, hmem⟩
    refine ⟨⟨items, rfl⟩, List.any_eq_true.mpr ⟨_, List.mem_cons_of_mem _ hmem, ?_⟩⟩
    exact beq_iff_eq.mpr (identifier?_atom_append "trace_function_call")

/-! ### Functions with instructions of their own -/

/-- A named function that is declared as no import: declaration forms, as many as there are, and
then its instructions. -/
structure IsFunction (field : Sexpr) (name : String) (forms body : List Sexpr) : Prop where
  /-- The forms stand between the name and the instructions. -/
  eq : field = .list (.atom "func" :: .atom ("$" ++ name) :: (forms ++ body))
  /-- Each of them belongs to the declaration. -/
  declared : ∀ form ∈ forms, isDeclaration form = true
  /-- The declaration ends where the instructions start. -/
  ended : ∀ item ∈ body.head?, isDeclaration item = false
  /-- No form is an import. -/
  own : ∀ item ∈ forms ++ body, item.isForm "import" = false

theorem exists_isFunction (hname : field.functionName? = some name)
    (himport : field.hasInlineImport = false) : ∃ forms body, IsFunction field name forms body := by
  obtain ⟨rest, rfl⟩ := eq_of_functionName? hname
  have hsplit := List.takeWhile_append_dropWhile (p := isDeclaration) (l := rest)
  refine ⟨rest.takeWhile isDeclaration, rest.dropWhile isDeclaration, ?_⟩
  constructor
  · rw [hsplit]
  · exact List.all_eq_true.mp List.all_takeWhile
  · intro item hitem
    have hhead := List.head?_dropWhile_not isDeclaration rest
    rw [Option.mem_def.mp hitem] at hhead
    simpa using hhead
  · intro item hitem
    rw [hsplit] at hitem
    apply Bool.eq_false_iff.mpr
    apply List.any_eq_false.mp himport item
    exact List.mem_cons_of_mem _ (List.mem_cons_of_mem _ hitem)

namespace IsFunction

variable (h : IsFunction field name forms body)
include h

theorem functionName? : field.functionName? = some name := by
  rw [h.eq]
  exact identifier?_atom_append name

theorem hasInlineImport : field.hasInlineImport = false := by
  rw [h.eq, Sexpr.hasInlineImport, items_list, List.any_cons, List.any_cons]
  apply List.any_eq_false.mpr
  intro item hitem
  exact Bool.eq_false_iff.mp (h.own item hitem)

theorem takeWhile_dropWhile :
    (forms ++ body).takeWhile isDeclaration = forms ∧
      (forms ++ body).dropWhile isDeclaration = body := by
  rw [List.takeWhile_append_of_pos h.declared, List.dropWhile_append_of_pos h.declared]
  have hended := h.ended
  cases body with
  | nil => exact ⟨List.append_nil forms, rfl⟩
  | cons item rest =>
      have hitem : ¬isDeclaration item = true := Bool.eq_false_iff.mp (hended item rfl)
      rw [List.takeWhile_cons_of_neg hitem, List.dropWhile_cons_of_neg hitem, List.append_nil]
      exact ⟨rfl, rfl⟩

theorem declaration_items :
    declaration field.items = .atom "func" :: .atom ("$" ++ name) :: forms := by
  rw [h.eq]
  calc
    declaration (.atom "func" :: .atom ("$" ++ name) :: (forms ++ body))
      = .atom "func" :: .atom ("$" ++ name) :: (forms ++ body).takeWhile isDeclaration := rfl
    _ = .atom "func" :: .atom ("$" ++ name) :: forms := by rw [h.takeWhile_dropWhile.1]

theorem instructions_items : instructions field.items = body := by
  rw [h.eq]
  calc
    instructions (.atom "func" :: .atom ("$" ++ name) :: (forms ++ body))
      = (forms ++ body).dropWhile isDeclaration := rfl
    _ = body := h.takeWhile_dropWhile.2

/-- Items that are neither declarations nor imports may stand in front of the instructions. -/
theorem insert {added : List Sexpr}
    (hadded : ∀ item ∈ added, isDeclaration item = false ∧ item.isForm "import" = false) :
    IsFunction (.list (.atom "func" :: .atom ("$" ++ name) :: (forms ++ (added ++ body)))) name forms
      (added ++ body) := by
  constructor
  · rfl
  · exact h.declared
  · intro item hitem
    cases added with
    | nil => exact h.ended item hitem
    | cons first rest =>
        cases hitem
        exact (hadded _ (List.mem_cons_self ..)).1
  · intro item hitem
    rcases List.mem_append.mp hitem with hform | hrest
    · exact h.own item (List.mem_append_left _ hform)
    · rcases List.mem_append.mp hrest with hnew | hbody
      · exact (hadded item hnew).2
      · exact h.own item (List.mem_append_right _ hbody)

theorem reportEntry_eq :
    reportEntry field =
      .list (.atom "func" :: .atom ("$" ++ name) :: (forms ++ (entryReports name ++ body))) := by
  rw [reportEntry_of_functionName? h.functionName? h.hasInlineImport, h.declaration_items,
    h.instructions_items, List.append_assoc]
  rfl

end IsFunction

/-! ### The reports of one field -/

/-- The calls that a function of the given name makes first: its fingerprint is reported, and before
it the module that a loader is asked for. -/
inductive HookBlock : String → List Sexpr → Prop
  /-- The loader of frozen modules reports its argument. -/
  | frozenLoader : HookBlock "load_frozen_module"
      [call "trace_frozen_module_load" [.list [.atom "local.get", .atom "$0"]],
        call "trace_function_call" [i32Const (fingerprint "load_frozen_module")]]
  /-- The loader of builtin modules reports its argument. -/
  | builtinLoader : HookBlock "notify_builtin_module_load"
      [call "trace_builtin_module_load" [.list [.atom "local.get", .atom "$0"]],
        call "trace_function_call" [i32Const (fingerprint "notify_builtin_module_load")]]
  /-- Any other function reports its fingerprint only. -/
  | other {name : String} (hfrozen : name ≠ "load_frozen_module")
      (hbuiltin : name ≠ "notify_builtin_module_load") :
      HookBlock name [call "trace_function_call" [i32Const (fingerprint name)]]

theorem hookBlock_iff : HookBlock name block ↔ block = entryReports name := by
  constructor
  · rintro (_ | _ | ⟨hfrozen, hbuiltin⟩)
    · rfl
    · rfl
    · rw [entryReports, TraceHook.ofLoader?, if_neg hfrozen, if_neg hbuiltin]
      rfl
  · rintro rfl
    by_cases hfrozen : name = "load_frozen_module"
    · subst hfrozen
      exact .frozenLoader
    by_cases hbuiltin : name = "notify_builtin_module_load"
    · subst hbuiltin
      exact .builtinLoader
    rw [entryReports, TraceHook.ofLoader?, if_neg hfrozen, if_neg hbuiltin]
    exact .other hfrozen hbuiltin

/-- The reports are calls: none of them belongs to a declaration, and none is an import. -/
theorem HookBlock.calls (h : HookBlock name block) :
    ∀ item ∈ block, isDeclaration item = false ∧ item.isForm "import" = false := by
  have hcall (target : String) (args : List Sexpr) :
      isDeclaration (call target args) = false ∧ (call target args).isForm "import" = false := by
    have hkeyword : declarationKeywords.contains "call" = false := by decide
    have hform : (some "call" == some "import") = false := by decide
    exact ⟨hkeyword, hform⟩
  cases h with
  | frozenLoader =>
      exact List.forall_mem_cons.mpr ⟨hcall _ _, List.forall_mem_singleton.mpr (hcall _ _)⟩
  | builtinLoader =>
      exact List.forall_mem_cons.mpr ⟨hcall _ _, List.forall_mem_singleton.mpr (hcall _ _)⟩
  | other => exact List.forall_mem_singleton.mpr (hcall _ _)

/-- A field, and the field with the reports of its function so many times. -/
inductive ReportsOnEntry (count : Nat) : Sexpr → Sexpr → Prop
  /-- The reports stand between the declaration of a function and its instructions. -/
  | function {field : Sexpr} {name : String} {forms body block : List Sexpr}
      (hfield : IsFunction field name forms body) (hblock : HookBlock name block) :
      ReportsOnEntry count field
        (.list (.atom "func" :: .atom ("$" ++ name) ::
          (forms ++ ((List.replicate count block).flatten ++ body))))
  /-- A field without a function's name, and a function that is declared as an import, stays. -/
  | other {field : Sexpr}
      (h : ∀ name, field.functionName? = some name → field.hasInlineImport = true) :
      ReportsOnEntry count field field

/-- At first a field has no reports. -/
theorem reportsOnEntry_zero (field : Sexpr) : ReportsOnEntry 0 field field := by
  by_cases hother : ∀ name, field.functionName? = some name → field.hasInlineImport = true
  · exact .other hother
  · obtain ⟨name, hname⟩ := not_forall.mp hother
    obtain ⟨hname, himport⟩ := Classical.not_imp.mp hname
    obtain ⟨forms, body, hfield⟩ := exists_isFunction hname (Bool.eq_false_iff.mpr himport)
    have hreports : ReportsOnEntry 0 field _ := .function hfield (hookBlock_iff.mpr rfl)
    rwa [List.replicate_zero, List.flatten_nil, List.nil_append, ← hfield.eq] at hreports

/-- A function with reports is one whose instructions start with them. -/
theorem IsFunction.withReports (h : IsFunction field name forms body)
    (hblock : HookBlock name block) (count : Nat) :
    IsFunction (.list (.atom "func" :: .atom ("$" ++ name) ::
        (forms ++ ((List.replicate count block).flatten ++ body)))) name forms
      ((List.replicate count block).flatten ++ body) := by
  apply h.insert
  intro item hitem
  obtain ⟨copy, hcopy, hitem⟩ := List.mem_flatten.mp hitem
  rw [List.eq_of_mem_replicate hcopy] at hitem
  exact hblock.calls item hitem

/-- One more instrumentation adds the reports once more. -/
theorem ReportsOnEntry.step (h : ReportsOnEntry count field field') :
    ReportsOnEntry (count + 1) field (reportEntry field') := by
  cases h with
  | other h =>
      rw [reportEntry_eq_self h]
      exact .other h
  | @function name forms body block hfield hblock =>
      have hreports : ReportsOnEntry (count + 1) field _ := .function hfield hblock
      rw [(hfield.withReports hblock count).reportEntry_eq, ← hookBlock_iff.mp hblock,
        ← List.append_assoc block, ← List.flatten_cons, ← List.replicate_succ]
      exact hreports

/-! ### Taking the reports out -/

/-- The field without the reports that stand so many times in front of its instructions. -/
def removeReports (count : Nat) (field : Sexpr) : Sexpr :=
  match field.functionName? with
  | none => field
  | some name =>
    if field.hasInlineImport then field
    else .list (declaration field.items ++
      (instructions field.items).drop (count * (entryReports name).length))

/-- Taking the reports out of a field gives the field before. -/
theorem ReportsOnEntry.removeReports (h : ReportsOnEntry count field field') :
    removeReports count field' = field := by
  cases h with
  | other h =>
      cases hname : field.functionName? with
      | none => simp only [Sexpr.removeReports, hname]
      | some name => simp only [Sexpr.removeReports, hname, h name hname, if_true]
  | @function name forms body block hfield hblock =>
      have hreports := hfield.withReports hblock count
      have hlength : ((List.replicate count block).flatten).length =
          count * (entryReports name).length := by
        rw [← hookBlock_iff.mp hblock]
        simp
      simp only [Sexpr.removeReports, hreports.functionName?, hreports.hasInlineImport,
        hreports.declaration_items, hreports.instructions_items, Bool.false_eq_true, if_false]
      rw [← hlength, List.drop_left, hfield.eq]
      rfl

/-! ### Fields and hooks -/

open List (Forall₂)

/-- The fields without the imports of the hooks, which stand in a row. -/
def removeHooks (fields : List Sexpr) : List Sexpr :=
  fields.takeWhile (!isHookImport ·) ++
    (fields.dropWhile (!isHookImport ·)).drop hookImports.length

/-- A field with reports is a list if it was one before, and an import of the hook likewise. -/
theorem ReportsOnEntry.isList_isHookImport (h : ReportsOnEntry count field field') :
    field'.isList = field.isList ∧ isHookImport field' = isHookImport field := by
  cases h with
  | other => exact ⟨rfl, rfl⟩
  | function hfield =>
      rw [hfield.eq]
      exact ⟨rfl, rfl⟩

theorem forall₂_map_reportEntry {fields fields' : List Sexpr}
    (h : Forall₂ (ReportsOnEntry count) fields fields') :
    Forall₂ (ReportsOnEntry (count + 1)) fields (fields'.map reportEntry) := by
  rw [List.forall₂_map_right_iff]
  exact h.imp fun _ _ => ReportsOnEntry.step

/-- A module under the header of another, with the hooks between fields that report so
many times. -/
def Inserted (count : Nat) (module : Sexpr) (front back : List Sexpr) (out : Sexpr) : Prop :=
  ∃ front' back', out = module.withFields (front' ++ hookImports ++ back') ∧
    Forall₂ (ReportsOnEntry count) front front' ∧ Forall₂ (ReportsOnEntry count) back back'

variable {front front' back back' : List Sexpr} {out : Sexpr}

/-- With hooks in it, a sequence of reporting fields starts with a list. -/
theorem isList_of_mem_head?_hooks (hfields : module.fields = front ++ back)
    (hfront : Forall₂ (ReportsOnEntry count) front front') (back' : List Sexpr) :
    ∀ item ∈ (front' ++ hookImports ++ back').head?, item.isList = true := by
  cases hfront with
  | nil =>
      rintro _ ⟨⟩
      rfl
  | cons hfirst _ =>
      rintro _ ⟨⟩
      rw [hfirst.isList_isHookImport.1]
      apply isList_of_mem_head?_fields
      rw [hfields]
      rfl

/-- Instrumenting a module without hooks for the first time inserts them. -/
theorem inserted_instrument (hhooks : ∀ field ∈ module.fields, isHookImport field = false) :
    ∃ front back, module.fields = front ++ back ∧ HooksBetween front back ∧
      Inserted 1 module front back (instrument module) := by
  obtain ⟨front, back, hfields, hbetween, hplaced⟩ := placeHooks_map_reportEntry module.fields
  have hnone : ¬module.fields.any isHookImport = true := by
    apply Bool.eq_false_iff.mp
    exact List.any_eq_false.mpr fun field hfield => Bool.eq_false_iff.mp (hhooks field hfield)
  have hstart (fields : List Sexpr) :
      Forall₂ (ReportsOnEntry 1) fields (fields.map reportEntry) := by
    apply forall₂_map_reportEntry
    exact List.forall₂_same.mpr fun field _ => reportsOnEntry_zero field
  refine ⟨front, back, hfields, hbetween, front.map reportEntry, back.map reportEntry, ?_,
    hstart front, hstart back⟩
  rw [instrument, if_neg hnone, hplaced]

/-- Instrumenting it again adds the reports once more, and no hooks. -/
theorem Inserted.step (hfields : module.fields = front ++ back)
    (h : Inserted count module front back out) :
    Inserted (count + 1) module front back (instrument out) := by
  obtain ⟨front', back', rfl, hfront, hback⟩ := h
  have hhead := isList_of_mem_head?_hooks hfields hfront back'
  have hany : (front' ++ hookImports ++ back').any isHookImport = true := by
    have hhook : hookImports.any isHookImport = true := by decide
    rw [List.any_append, List.any_append, hhook, Bool.or_true, Bool.true_or]
  have hhooks : hookImports.map reportEntry = hookImports := rfl
  refine ⟨front'.map reportEntry, back'.map reportEntry, ?_, forall₂_map_reportEntry hfront,
    forall₂_map_reportEntry hback⟩
  rw [instrument, fields_withFields module hhead, if_pos hany, List.map_append, List.map_append,
    hhooks, withFields_withFields module hhead]

/-- So the hooks are there once however often a module is instrumented. -/
theorem inserted_iterate (hhooks : ∀ field ∈ module.fields, isHookImport field = false) (n : Nat) :
    ∃ front back, module.fields = front ++ back ∧ HooksBetween front back ∧
      Inserted (n + 1) module front back (instrument^[n + 1] module) := by
  obtain ⟨front, back, hfields, hbetween, hfirst⟩ := inserted_instrument hhooks
  refine ⟨front, back, hfields, hbetween, ?_⟩
  induction n with
  | zero => exact hfirst
  | succ n ih =>
      rw [Function.iterate_succ_apply']
      exact ih.step hfields

/-- Taking the hooks out of reporting fields, and then the reports, gives the fields before. -/
theorem map_removeReports_removeHooks
    (hhooks : ∀ field ∈ front, isHookImport field = false)
    (hfront : Forall₂ (ReportsOnEntry count) front front')
    (hback : Forall₂ (ReportsOnEntry count) back back') :
    (removeHooks (front' ++ hookImports ++ back')).map (removeReports count) = front ++ back := by
  have hmap {fields fields' : List Sexpr} (h : Forall₂ (ReportsOnEntry count) fields fields') :
      fields'.map (removeReports count) = fields := by
    induction h with
    | nil => rfl
    | cons hfirst _ ih => rw [List.map_cons, hfirst.removeReports, ih]
  have hnone : ∀ field ∈ front', (!isHookImport field) = true := by
    induction hfront with
    | nil => simp
    | cons hfirst _ ih =>
        obtain ⟨hhook, hothers⟩ := List.forall_mem_cons.mp hhooks
        refine List.forall_mem_cons.mpr ⟨?_, ih hothers⟩
        rw [hfirst.isList_isHookImport.2, hhook]
        rfl
  have hremoved : removeHooks (front' ++ hookImports ++ back') = front' ++ back' := by
    rw [removeHooks, List.append_assoc, List.takeWhile_append_of_pos hnone,
      List.dropWhile_append_of_pos hnone]
    have hhook : ¬(!isHookImport (hookImport .functionCall)) = true := by decide
    have hcons : hookImports ++ back' = hookImport .functionCall ::
        ([hookImport .frozenModuleLoad, hookImport .builtinModuleLoad] ++ back') := rfl
    rw [hcons, List.takeWhile_cons_of_neg (p := (!isHookImport ·)) hhook,
      List.dropWhile_cons_of_neg (p := (!isHookImport ·)) hhook, List.append_nil]
    rfl
  rw [hremoved, List.map_append, hmap hfront, hmap hback]

/-- A module without hooks that is instrumented any number of times gets the hooks once and
the reports of every function as many times, and nothing else: without them its fields are as
they were. -/
theorem instrument_iterate_inserts (hhooks : ∀ field ∈ module.fields, ¬ImportsFunctionHook field)
    {n : Nat} (hn : 0 < n) :
    ∃ leading front back front' back',
      module.items = leading ++ module.fields ∧ (∀ item ∈ leading, item.isList = false) ∧
      module.fields = front ++ back ∧ HooksBetween front back ∧
      instrument^[n] module = .list ((if leading.isEmpty then [.atom "module"] else leading) ++
        (front' ++ [hookImport .functionCall, hookImport .frozenModuleLoad,
          hookImport .builtinModuleLoad] ++ back')) ∧
      (instrument^[n] module).fields = front' ++ [hookImport .functionCall,
        hookImport .frozenModuleLoad, hookImport .builtinModuleLoad] ++ back' ∧
      Forall₂ (ReportsOnEntry n) front front' ∧ Forall₂ (ReportsOnEntry n) back back' ∧
      (removeHooks (instrument^[n] module).fields).map (removeReports n) = module.fields := by
  obtain ⟨count, rfl⟩ := Nat.exists_eq_succ_of_ne_zero (Nat.ne_of_gt hn)
  have hnone : ∀ field ∈ module.fields, isHookImport field = false := by
    intro field hfield
    apply Bool.eq_false_iff.mpr
    intro hhook
    exact hhooks field hfield (isHookImport_eq_true_iff.mp hhook)
  obtain ⟨leading, hitems, hleading, hheader⟩ := exists_leading module
  obtain ⟨front, back, hfields, hbetween, front', back', hout, hfront, hback⟩ :=
    inserted_iterate hnone count
  have hread := fields_withFields module (isList_of_mem_head?_hooks hfields hfront back')
  rw [← hout] at hread
  refine ⟨leading, front, back, front', back', hitems, hleading, hfields, hbetween, ?_, hread, hfront,
    hback, ?_⟩
  · rw [← hheader]
    exact hout
  · rw [hfields] at hnone
    rw [hread, hfields]
    exact map_removeReports_removeHooks (List.forall_mem_append.mp hnone).1 hfront hback

/-- A module with an import, a loader and a function without a name. -/
def loadingModule : Sexpr :=
  .list [.atom "module", .list [.atom "memory", .atom "1"],
    .list [.atom "import", .atom "\"env\"", .atom "\"f\"", .list [.atom "func", .atom "$f"]],
    .list [.atom "func", .atom "$load_frozen_module", .list [.atom "param", .atom "i32"],
      .atom "nop"], .list [.atom "func", .atom "nop"]]

/-- Instrumented twice, it is that module when the hooks and two copies of its reports are taken
out. -/
theorem instrument_iterate_inserts_loadingModule :
    (∀ field ∈ loadingModule.fields, ¬ImportsFunctionHook field) ∧
      (removeHooks (instrument^[2] loadingModule).fields).map (removeReports 2) =
        loadingModule.fields := by
  have hhooks : ∀ field ∈ loadingModule.fields, ¬ImportsFunctionHook field := by
    intro field hfield hhook
    rw [← isHookImport_eq_true_iff] at hhook
    revert field
    decide
  obtain ⟨_, _, _, _, _, _, _, _, _, _, _, _, _, hremoved⟩ :=
    instrument_iterate_inserts hhooks (by decide : 0 < 2)
  exact ⟨hhooks, hremoved⟩

end WasmTrim.Sexpr
