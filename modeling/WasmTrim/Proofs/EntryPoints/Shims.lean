import Mathlib.Data.List.Nodup
import Mathlib.Data.List.Pairwise
import WasmTrim.Proofs.Sexpr.Literal
import WasmTrim.Proofs.Strip.Addresses

/-!
# What the exports of shims run

A shim's function is named after its module and method, joined by an underscore; its export after
the method alone. Neither is checked against the names that are there. The names of a module with
shims are those of the module followed by those of the shims, which tells when two of them clash; if
none do, the export of an entry point runs its shim and nothing else.

## Implementation notes

The name of an export is the byte string that its quoted string denotes, so a method's name with
backslashes stands for other bytes than its own.
-/

namespace WasmTrim

namespace EntryPoint

/-- The name of the function that a shim adds, without its dollar sign. -/
def shimId (name : String) : String :=
  (split name).1 ++ "_" ++ (split name).2

/-- The name that a shim's export denotes. -/
def exportedName (name : String) : ByteArray :=
  Literal.decodeInside .empty (split name).2.toList

end EntryPoint

namespace Sexpr

open EntryPoint

/-! ### Functions and exports of a module -/

/-- The name of a function that a field imports or defines, without its dollar sign. -/
def functionId? : Sexpr → Option String
  | .list [.atom "import", _, _, what] => what.functionName?
  | field => field.functionName?

/-- The names of a module's functions, imported ones among them. -/
def functionIds (module : Sexpr) : List String :=
  module.fields.filterMap functionId?

/-- The name that an `export` form gives. -/
def exportName? : Sexpr → Option ByteArray
  | .list (.atom "export" :: .atom literal :: _) => (Literal.decode literal).toOption
  | _ => none

/-- The names that a field exports something by: its own, or those of the forms among its items. -/
def exports (field : Sexpr) : List ByteArray :=
  (field :: field.items).filterMap exportName?

def exportNames (module : Sexpr) : List ByteArray :=
  module.fields.flatMap exports

/-- The field that exports a function. -/
def functionExport (literal id : String) : Sexpr :=
  .list [.atom "export", .atom literal, .list [.atom "func", .atom ("$" ++ id)]]

/-- Calling the export of a name runs the function of a field: an `export` field names the function,
or the function has an `export` form of its own. -/
inductive Exports (module : Sexpr) (name : ByteArray) : Sexpr → Prop
  | named {func : Sexpr} {literal id : String} (hfield : functionExport literal id ∈ module.fields)
      (hname : Literal.decode literal = .ok name) (hfunc : func ∈ module.fields)
      (hid : func.functionId? = some id) : Exports module name func
  | inline {func : Sexpr} (hform : func.isForm "func" = true) (hname : name ∈ func.exports)
      (hfunc : func ∈ module.fields) : Exports module name func

theorem exports_functionExport {literal : String} {name : ByteArray}
    (h : Literal.decode literal = .ok name) (id : String) :
    (functionExport literal id).exports = [name] := by
  have hname : (functionExport literal id).exportName? = some name := by
    rw [functionExport, exportName?, h]
    rfl
  rw [exports, List.filterMap_cons_some hname]
  rfl

theorem id_eq_of_functionExport_eq {a b id other : String}
    (h : functionExport a id = functionExport b other) : id = other := by
  simp only [functionExport, list.injEq, List.cons.injEq] at h
  exact name_eq_of_identifier_eq h.2.2.1.2.1

section Distinct

variable {module field other : Sexpr}

theorem eq_of_nodup_flatMap {α β : Type} {f : α → List β} {l : List α} {a b : α} {x : β}
    (h : (l.flatMap f).Nodup) (ha : a ∈ l) (hb : b ∈ l) (hxa : x ∈ f a) (hxb : x ∈ f b) :
    a = b := by
  have hsymm : Std.Symm (Function.onFun List.Disjoint f) := ⟨fun _ _ h => List.disjoint_symm h⟩
  by_cases heq : a = b
  · exact heq
  · have hdisjoint := (List.nodup_flatMap.mp h).2.forall ha hb heq
    exact absurd hxb (List.disjoint_left.mp hdisjoint hxa)

/-- Distinct exports are told apart by their names. -/
theorem eq_of_mem_exports (h : module.exportNames.Nodup) (hfield : field ∈ module.fields)
    (hother : other ∈ module.fields) {name : ByteArray} (hname : name ∈ field.exports)
    (hname' : name ∈ other.exports) : field = other :=
  eq_of_nodup_flatMap h hfield hother hname hname'

/-- Distinct functions are told apart by their names. -/
theorem eq_of_functionId? (h : module.functionIds.Nodup) (hfield : field ∈ module.fields)
    (hother : other ∈ module.fields) {id : String} (hid : field.functionId? = some id)
    (hid' : other.functionId? = some id) : field = other := by
  rw [functionIds, List.filterMap_eq_flatMap_toList] at h
  apply eq_of_nodup_flatMap h hfield hother (x := id)
  · exact Option.mem_toList.mpr hid
  · exact Option.mem_toList.mpr hid'

end Distinct

/-! ### The fields of a shim -/

namespace PlacedEntry

variable (e : PlacedEntry)

def exportField : Sexpr :=
  functionExport ("\"" ++ (split e.name).2 ++ "\"") (shimId e.name)

/-- The function of the shim: it passes on the addresses of the two names. -/
def function : Sexpr :=
  .list [.atom "func", .atom ("$" ++ shimId e.name),
    call dispatcher [i32Const e.moduleAddress, i32Const e.functionAddress]]

theorem fields_eq : e.fields = [e.exportField, e.function] := by
  have hid : "$" ++ (split e.name).1 ++ "_" ++ (split e.name).2 = "$" ++ shimId e.name := by
    rw [shimId, String.append_assoc, String.append_assoc, String.append_assoc]
  rw [fields, shim, hid]
  rfl

@[simp] theorem functionId?_exportField : e.exportField.functionId? = none := rfl

@[simp] theorem functionId?_function : e.function.functionId? = some (shimId e.name) :=
  identifier?_atom_append _

@[simp] theorem exports_exportField : e.exportField.exports = [exportedName e.name] :=
  exports_functionExport (Literal.decode_quote _) _

@[simp] theorem exports_function : e.function.exports = [] := rfl

end PlacedEntry

/-! ### Names of a module with shims -/

theorem functionIds_shims (store : FrozenStore) (names : List String) :
    (shims store names).1.filterMap functionId? = names.map shimId := by
  obtain ⟨placed, hnames, hfields, _⟩ := interns_shims store names
  have hshim : ∀ e : PlacedEntry, e.fields.filterMap functionId? = [shimId e.name] := by
    intro e
    rw [e.fields_eq, List.filterMap_cons_none e.functionId?_exportField,
      List.filterMap_cons_some e.functionId?_function, List.filterMap_nil]
  rw [hfields, ← hnames, List.filterMap_flatMap, List.map_map, funext hshim,
    ← List.map_eq_flatMap]
  rfl

theorem exports_shims (store : FrozenStore) (names : List String) :
    (shims store names).1.flatMap exports = names.map exportedName := by
  obtain ⟨placed, hnames, hfields, _⟩ := interns_shims store names
  have hshim : ∀ e : PlacedEntry, e.fields.flatMap exports = [exportedName e.name] := by
    intro e
    rw [e.fields_eq, List.flatMap_cons, List.flatMap_singleton, e.exports_exportField,
      e.exports_function, List.append_nil]
  rw [hfields, ← hnames, List.flatMap_assoc, List.map_map, funext hshim, ← List.map_eq_flatMap]
  rfl

section AddShims

variable (module : Sexpr) (entries : EntryPoints) (store : FrozenStore)

theorem functionIds_addShims : (module.addShims entries store).1.functionIds =
    module.functionIds ++ entries.map fun e => shimId e.name := by
  rw [functionIds, fields_addShims, List.filterMap_append, functionIds_shims, List.map_map]
  rfl

theorem exportNames_addShims : (module.addShims entries store).1.exportNames =
    module.exportNames ++ entries.map fun e => exportedName e.name := by
  rw [exportNames, fields_addShims, List.flatMap_append, exports_shims, List.map_map]
  rfl

theorem nodup_functionIds_addShims_iff (h : module.functionIds.Nodup) :
    (module.addShims entries store).1.functionIds.Nodup ↔
      (entries.map fun e => shimId e.name).Nodup ∧
        ∀ e ∈ entries, shimId e.name ∉ module.functionIds := by
  rw [functionIds_addShims, List.nodup_append', List.disjoint_right]
  simp only [h, true_and, List.forall_mem_map]

theorem nodup_exportNames_addShims_iff (h : module.exportNames.Nodup) :
    (module.addShims entries store).1.exportNames.Nodup ↔
      (entries.map fun e => exportedName e.name).Nodup ∧
        ∀ e ∈ entries, exportedName e.name ∉ module.exportNames := by
  rw [exportNames_addShims, List.nodup_append', List.disjoint_right]
  simp only [h, true_and, List.forall_mem_map]

end AddShims

/-! ### Entry points and their shims -/

section Dispatch

variable {module : Sexpr} {entries : EntryPoints}

/-- A method whose name has no backslash is exported by that name. -/
theorem exportedName_eq {name : String} (h : '\\' ∉ (split name).2.toList) :
    exportedName name = (split name).2.toUTF8 :=
  Literal.decodeInside_toList h

/-- Where no two names clash, an export and a function that stand behind each other in a module are
what the export runs. -/
theorem exports_iff_of_mem {e : PlacedEntry} (hids : module.functionIds.Nodup)
    (hnames : module.exportNames.Nodup) (hexport : e.exportField ∈ module.fields)
    (hfunction : e.function ∈ module.fields) (func : Sexpr) :
    Exports module (exportedName e.name) func ↔ func = e.function := by
  have hmem : exportedName e.name ∈ e.exportField.exports := by
    rw [e.exports_exportField]
    exact List.mem_singleton_self _
  constructor
  · intro h
    cases h with
    | @named literal id hfield hname hfunc hid =>
        have hother : exportedName e.name ∈ (functionExport literal id).exports := by
          rw [exports_functionExport hname]
          exact List.mem_singleton_self _
        have hsame : id = shimId e.name :=
          id_eq_of_functionExport_eq (eq_of_mem_exports hnames hfield hexport hother hmem)
        rw [hsame] at hid
        exact eq_of_functionId? hids hfunc hfunction hid e.functionId?_function
    | inline hform hname hfunc =>
        rw [eq_of_mem_exports hnames hfunc hexport hname hmem] at hform
        cases hform
  · rintro rfl
    exact .named hexport (Literal.decode_quote _) hfunction e.functionId?_function

/-- The shims of a module stand in it, and its final store holds the names that they pass on. -/
theorem exists_shim_of_mem (module : Sexpr) (store : FrozenStore) {e : EntryPoint}
    (he : e ∈ entries) : ∃ shim : PlacedEntry, shim.name = e.name ∧
      shim.exportField ∈ (module.addShims entries store).1.fields ∧
      shim.function ∈ (module.addShims entries store).1.fields ∧
      (module.addShims entries store).2.Holds shim.moduleAddress (split e.name).1 ∧
      (module.addShims entries store).2.Holds shim.functionAddress (split e.name).2 := by
  obtain ⟨placed, hnames, hfields, hinterns⟩ := interns_shims store (entries.map (·.name))
  have hmem : e.name ∈ placed.map PlacedEntry.name := by
    rw [hnames]
    exact List.mem_map_of_mem he
  obtain ⟨shim, hshim, hname⟩ := List.mem_map.mp hmem
  have hthere : ∀ field ∈ shim.fields, field ∈ (module.addShims entries store).1.fields := by
    intro field hfield
    rw [fields_addShims, hfields]
    exact List.mem_append_right _ (List.mem_flatMap.mpr ⟨shim, hshim, hfield⟩)
  have hholds : ∀ p ∈ shim.names, (module.addShims entries store).2.Holds p.2 p.1 := by
    intro p hp
    exact hinterns.holds p (List.mem_flatMap.mpr ⟨shim, hshim, hp⟩)
  rw [shim.fields_eq] at hthere
  rw [PlacedEntry.names, hname] at hholds
  simp only [List.forall_mem_cons] at hthere hholds
  exact ⟨shim, hname, hthere.1, hthere.2.1, hholds.1, hholds.2.1⟩

/-- The names of a module with shims stay distinct exactly if those of the shims are, and then the
export by which tracing calls an entry point runs its shim and nothing else. -/
theorem addShims_dispatches (module : Sexpr) (entries : EntryPoints) (store : FrozenStore)
    (hids : module.functionIds.Nodup) (hnames : module.exportNames.Nodup)
    (hplain : ∀ e ∈ entries, '\\' ∉ (split e.name).2.toList)
    (hnew : ∀ e ∈ entries, (split e.name).2.toUTF8 ∉ module.exportNames) :
    ((module.addShims entries store).1.functionIds.Nodup ↔
      (entries.map fun e => shimId e.name).Nodup ∧
        ∀ e ∈ entries, shimId e.name ∉ module.functionIds) ∧
    ((module.addShims entries store).1.exportNames.Nodup ↔
      (entries.map fun e => (split e.name).2).Nodup) ∧
    ((module.addShims entries store).1.functionIds.Nodup →
      (module.addShims entries store).1.exportNames.Nodup →
        (∀ e ∈ entries, ∃ shim : PlacedEntry, shim.name = e.name ∧
          (module.addShims entries store).2.Holds shim.moduleAddress (split e.name).1 ∧
          (module.addShims entries store).2.Holds shim.functionAddress (split e.name).2 ∧
          ∀ func, Exports (module.addShims entries store).1 (split e.name).2.toUTF8 func ↔
            func = shim.function) ∧
        (dispatcher ∈ module.functionIds → ∀ func ∈ (module.addShims entries store).1.fields,
          func.functionId? = some dispatcher → func ∈ module.fields)) := by
  have hexported : entries.map (fun e => exportedName e.name) =
      (entries.map fun e => (split e.name).2).map String.toUTF8 := by
    rw [List.map_map]
    exact List.map_congr_left fun e he => exportedName_eq (hplain e he)
  have hinjective : Function.Injective String.toUTF8 := fun _ _ h => String.toByteArray_inj.mp h
  refine ⟨nodup_functionIds_addShims_iff module entries store hids, ?_, ?_⟩
  · rw [nodup_exportNames_addShims_iff module entries store hnames, hexported,
      List.nodup_map_iff hinjective]
    apply and_iff_left
    intro e he
    rw [exportedName_eq (hplain e he)]
    exact hnew e he
  · intro hids' hnames'
    constructor
    · intro e he
      obtain ⟨shim, hname, hexport, hfunction, hmodule, hmethod⟩ :=
        exists_shim_of_mem module store he
      have hplain' : '\\' ∉ (split shim.name).2.toList := by
        rw [hname]
        exact hplain e he
      refine ⟨shim, hname, hmodule, hmethod, fun func => ?_⟩
      rw [← hname, ← exportedName_eq hplain']
      exact exports_iff_of_mem hids' hnames' hexport hfunction func
    · intro hdispatcher func hfunc hid
      obtain ⟨own, hown, hid'⟩ := List.mem_filterMap.mp hdispatcher
      have hown' : own ∈ (module.addShims entries store).1.fields := by
        rw [fields_addShims]
        exact List.mem_append_left _ hown
      rw [eq_of_functionId? hids' hfunc hown' hid hid']
      exact hown

/-- A module with the dispatcher of the runtime and an export. -/
def runtimeModule : Sexpr :=
  .list [.atom "module",
    .list [.atom "func", .atom ("$" ++ dispatcher), .list [.atom "param", .atom "i32", .atom "i32"]],
    .list [.atom "export", .atom "\"f\"", .list [.atom "memory", .atom "0"]]]

theorem functionIds_runtimeModule : runtimeModule.functionIds = [dispatcher] := by
  decide +kernel

theorem exportNames_runtimeModule : runtimeModule.exportNames = ["f".toUTF8] := by
  decide +kernel

/-- Two methods of two modules, as a contract has them. -/
def twoMethods : EntryPoints :=
  [⟨"contract.ping", []⟩, ⟨"app.admin.pong", []⟩]

/-- Two methods with names of their own get functions and exports of their own. -/
theorem twoMethods_dispatch :
    ∃ shim : PlacedEntry,
      (runtimeModule.addShims twoMethods .empty).2.Holds shim.functionAddress "pong" ∧
      ∀ func, Exports (runtimeModule.addShims twoMethods .empty).1 "pong".toUTF8 func ↔
        func = shim.function := by
  have h := addShims_dispatches runtimeModule twoMethods .empty
    (by rw [functionIds_runtimeModule]; decide) (by rw [exportNames_runtimeModule]; decide)
    (by decide +kernel)
    (by simp only [exportNames_runtimeModule, List.mem_singleton]; decide +kernel)
  obtain ⟨hids, hnames, hshims⟩ := h
  have hids' := hids.mpr (by rw [functionIds_runtimeModule]; decide +kernel)
  have hnames' := hnames.mpr (by decide +kernel)
  obtain ⟨shim, -, -, hmethod, hexports⟩ := (hshims hids' hnames').1 ⟨"app.admin.pong", []⟩
    (List.mem_cons_of_mem _ (List.mem_cons_self ..))
  have hsplit : (split "app.admin.pong").2 = "pong" := by decide +kernel
  rw [hsplit] at hmethod hexports
  exact ⟨shim, hmethod, hexports⟩

/-- Entry points whose shims clash: two modules have methods of one name, an underscore stands in
two places, a method is called like the dispatcher, a name escapes the letter of an export. -/
def clashingEntries : List EntryPoints :=
  [[⟨"a.g", []⟩, ⟨"b.g", []⟩], [⟨"a_b.c", []⟩, ⟨"a.b_c", []⟩], [⟨"contract.entry_point", []⟩],
    [⟨"a.\\66", []⟩]]

theorem addShims_clashes :
    runtimeModule.functionIds.Nodup ∧ runtimeModule.exportNames.Nodup ∧
    ∀ entries ∈ clashingEntries, (entries.map (·.name)).Nodup ∧
      (∀ e ∈ entries, (split e.name).2.toUTF8 ∉ runtimeModule.exportNames) ∧
      ¬((runtimeModule.addShims entries .empty).1.functionIds.Nodup ∧
        (runtimeModule.addShims entries .empty).1.exportNames.Nodup) := by
  simp only [functionIds_addShims, exportNames_addShims, functionIds_runtimeModule,
    exportNames_runtimeModule, List.mem_singleton]
  decide +kernel

end Dispatch

end Sexpr

end WasmTrim
