import WasmTrim.EntryPoints.Shims
import WasmTrim.Proofs.Frozen.Image
import WasmTrim.Proofs.Strip.Fields

/-!
# Addresses in the final image

Stripping and the shims of entry points write addresses of names into code long before the image is
laid out. Every one of them denotes its name in the image, whatever was added to the store
meanwhile.
-/

namespace WasmTrim

open Frozen FrozenStore

namespace Sexpr

variable {removed : List String} {sites : List (String × UInt32)}

/-! ### Names of replaced calls -/

mutual

/-- Every replaced call was one of a removed function. -/
theorem Replaced.names_removed : {t u : Sexpr} → {sites : List (String × UInt32)} →
    Replaced removed t u sites → ∀ p ∈ sites, p.1 ∈ removed
  | _, _, _, .atom _ => by simp
  | _, _, _, .folded hname _ _ => by simpa using hname
  | _, _, _, .nil => by simp
  | _, _, _, .cons _ hfirst hrest => fun p hp =>
    (List.mem_append.mp hp).elim (hfirst.names_removed p) (hrest.names_removed p)

/-- Every replaced call behind the first item of a list was one of a removed function. -/
theorem ReplacedIn.names_removed : {items items' : List Sexpr} →
    {sites : List (String × UInt32)} → ReplacedIn removed items items' sites →
    ∀ p ∈ sites, p.1 ∈ removed
  | _, _, _, .nil => by simp
  | _, _, _, .unfolded hname _ hrest => fun p hp => by
    rcases List.mem_cons.mp hp with rfl | hmem
    · exact hname
    · exact hrest.names_removed p hmem
  | _, _, _, .cons _ hitem hrest => fun p hp =>
    (List.mem_append.mp hp).elim (hitem.names_removed p) (hrest.names_removed p)

end

theorem FieldsReplaced.names_removed {fields fields' : List Sexpr}
    (h : FieldsReplaced removed fields fields' sites) : ∀ p ∈ sites, p.1 ∈ removed := by
  induction h with
  | nil => simp
  | cons hfield _ ih =>
      intro p hp
      rcases List.mem_append.mp hp with hsite | hother
      · cases hfield with
        | other => cases hsite
        | stub => cases hsite
        | kept _ _ hcalls => exact hcalls.names_removed p hsite
      · exact ih p hother

/-! ### Shims -/

/-- The name of an entry point with the addresses of its module and its function. -/
structure PlacedEntry where
  /-- The name of the entry point. -/
  name : String
  /-- The address of its module's name. -/
  moduleAddress : UInt32
  /-- The address of its function's name. -/
  functionAddress : UInt32

namespace PlacedEntry

/-- The fields of the entry point's shim. -/
def fields (e : PlacedEntry) : List Sexpr :=
  shim (EntryPoint.split e.name).1 (EntryPoint.split e.name).2 e.moduleAddress e.functionAddress

/-- The names that the shim passes on, with their addresses. -/
def names (e : PlacedEntry) : List (String × UInt32) :=
  [((EntryPoint.split e.name).1, e.moduleAddress),
    ((EntryPoint.split e.name).2, e.functionAddress)]

end PlacedEntry

/-- The shims are those of the given names, with the addresses that interning gives. -/
theorem interns_shims (store : FrozenStore) (names : List String) :
    ∃ placed : List PlacedEntry, placed.map PlacedEntry.name = names ∧
      (shims store names).1 = placed.flatMap PlacedEntry.fields ∧
      Interns store (placed.flatMap PlacedEntry.names) (shims store names).2 := by
  induction names generalizing store with
  | nil => exact ⟨[], rfl, rfl, .done store⟩
  | cons name rest ih =>
      obtain ⟨placed, hnames, hfields, hinterns⟩ :=
        ih ((store.intern (EntryPoint.split name).1).2.intern (EntryPoint.split name).2).2
      refine ⟨⟨name, _, _⟩ :: placed, congrArg (name :: ·) hnames, ?_, .next _ (.next _ hinterns)⟩
      rw [List.flatMap_cons, ← hfields]
      rfl

/-- The fields of a module with shims are its own and those of the shims. -/
theorem fields_addShims (module : Sexpr) (entries : EntryPoints) (store : FrozenStore) :
    (module.addShims entries store).1.fields =
      module.fields ++ (shims store (entries.map (·.name))).1 := by
  rw [addShims]
  apply fields_withFields_append
  intro field hmem
  cases hnames : entries.map (·.name) with
  | nil =>
      rw [hnames] at hmem
      cases hmem
  | cons name rest =>
      rw [hnames] at hmem
      cases hmem
      rfl

/-- A module in which a function without a name calls one that no trace has seen. -/
def callingModule : Sexpr :=
  .list [.atom "module", .list [.atom "func", .atom "$f", .atom "nop"],
    .list [.atom "func", call "f" []]]

/-- A policy without evidence. -/
def blindPolicy : StripPolicy :=
  ⟨.aggressive, [], [], []⟩

/-- It removes every function that is not pinned, such as this one. -/
theorem removes_blindPolicy : blindPolicy.removes "f" = true := by
  decide +kernel

end Sexpr

end WasmTrim
