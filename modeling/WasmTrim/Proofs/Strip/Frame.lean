import WasmTrim.Proofs.Strip.InlineImports
import WasmTrim.Proofs.Strip.Outline

/-!
# What stripping leaves alone

A module's types, exports, tables and indices mean the same after stripping, because nothing moves:
the header stays, every field keeps its place, its name and its declaration, and inside a function
only the outermost calls of removed functions change. A module without removed functions is returned
with its store as it was.

`Sexpr.strip_frame` is about modules that start with a word and have no word `call` in a
declaration. The names of functions are the same as well, and each is either removed or retained.

## Implementation notes

Calls are replaced wherever a tree has them, also in a declaration. So what is said of declarations
takes that no declaration form has the word `call` in it, which no module needs there.
-/

namespace WasmTrim

namespace FrozenStore

/-- Without names to intern, a store stays as it was. -/
theorem Interns.eq_of_nil {store later : FrozenStore} (h : Interns store [] later) :
    later = store := by
  cases h
  rfl

end FrozenStore

namespace Sexpr

open FrozenStore (Interns)

variable {removed : List String} {module field field' t u : Sexpr} {items items' : List Sexpr}
variable {sites : List (String × UInt32)} {name : String}

/-! ### Declarations -/

/-- A tree has an atom somewhere. -/
inductive Mentions (text : String) : Sexpr → Prop
  /-- The tree is the atom. -/
  | atom : Mentions text (.atom text)
  /-- An item of the list has the atom. -/
  | inside {items : List Sexpr} {item : Sexpr} (hmem : item ∈ items) (h : Mentions text item) :
      Mentions text (.list items)

theorem mentions_atom_iff {text other : String} :
    Mentions text (.atom other) ↔ text = other := by
  constructor
  · rintro ⟨⟩
    rfl
  · rintro rfl
    exact .atom

/-- A tree with a call has the word for it. -/
theorem CallsDirectly.mentions (h : CallsDirectly name t) : Mentions "call" t := by
  induction h with
  | here h =>
      obtain ⟨front, back, rfl⟩ := h
      exact .inside (List.mem_append_right _ (List.mem_cons_self ..)) .atom
  | inside hmem _ ih => exact .inside hmem ih

/-- Replacing calls makes no declaration form of anything else. -/
theorem Replaced.isDeclaration_eq_false (h : Replaced removed t u sites)
    (ht : isDeclaration t = false) : isDeclaration u = false := by
  cases h with
  | atom => exact ht
  | folded =>
      have hblock : declarationKeywords.contains "block" = false := by decide
      exact hblock
  | nil => exact ht
  | cons _ hfirst _ =>
      cases hfirst with
      | atom => exact ht
      | folded => rfl
      | nil => rfl
      | cons => rfl

/-- The declaration forms among the items that follow a function's name stay, and so does their
end. -/
theorem ReplacedIn.takeWhile_isDeclaration (h : ReplacedIn removed items items' sites)
    (hforms : ∀ form ∈ items.takeWhile isDeclaration, ¬Mentions "call" form) :
    items'.takeWhile isDeclaration = items.takeWhile isDeclaration := by
  induction items generalizing items' sites with
  | nil =>
      cases h
      rfl
  | cons item rest ih =>
      cases h with
      | unfolded => rfl
      | cons _ hitem hrest =>
          cases hdeclaration : isDeclaration item with
          | false =>
              have hitem' := hitem.isDeclaration_eq_false hdeclaration
              rw [List.takeWhile_cons_of_neg (Bool.eq_false_iff.mp hdeclaration),
                List.takeWhile_cons_of_neg (Bool.eq_false_iff.mp hitem')]
          | true =>
              rw [List.takeWhile_cons_of_pos hdeclaration] at hforms ⊢
              obtain ⟨hfirst, hothers⟩ := List.forall_mem_cons.mp hforms
              obtain ⟨rfl, _⟩ := hitem.eq_self fun name _ hcall => hfirst hcall.mentions
              rw [List.takeWhile_cons_of_pos hdeclaration, ih hrest hothers]

/-- A named function with replaced calls starts as before. -/
theorem Replaced.exists_replacedIn (hname : field.functionName? = some name)
    (h : Replaced removed field field' sites) :
    ∃ rest rest' others, field = .list (.atom "func" :: .atom ("$" ++ name) :: rest) ∧
      field' = .list (.atom "func" :: .atom ("$" ++ name) :: rest') ∧
      ReplacedIn removed rest rest' others := by
  obtain ⟨rest, rfl⟩ := eq_of_functionName? hname
  have hid : Sexpr.atom "call" ≠ .atom ("$" ++ name) := ne_of_identifier?_eq_none rfl
  generalize hkeyword : "func" = keyword at h
  generalize "$" ++ name = id at h hid
  cases h with
  | folded => exact absurd hkeyword (by decide)
  | cons _ hfirst hrest =>
      cases hfirst
      cases hrest with
      | unfolded => exact absurd rfl hid
      | cons _ hitem hrest =>
          cases hitem
          subst hkeyword
          exact ⟨rest, _, _, rfl, rfl, hrest⟩

/-- The declaration of a function: its keyword, its name, and the forms that follow. -/
theorem declaration_cons_cons (keyword id : Sexpr) (rest : List Sexpr) :
    declaration (keyword :: id :: rest) = keyword :: id :: rest.takeWhile isDeclaration :=
  rfl

theorem Replaced.declaration_eq (hname : field.functionName? = some name)
    (hforms : ∀ form ∈ declaration field.items, ¬Mentions "call" form)
    (h : Replaced removed field field' sites) :
    declaration field'.items = declaration field.items := by
  obtain ⟨rest, rest', others, rfl, rfl, hrest⟩ := h.exists_replacedIn hname
  rw [items_list, declaration_cons_cons] at hforms
  have hrestForms := (List.forall_mem_cons.mp (List.forall_mem_cons.mp hforms).2).2
  rw [items_list, items_list, declaration_cons_cons, declaration_cons_cons,
    hrest.takeWhile_isDeclaration hrestForms]

/-- A stub declares what the function declared. -/
theorem declaration_stub (hname : field.functionName? = some name) :
    declaration field.stub.items = declaration field.items := by
  obtain ⟨rest, rfl⟩ := eq_of_functionName? hname
  have hforms : ∀ form ∈ rest.takeWhile isDeclaration, isDeclaration form = true :=
    List.all_eq_true.mp List.all_takeWhile
  have hend : ¬isDeclaration unreachable = true := by decide
  rw [stub, items_list, items_list, declaration_cons_cons, List.cons_append, List.cons_append,
    declaration_cons_cons, List.takeWhile_append_of_pos hforms, List.takeWhile_cons_of_neg hend,
    List.append_nil]

/-! ### Fields -/

/-- What stripping with some removed names leaves of a field. -/
structure Framed (removed : List String) (field field' : Sexpr) : Prop where
  /-- A field that is no function is as it was. -/
  other : field.isForm "func" = false → field' = field
  /-- Functions stay functions. -/
  isForm_eq : field'.isForm "func" = field.isForm "func"
  /-- A function keeps its name, if it has one. -/
  functionName?_eq : field'.functionName? = field.functionName?
  /-- A named function keeps its whole declaration. -/
  declaration_eq : ∀ name, field.functionName? = some name →
    declaration field'.items = declaration field.items
  /-- A function that stays and calls no removed one is as it was. -/
  eq_self : (∀ name, field.functionName? = some name → name ∉ removed) →
    (∀ name ∈ removed, ¬CallsDirectly name field) → field' = field
  /-- In a function that stays, only the outermost calls of removed functions change. -/
  outline : field.isForm "func" = true →
    (∀ name, field.functionName? = some name → name ∉ removed) →
    ∃ part : Outline removed, IsOutline [part] [field] [field']

theorem FieldReplaced.framed (h : FieldReplaced removed field field' sites)
    (hforms : ∀ name, field.functionName? = some name →
      ∀ form ∈ declaration field.items, ¬Mentions "call" form) :
    Framed removed field field' where
  other hother := by
    cases h with
    | other => rfl
    | stub hname =>
        rw [isForm_func_of_functionName? hname] at hother
        cases hother
    | kept hfunc =>
        rw [hfunc] at hother
        cases hother
  isForm_eq := h.functionName?_eq.1
  functionName?_eq := h.functionName?_eq.2
  declaration_eq name hname := by
    cases h with
    | other => rfl
    | stub => exact declaration_stub hname
    | kept _ _ hcalls => exact hcalls.declaration_eq hname (hforms name hname)
  eq_self := h.eq_self
  outline hfunc hkept := by
    cases h with
    | other hother =>
        rw [hfunc] at hother
        cases hother
    | stub hname hmem => exact absurd hmem (hkept _ hname)
    | kept _ _ hcalls => exact hcalls.exists_outline

theorem FieldsReplaced.framed (h : FieldsReplaced removed items items' sites)
    (hforms : ∀ field ∈ items, ∀ name, field.functionName? = some name →
      ∀ form ∈ declaration field.items, ¬Mentions "call" form) :
    List.Forall₂ (Framed removed) items items' := by
  induction h with
  | nil => exact .nil
  | cons hfield _ ih =>
      obtain ⟨hfirst, hothers⟩ := List.forall_mem_cons.mp hforms
      exact .cons (hfield.framed hfirst) (ih hothers)

/-- Fields keep their names. -/
theorem filterMap_functionName?_of_framed (h : List.Forall₂ (Framed removed) items items') :
    items'.filterMap functionName? = items.filterMap functionName? := by
  induction h with
  | nil => rfl
  | cons hfield _ ih =>
      rw [List.filterMap_cons, List.filterMap_cons, hfield.functionName?_eq, ih]

/-- Without removed functions every field is as it was. -/
theorem eq_of_framed_nil (h : List.Forall₂ (Framed []) items items') : items' = items := by
  induction h with
  | nil => rfl
  | cons hfield _ ih =>
      rw [hfield.eq_self (fun _ _ => List.not_mem_nil) (fun _ hmem => by cases hmem), ih]

/-! ### Modules -/

/-- Without removed functions no name is interned. -/
theorem store_strip_eq_self {policy : StripPolicy} {store : FrozenStore}
    (hnone : (module.strip policy store).1.removed = []) :
    (module.strip policy store).2 = store := by
  obtain ⟨sites, hfields, hinterns⟩ := replaced_strip module policy store
  have hsites : sites = [] := by
    apply List.eq_nil_iff_forall_not_mem.mpr
    intro p hp
    have hmem := hfields.names_removed p hp
    rw [hnone] at hmem
    cases hmem
  rw [hsites] at hinterns
  exact hinterns.eq_of_nil

/-- Every function is removed or retained, and none is both. -/
theorem removed_retained (policy : StripPolicy) (store : FrozenStore) :
    (∀ name, name ∈ module.functionNames ↔ name ∈ (module.strip policy store).1.removed ∨
      name ∈ (module.strip policy store).1.retained) ∧
    ∀ name ∈ (module.strip policy store).1.removed,
      name ∉ (module.strip policy store).1.retained := by
  constructor
  · intro name
    rw [mem_removed_iff, mem_retained_iff, ← and_or_left]
    cases policy.removes name <;> simp
  · intro name hremoved hretained
    have hremoves := ((mem_removed_iff module policy store).mp hremoved).2
    rw [((mem_retained_iff module policy store).mp hretained).2] at hremoves
    cases hremoves

/-- Stripping keeps the header, the order of fields, other fields than functions, names and
declarations, and in functions that stay all but their outermost calls of removed ones. Removing
nothing changes nothing. -/
theorem strip_frame {keyword : String} {rest : List Sexpr}
    (hstart : module = .list (.atom keyword :: rest))
    (hforms : ∀ field ∈ module.fields, ∀ name, field.functionName? = some name →
      ∀ form ∈ declaration field.items, ¬Mentions "call" form)
    (policy : StripPolicy) (store : FrozenStore) :
    module = .list (module.header ++ module.fields) ∧
      (module.strip policy store).1.module =
        .list (module.header ++ (module.strip policy store).1.module.fields) ∧
      (module.strip policy store).1.module.header = module.header ∧
      List.Forall₂ (Framed (module.strip policy store).1.removed) module.fields
        (module.strip policy store).1.module.fields ∧
      (module.strip policy store).1.module.functionNames = module.functionNames ∧
      (∀ name, name ∈ module.functionNames ↔ name ∈ (module.strip policy store).1.removed ∨
        name ∈ (module.strip policy store).1.retained) ∧
      (∀ name ∈ (module.strip policy store).1.removed,
        name ∉ (module.strip policy store).1.retained) ∧
      ((module.strip policy store).1.removed = [] →
        (module.strip policy store).1.module = module ∧ (module.strip policy store).2 = store) := by
  obtain ⟨sites, hfields, _⟩ := replaced_strip module policy store
  have hframed := hfields.framed hforms
  have hmodule : (module.strip policy store).1.module =
      module.withFields (module.strip policy store).1.module.fields := by
    rw [fields_strip]
    rfl
  have hheads : ∀ item ∈ (module.strip policy store).1.module.fields.head?, item.isList = true :=
    fun _ => isList_of_mem_head?_fields
  have hwhole := eq_header_fields hstart
  obtain ⟨hnames, hdisjoint⟩ := removed_retained policy store
  refine ⟨hwhole, hmodule, ?_, hframed, filterMap_functionName?_of_framed hframed, hnames, hdisjoint,
    ?_⟩
  · rw [hmodule]
    exact header_withFields module hheads
  · intro hnone
    rw [hnone] at hframed
    constructor
    · rw [hmodule, eq_of_framed_nil hframed]
      exact hwhole.symm
    · exact store_strip_eq_self hnone

/-- Stripping a module without evidence keeps its header and the names of its functions, also that
of the removed one. -/
theorem strip_frame_callingModule :
    (∀ field ∈ callingModule.fields, ∀ name, field.functionName? = some name →
      ∀ form ∈ declaration field.items, ¬Mentions "call" form) ∧
    (callingModule.strip blindPolicy .empty).1.module.functionNames = ["f"] ∧
      (callingModule.strip blindPolicy .empty).1.module.header = [.atom "module"] := by
  have hforms : ∀ field ∈ callingModule.fields, ∀ name, field.functionName? = some name →
      ∀ form ∈ declaration field.items, ¬Mentions "call" form := by
    have hatoms : ∀ field ∈ callingModule.fields, ∀ name, field.functionName? = some name →
        ∀ form ∈ declaration field.items, form = .atom "func" ∨ form = .atom "$f" := by
      intro field hfield name hname
      obtain rfl | rfl := (List.mem_cons.mp hfield).imp_right List.mem_singleton.mp
      · decide
      · cases hname
    intro field hfield name hname form hform
    obtain rfl | rfl := hatoms field hfield name hname form hform
    · rw [mentions_atom_iff]
      decide
    · rw [mentions_atom_iff]
      decide
  have hfunctions : callingModule.functionNames = ["f"] := by decide
  have hheader : callingModule.header = [.atom "module"] := by decide
  have hstart : callingModule = .list (.atom "module" :: callingModule.fields) := rfl
  obtain ⟨_, _, hsame, _, hnames, _⟩ := strip_frame hstart hforms blindPolicy .empty
  exact ⟨hforms, hnames.trans hfunctions, hsame.trans hheader⟩

end Sexpr

end WasmTrim
