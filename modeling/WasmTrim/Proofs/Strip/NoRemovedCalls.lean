import Mathlib.Data.List.Forall2
import WasmTrim.Proofs.Strip.Fields

/-!
# No call of a removed function survives

Replacing calls creates no new ones: an item that is put next to another is either one that stood
there before or a part of a report, and the only function that reports call is pinned.
-/

namespace WasmTrim.Sexpr

variable {removed : List String} {name : String} {t u item : Sexpr} {items rest rest' : List Sexpr}
variable {sites : List (String × UInt32)}

/-- Two neighbours among some items are the keyword of a call and the name of a function. -/
def NamesCall (name : String) (items : List Sexpr) : Prop :=
  ∃ front back, items = front ++ .atom "call" :: .atom ("$" ++ name) :: back

/-- Somewhere in a tree a list has the keyword of a call next to the name of a function: at its
start a folded call, anywhere else an unfolded one. -/
inductive CallsDirectly (name : String) : Sexpr → Prop
  /-- The list itself has the call. -/
  | here {items : List Sexpr} (h : NamesCall name items) : CallsDirectly name (.list items)
  /-- An item of the list has the call in it. -/
  | inside {items : List Sexpr} {item : Sexpr} (hmem : item ∈ items)
      (h : CallsDirectly name item) : CallsDirectly name (.list items)

theorem not_callsDirectly_atom (name text : String) : ¬CallsDirectly name (.atom text) := by
  rintro ⟨⟩

theorem callsDirectly_list_iff :
    CallsDirectly name (.list items) ↔
      NamesCall name items ∨ ∃ item ∈ items, CallsDirectly name item := by
  constructor
  · intro h
    cases h with
    | here h => exact Or.inl h
    | inside hmem h => exact Or.inr ⟨_, hmem, h⟩
  · rintro (h | ⟨item, hmem, h⟩)
    · exact .here h
    · exact .inside hmem h

theorem not_namesCall_nil (name : String) : ¬NamesCall name [] := by
  rintro ⟨front, back, h⟩
  cases front <;> cases h

/-- A call stands at the start or further on. -/
theorem namesCall_cons_iff :
    NamesCall name (item :: rest) ↔
      (item = .atom "call" ∧ rest.head? = some (.atom ("$" ++ name))) ∨ NamesCall name rest := by
  constructor
  · rintro ⟨front, back, h⟩
    cases front with
    | nil =>
        obtain ⟨rfl, rfl⟩ := List.cons.inj h
        exact Or.inl ⟨rfl, rfl⟩
    | cons first front =>
        obtain ⟨rfl, rfl⟩ := List.cons.inj h
        exact Or.inr ⟨front, back, rfl⟩
  · rintro (⟨rfl, hhead⟩ | ⟨front, back, rfl⟩)
    · obtain ⟨back, rfl⟩ := List.head?_eq_some_iff.mp hhead
      exact ⟨[], back, rfl⟩
    · exact ⟨item :: front, back, rfl⟩

theorem namesCall_cons_of_ne (h : item ≠ .atom "call") :
    NamesCall name (item :: rest) ↔ NamesCall name rest := by
  rw [namesCall_cons_iff]
  simp [h]

theorem namesCall_cons_cons_of_ne {next : Sexpr} (h : next ≠ .atom ("$" ++ name)) :
    NamesCall name (item :: next :: rest) ↔ NamesCall name (next :: rest) := by
  rw [namesCall_cons_iff]
  simp [h]

theorem not_namesCall_singleton (name : String) (item : Sexpr) : ¬NamesCall name [item] := by
  rw [namesCall_cons_iff]
  rintro (⟨_, ⟨⟩⟩ | h)
  exact not_namesCall_nil name h

/-- An item that is no identifier names no function. -/
theorem ne_of_identifier?_eq_none (h : item.identifier? = none) : item ≠ .atom ("$" ++ name) := by
  rintro rfl
  rw [identifier?_atom_append] at h
  cases h

theorem panicHandler_ne (hhandler : name ≠ panicHandler) :
    atom ("$" ++ panicHandler) ≠ .atom ("$" ++ name) :=
  fun h => hhandler (name_eq_of_identifier_eq h).symm

/-! ### Reports -/

/-- What is reported unfolded calls the panic handler only, and nothing that follows it. -/
theorem namesCall_unfoldedReport (hhandler : name ≠ panicHandler) (address : UInt32)
    (rest : List Sexpr) :
    NamesCall name (unfoldedReport address ++ rest) ↔ NamesCall name rest := by
  simp only [unfoldedReport, List.cons_append, List.nil_append]
  rw [namesCall_cons_of_ne (by decide),
    namesCall_cons_cons_of_ne (ne_of_identifier?_eq_none rfl),
    namesCall_cons_cons_of_ne (panicHandler_ne hhandler), namesCall_cons_of_ne (by decide),
    namesCall_cons_of_ne (by decide)]

theorem not_callsDirectly_of_mem_unfoldedReport {address : UInt32}
    (h : item ∈ unfoldedReport address) : ¬CallsDirectly name item := by
  simp only [unfoldedReport, List.mem_cons, List.not_mem_nil, or_false] at h
  rcases h with rfl | rfl | rfl | rfl | rfl <;> exact not_callsDirectly_atom name _

/-- What is reported folded calls the panic handler only. -/
theorem not_callsDirectly_foldedReport (hhandler : name ≠ panicHandler) (address : UInt32) :
    ¬CallsDirectly name (foldedReport address) := by
  have hconst : ¬CallsDirectly name (i32Const address) := by
    rw [i32Const, callsDirectly_list_iff, namesCall_cons_of_ne (by decide)]
    simp [not_namesCall_singleton, not_callsDirectly_atom]
  have hcall : ¬CallsDirectly name (call panicHandler [i32Const address]) := by
    rw [call, callsDirectly_list_iff, namesCall_cons_cons_of_ne (panicHandler_ne hhandler),
      namesCall_cons_of_ne (by decide)]
    simp [not_namesCall_singleton, not_callsDirectly_atom, hconst]
  have hfail : ¬CallsDirectly name unreachable := by
    rw [unreachable, callsDirectly_list_iff]
    simp [not_namesCall_singleton, not_callsDirectly_atom]
  rw [foldedReport, callsDirectly_list_iff, namesCall_cons_of_ne (by decide),
    namesCall_cons_of_ne Sexpr.noConfusion]
  simp [not_namesCall_singleton, not_callsDirectly_atom, hcall, hfail]

/-! ### Replaced calls -/

theorem Replaced.eq_atom {text : String} (h : Replaced removed t (.atom text) sites) :
    t = .atom text := by
  cases h
  rfl

/-- An identifier at the start of what follows was there before. -/
theorem ReplacedIn.head?_eq {text : String} (h : ReplacedIn removed rest rest' sites)
    (hhead : rest'.head? = some (.atom ("$" ++ text))) :
    rest.head? = some (.atom ("$" ++ text)) := by
  cases h with
  | nil => cases hhead
  | unfolded =>
      exact absurd (Option.some.inj hhead) (ne_of_identifier?_eq_none rfl)
  | cons _ hitem _ =>
      rw [List.head?_cons, Option.some.injEq] at hhead
      subst hhead
      rw [hitem.eq_atom]
      rfl

/-- Items put in front of a list bring a call only in themselves or where they meet the list. -/
theorem callsDirectly_cons_iff :
    CallsDirectly name (.list (item :: rest)) ↔
      (item = .atom "call" ∧ rest.head? = some (.atom ("$" ++ name))) ∨
        CallsDirectly name item ∨ CallsDirectly name (.list rest) := by
  rw [callsDirectly_list_iff, callsDirectly_list_iff, namesCall_cons_iff,
    List.exists_mem_cons_iff]
  constructor
  · rintro ((hmeet | hrest) | (hitem | hrest))
    · exact Or.inl hmeet
    · exact Or.inr (Or.inr (Or.inl hrest))
    · exact Or.inr (Or.inl hitem)
    · exact Or.inr (Or.inr (Or.inr hrest))
  · rintro (hmeet | hitem | hrest | hrest)
    · exact Or.inl (Or.inl hmeet)
    · exact Or.inr (Or.inl hitem)
    · exact Or.inl (Or.inr hrest)
    · exact Or.inr (Or.inr hrest)

/-- Where the items before were no call of a removed function, the replaced ones are none. -/
theorem not_callsDirectly_cons {first first' : Sexpr} {others : List (String × UInt32)}
    (hname : name ∈ removed) (hcall : removedCall? removed (first :: rest) = none)
    (hfirst : Replaced removed first first' sites) (hrest : ReplacedIn removed rest rest' others)
    (hclean : ¬CallsDirectly name first') (hcleans : ¬CallsDirectly name (.list rest')) :
    ¬CallsDirectly name (.list (first' :: rest')) := by
  rw [callsDirectly_cons_iff]
  rintro (⟨rfl, hhead⟩ | h | h)
  · obtain ⟨back, hback⟩ := List.head?_eq_some_iff.mp (hrest.head?_eq hhead)
    rw [hfirst.eq_atom, hback, removedCall?_eq_some_iff.mpr ⟨back, rfl, hname⟩] at hcall
    cases hcall
  · exact hclean h
  · exact hcleans h

theorem not_callsDirectly_nil (name : String) : ¬CallsDirectly name (.list []) := by
  rw [callsDirectly_list_iff]
  simp [not_namesCall_nil]

mutual

/-- No call of a removed function is left. -/
theorem Replaced.not_callsDirectly (hname : name ∈ removed) (hhandler : name ≠ panicHandler) :
    {t u : Sexpr} → {sites : List (String × UInt32)} → Replaced removed t u sites →
      ¬CallsDirectly name u
  | _, _, _, .atom text => not_callsDirectly_atom name text
  | _, _, _, .folded _ _ address => not_callsDirectly_foldedReport hhandler address
  | _, _, _, .nil => not_callsDirectly_nil name
  | _, _, _, .cons hcall hfirst hrest =>
    not_callsDirectly_cons hname hcall hfirst hrest (hfirst.not_callsDirectly hname hhandler)
      (hrest.not_callsDirectly hname hhandler)

/-- No call of a removed function is left in what follows the first item of a list. -/
theorem ReplacedIn.not_callsDirectly (hname : name ∈ removed) (hhandler : name ≠ panicHandler) :
    {items items' : List Sexpr} → {sites : List (String × UInt32)} →
      ReplacedIn removed items items' sites → ¬CallsDirectly name (.list items')
  | _, _, _, .nil => not_callsDirectly_nil name
  | _, _, _, .unfolded _ address hrest => by
    have hclean := hrest.not_callsDirectly hname hhandler
    rw [callsDirectly_list_iff] at hclean ⊢
    rw [namesCall_unfoldedReport hhandler]
    rintro (h | ⟨item, hmem, h⟩)
    · exact hclean (Or.inl h)
    · rcases List.mem_append.mp hmem with hreport | hrest'
      · exact not_callsDirectly_of_mem_unfoldedReport hreport h
      · exact hclean (Or.inr ⟨item, hrest', h⟩)
  | _, _, _, .cons hcall hitem hrest =>
    not_callsDirectly_cons hname hcall hitem hrest (hitem.not_callsDirectly hname hhandler)
      (hrest.not_callsDirectly hname hhandler)

end

mutual

/-- A tree without calls of removed functions stays as it is. -/
theorem Replaced.eq_self : {t u : Sexpr} → {sites : List (String × UInt32)} →
    Replaced removed t u sites → (∀ name ∈ removed, ¬CallsDirectly name t) → u = t ∧ sites = []
  | _, _, _, .atom _, _ => ⟨rfl, rfl⟩
  | _, _, _, .nil, _ => ⟨rfl, rfl⟩
  | _, _, _, .folded hname args _, hclean =>
    absurd (.here ⟨[], args, rfl⟩) (hclean _ hname)
  | _, _, _, .cons _ hfirst hrest, hclean => by
    obtain ⟨rfl, rfl⟩ := hfirst.eq_self fun name hname h =>
      hclean name hname (callsDirectly_cons_iff.mpr (Or.inr (Or.inl h)))
    obtain ⟨rfl, rfl⟩ := hrest.eq_self fun name hname h =>
      hclean name hname (callsDirectly_cons_iff.mpr (Or.inr (Or.inr h)))
    exact ⟨rfl, rfl⟩

/-- What follows the first item of a list stays as it is where it calls no removed function. -/
theorem ReplacedIn.eq_self : {items items' : List Sexpr} → {sites : List (String × UInt32)} →
    ReplacedIn removed items items' sites → (∀ name ∈ removed, ¬CallsDirectly name (.list items)) →
    items' = items ∧ sites = []
  | _, _, _, .nil, _ => ⟨rfl, rfl⟩
  | _, _, _, .unfolded hname _ _, hclean => absurd (.here ⟨[], _, rfl⟩) (hclean _ hname)
  | _, _, _, .cons _ hitem hrest, hclean => by
    obtain ⟨rfl, rfl⟩ := hitem.eq_self fun name hname h =>
      hclean name hname (callsDirectly_cons_iff.mpr (Or.inr (Or.inl h)))
    obtain ⟨rfl, rfl⟩ := hrest.eq_self fun name hname h =>
      hclean name hname (callsDirectly_cons_iff.mpr (Or.inr (Or.inr h)))
    exact ⟨rfl, rfl⟩

end

/-! ### Stripped modules -/

/-- The panic handler is pinned, so no policy removes it. -/
theorem removes_panicHandler (policy : StripPolicy) : policy.removes panicHandler = false := by
  have hmem : panicHandler ∈ pinnedFunctions := by decide
  have hpinned : fingerprint panicHandler ∈ policy.pinned :=
    List.mem_map_of_mem (List.mem_append_left _ hmem)
  rw [StripPolicy.removes, StripPolicy.isCandidate, List.contains_iff_mem.mpr hpinned,
    Bool.not_true, Bool.and_false, Bool.false_and]

theorem panicHandler_not_mem_removed (module : Sexpr) (policy : StripPolicy)
    (store : FrozenStore) : panicHandler ∉ (module.strip policy store).1.removed := by
  intro hmem
  have hremoves := ((mem_removed_iff module policy store).mp hmem).2
  rw [removes_panicHandler] at hremoves
  cases hremoves

/-- What stripping with some removed names leaves of a field: a removed function is its declaration
and the instruction that fails, and any other function calls no removed one. -/
structure Cleared (removed : List String) (field field' : Sexpr) : Prop where
  /-- Functions stay functions. -/
  isForm_eq : field'.isForm "func" = field.isForm "func"
  /-- Every field keeps its name, if it has one. -/
  functionName?_eq : field'.functionName? = field.functionName?
  /-- A removed function loses all its instructions. -/
  stubbed : ∀ name, field.functionName? = some name → name ∈ removed →
    field' = .list (declaration field.items ++ [.list [.atom "unreachable"]])
  /-- Functions that stay and functions without a name call no removed function. -/
  clean : field.isForm "func" = true →
    (∀ name, field.functionName? = some name → name ∉ removed) →
    ∀ name ∈ removed, ¬CallsDirectly name field'

theorem FieldReplaced.cleared {field field' : Sexpr} (hhandler : panicHandler ∉ removed)
    (h : FieldReplaced removed field field' sites) : Cleared removed field field' where
  isForm_eq := h.functionName?_eq.1
  functionName?_eq := h.functionName?_eq.2
  stubbed name hname hmem := by
    cases h with
    | other hfunc =>
        rw [isForm_func_of_functionName? hname] at hfunc
        cases hfunc
    | stub => rfl
    | kept _ hkept _ => exact absurd hmem (hkept name hname)
  clean hfunc hkept name hmem := by
    have hne : name ≠ panicHandler := fun h => hhandler (h ▸ hmem)
    cases h with
    | other hother =>
        rw [hfunc] at hother
        cases hother
    | stub hname hremoved => exact absurd hremoved (hkept _ hname)
    | kept _ _ hcalls => exact hcalls.not_callsDirectly hmem hne

theorem FieldsReplaced.cleared {fields fields' : List Sexpr} (hhandler : panicHandler ∉ removed)
    (h : FieldsReplaced removed fields fields' sites) :
    List.Forall₂ (Cleared removed) fields fields' := by
  induction h with
  | nil => exact .nil
  | cons hfield _ ih => exact .cons (hfield.cleared hhandler) ih

/-- In a stripped module every removed function is a stub and no other function calls a removed one.
Reports create no such call, since the function that they call cannot be removed. -/
theorem strip_cleared (module : Sexpr) (policy : StripPolicy) (store : FrozenStore) :
    panicHandler ∉ (module.strip policy store).1.removed ∧
      List.Forall₂ (Cleared (module.strip policy store).1.removed) module.fields
        (module.strip policy store).1.module.fields := by
  have hhandler := panicHandler_not_mem_removed module policy store
  obtain ⟨sites, hfields, _⟩ := replaced_strip module policy store
  exact ⟨hhandler, hfields.cleared hhandler⟩

end WasmTrim.Sexpr
