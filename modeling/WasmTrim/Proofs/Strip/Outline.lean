import WasmTrim.Proofs.Strip.NoRemovedCalls

/-!
# What surrounds replaced calls

The part of a function that stripping keeps is a tree with gaps. Filled with the calls of removed
functions it is the function before, and filled with their reports the function after. A gap holds a
whole call with its arguments, and no other call of a removed function is outside the gaps. So the
gaps are the outermost calls, and all that is around them stays the same in the same order.

## Implementation notes

A folded call is one item and an unfolded one two, so a gap is filled with a sequence of items.
Filled with the empty list, which is no part of any call, an outline shows what is outside its gaps.
-/

namespace WasmTrim.Sexpr

/-- A call of a removed function. -/
inductive CallSite (removed : List String) where
  /-- A list with the keyword, the function and the arguments. -/
  | folded (name : String) (hname : name ∈ removed) (args : List Sexpr)
  /-- The keyword and the function among other items. -/
  | unfolded (name : String) (hname : name ∈ removed)

namespace CallSite

variable {removed : List String}

/-- The items that are the call. -/
def items : CallSite removed → List Sexpr
  | folded name _ args => [.list (.atom "call" :: .atom ("$" ++ name) :: args)]
  | unfolded name _ => [.atom "call", .atom ("$" ++ name)]

/-- The items that stand for the call, given the address of the function's name. -/
def report (address : UInt32) : CallSite removed → List Sexpr
  | folded .. => [foldedReport address]
  | unfolded .. => unfoldedReport address

end CallSite

/-- A tree with gaps for calls of removed functions. -/
inductive Outline (removed : List String) where
  /-- An atom. -/
  | atom (text : String)
  /-- A list, its gaps included. -/
  | list (parts : List (Outline removed))
  /-- A gap, and the address that the report in it gives. -/
  | gap (site : CallSite removed) (address : UInt32)

namespace Outline

variable {removed : List String}

mutual

/-- The items that an outline shows when its gaps are filled. -/
def fill (inside : CallSite removed → UInt32 → List Sexpr) : Outline removed → List Sexpr
  | .atom text => [.atom text]
  | .list parts => [.list (fillAll inside parts)]
  | .gap site address => inside site address

/-- The items that outlines show when their gaps are filled. -/
def fillAll (inside : CallSite removed → UInt32 → List Sexpr) :
    List (Outline removed) → List Sexpr
  | [] => []
  | part :: rest => fill inside part ++ fillAll inside rest

end

/-- What a gap is filled with before calls are replaced: the call. -/
def callIn (site : CallSite removed) (_ : UInt32) : List Sexpr :=
  site.items

/-- What a gap is filled with after calls are replaced: the report. -/
def reportIn (site : CallSite removed) (address : UInt32) : List Sexpr :=
  site.report address

/-- What marks a gap and is no part of any call. -/
def nothingIn (_ : CallSite removed) (_ : UInt32) : List Sexpr :=
  [.list []]

/-- An atom outside the gaps is there however the gaps are filled. -/
theorem fill_eq_atom {text : String} {outline : Outline removed}
    (h : outline.fill nothingIn = [.atom text])
    (inside : CallSite removed → UInt32 → List Sexpr) : outline.fill inside = [.atom text] := by
  cases outline with
  | atom =>
      rw [fill] at h ⊢
      exact h
  | list => cases h
  | gap => cases h

theorem exists_fill_nothingIn (outline : Outline removed) :
    ∃ item, outline.fill nothingIn = [item] := by
  cases outline with
  | atom text => exact ⟨.atom text, rfl⟩
  | list parts => exact ⟨.list _, rfl⟩
  | gap => exact ⟨.list [], rfl⟩

/-- An atom at the start of some outlines is there however their gaps are filled. -/
theorem head?_fillAll {text : String} {parts : List (Outline removed)}
    (h : (fillAll nothingIn parts).head? = some (.atom text))
    (inside : CallSite removed → UInt32 → List Sexpr) :
    (fillAll inside parts).head? = some (.atom text) := by
  cases parts with
  | nil => cases h
  | cons part rest =>
      obtain ⟨item, hitem⟩ := part.exists_fill_nothingIn
      rw [fillAll, hitem, List.singleton_append, List.head?_cons, Option.some.injEq] at h
      subst h
      rw [fillAll, fill_eq_atom hitem, List.singleton_append, List.head?_cons]

end Outline

open Outline

variable {removed : List String} {first item : Sexpr} {rest items : List Sexpr} {name : String}

/-- An outline of some items, which has all their calls of removed functions in its gaps. -/
structure IsOutline (parts : List (Outline removed)) (items items' : List Sexpr) : Prop where
  /-- With the calls in the gaps, these are the items. -/
  calls : fillAll callIn parts = items
  /-- With the reports in the gaps, these are the items after stripping. -/
  reports : fillAll reportIn parts = items'
  /-- There is no call outside the gaps. -/
  clean : ∀ name ∈ removed, ¬CallsDirectly name (.list (fillAll nothingIn parts))

theorem isOutline_nil (removed : List String) : IsOutline ([] : List (Outline removed)) [] [] := by
  constructor
  · rfl
  · rfl
  · exact fun name _ => not_callsDirectly_nil name

/-- An outline of one item and one of the items that follow it are an outline of all, unless the
item is the keyword of a call. -/
theorem IsOutline.cons {part : Outline removed} {parts : List (Outline removed)}
    {first' : Sexpr} {rest' : List Sexpr} (hcall : removedCall? removed (first :: rest) = none)
    (hfirst : IsOutline [part] [first] [first']) (hrest : IsOutline parts rest rest') :
    IsOutline (part :: parts) (first :: rest) (first' :: rest') := by
  have hsingle (inside : CallSite removed → UInt32 → List Sexpr) :
      fillAll inside [part] = part.fill inside := by
    rw [fillAll, fillAll, List.append_nil]
  have hcalls := hfirst.calls
  have hreports := hfirst.reports
  have hclean := hfirst.clean
  rw [hsingle] at hcalls hreports
  constructor
  · rw [fillAll, hcalls, hrest.calls, List.singleton_append]
  · rw [fillAll, hreports, hrest.reports, List.singleton_append]
  · intro name hname
    obtain ⟨item, hitem⟩ := part.exists_fill_nothingIn
    rw [hsingle, hitem] at hclean
    rw [fillAll, hitem, List.singleton_append, callsDirectly_cons_iff]
    rintro (⟨rfl, hhead⟩ | h | h)
    · -- The keyword and the name would have stood next to each other before.
      rw [fill_eq_atom hitem] at hcalls
      have hback := head?_fillAll hhead callIn
      rw [hrest.calls] at hback
      obtain ⟨back, rfl⟩ := List.head?_eq_some_iff.mp hback
      obtain ⟨rfl, _⟩ := List.cons.inj hcalls
      rw [removedCall?_eq_some_iff.mpr ⟨back, rfl, hname⟩] at hcall
      cases hcall
    · exact hclean name hname (.inside (List.mem_singleton_self item) h)
    · exact hrest.clean name hname h

theorem isOutline_atom (removed : List String) (text : String) :
    IsOutline [(Outline.atom text : Outline removed)] [.atom text] [.atom text] := by
  constructor
  · rfl
  · rfl
  · intro name _
    rw [fillAll, fill, fillAll, List.append_nil, callsDirectly_list_iff]
    simp [not_namesCall_singleton, not_callsDirectly_atom]

/-- An outline of the items of a list makes one of the list. -/
theorem IsOutline.list {parts : List (Outline removed)} {items' : List Sexpr}
    (h : IsOutline parts items items') : IsOutline [.list parts] [.list items] [.list items'] := by
  constructor
  · rw [fillAll, fill, h.calls]
    rfl
  · rw [fillAll, fill, h.reports]
    rfl
  · intro name hname
    rw [fillAll, fill, fillAll, List.append_nil, callsDirectly_list_iff]
    simp [not_namesCall_singleton, h.clean name hname]

/-- A call is a gap. -/
theorem IsOutline.gap {parts : List (Outline removed)} {rest' : List Sexpr}
    (site : CallSite removed) (address : UInt32) (h : IsOutline parts rest rest') :
    IsOutline (.gap site address :: parts) (site.items ++ rest) (site.report address ++ rest') := by
  constructor
  · rw [fillAll, fill, h.calls]
    rfl
  · rw [fillAll, fill, h.reports]
    rfl
  · intro name hname
    rw [fillAll, fill, nothingIn, List.singleton_append, callsDirectly_cons_iff]
    rintro (⟨⟨⟩, _⟩ | hgap | hrest)
    · exact not_callsDirectly_nil name hgap
    · exact h.clean name hname hrest

mutual

/-- A tree with replaced calls has an outline. -/
theorem Replaced.exists_outline : {t u : Sexpr} → {sites : List (String × UInt32)} →
    Replaced removed t u sites → ∃ part : Outline removed, IsOutline [part] [t] [u]
  | _, _, _, .atom text => ⟨_, isOutline_atom removed text⟩
  | _, _, _, .folded hname args address =>
    ⟨_, (isOutline_nil removed).gap (.folded _ hname args) address⟩
  | _, _, _, .nil => ⟨_, (isOutline_nil removed).list⟩
  | _, _, _, .cons hcall hfirst hrest => by
    obtain ⟨part, hpart⟩ := hfirst.exists_outline
    obtain ⟨parts, hparts⟩ := hrest.exists_outline
    exact ⟨_, (hpart.cons hcall hparts).list⟩

/-- What follows the first item of a list has an outline. -/
theorem ReplacedIn.exists_outline : {items items' : List Sexpr} →
    {sites : List (String × UInt32)} → ReplacedIn removed items items' sites →
    ∃ parts : List (Outline removed), IsOutline parts items items'
  | _, _, _, .nil => ⟨[], isOutline_nil removed⟩
  | _, _, _, .unfolded hname address hrest => by
    obtain ⟨parts, hparts⟩ := hrest.exists_outline
    exact ⟨_, hparts.gap (.unfolded _ hname) address⟩
  | _, _, _, .cons hcall hitem hrest => by
    obtain ⟨part, hpart⟩ := hitem.exists_outline
    obtain ⟨parts, hparts⟩ := hrest.exists_outline
    exact ⟨_, hpart.cons hcall hparts⟩

end

end WasmTrim.Sexpr
