import WasmTrim.Proofs.Frozen.Pool
import WasmTrim.Proofs.Module.Fields
import WasmTrim.Strip.Removal

/-!
# Where calls are replaced

`Sexpr.Replaced` relates a tree to one in which its calls of removed functions are replaced, with
the name and the address that each replaced call reports. It leaves the addresses open, so that what
they denote can be said once for all passes that intern names.

## Implementation notes

A call is written as a list that starts with `call` and its target, or as these two items anywhere
else in a list. So the relation treats the first item of a list like any other, and only the form of
the report tells the two ways apart.
-/

namespace WasmTrim.Sexpr

open FrozenStore (Interns)

variable {removed : List String} {item : Sexpr} {items : List Sexpr} {name : String}

theorem removedTarget?_eq_some_iff :
    removedTarget? removed item = some name ↔ item = .atom ("$" ++ name) ∧ name ∈ removed := by
  rw [← identifier?_eq_some_iff, removedTarget?]
  cases item.identifier? with
  | none => simp
  | some found =>
      simp only [List.contains_iff_mem, Option.ite_none_right_eq_some, Option.some.injEq]
      constructor
      · rintro ⟨hmem, rfl⟩
        exact ⟨rfl, hmem⟩
      · rintro ⟨rfl, hmem⟩
        exact ⟨hmem, rfl⟩

/-- A call of a removed function starts with its keyword and its target. -/
theorem removedCall?_eq_some_iff :
    removedCall? removed items = some name ↔
      ∃ rest, items = .atom "call" :: .atom ("$" ++ name) :: rest ∧ name ∈ removed := by
  rw [removedCall?.eq_def]
  split
  · next target rest =>
    rw [removedTarget?_eq_some_iff]
    simp
  · next hother =>
    constructor
    · rintro ⟨⟩
    · rintro ⟨rest, rfl, _⟩
      exact absurd rfl (hother _ _)

theorem removedCall?_singleton (removed : List String) (item : Sexpr) :
    removedCall? removed [item] = none := by
  cases hcall : removedCall? removed [item] with
  | none => rfl
  | some name =>
      obtain ⟨_, hitems, _⟩ := removedCall?_eq_some_iff.mp hcall
      cases hitems

theorem removedCall?_cons_cons_eq_some_iff {next : Sexpr} {rest : List Sexpr} :
    removedCall? removed (item :: next :: rest) = some name ↔
      item = .atom "call" ∧ next = .atom ("$" ++ name) ∧ name ∈ removed := by
  rw [removedCall?_eq_some_iff]
  constructor
  · rintro ⟨_, hitems, hmem⟩
    obtain ⟨rfl, hnext⟩ := List.cons.inj hitems
    obtain ⟨rfl, _⟩ := List.cons.inj hnext
    exact ⟨rfl, rfl, hmem⟩
  · rintro ⟨rfl, rfl, hmem⟩
    exact ⟨rest, rfl, hmem⟩

/-- Only two items decide whether there is a call. -/
theorem removedCall?_cons_cons (removed : List String) (item next : Sexpr) (rest : List Sexpr) :
    removedCall? removed (item :: next :: rest) = removedCall? removed [item, next] := by
  apply Option.ext
  intro name
  rw [removedCall?_cons_cons_eq_some_iff, removedCall?_cons_cons_eq_some_iff]

mutual

/-- A tree, the tree with its calls of removed functions replaced, and the names and addresses that
the replaced calls report, in the order of the text. -/
inductive Replaced (removed : List String) : Sexpr → Sexpr → List (String × UInt32) → Prop
  /-- An atom stays. -/
  | atom (text : String) : Replaced removed (.atom text) (.atom text) []
  /-- A folded call of a removed function is replaced with its arguments. -/
  | folded {name : String} (hname : name ∈ removed) (args : List Sexpr) (address : UInt32) :
      Replaced removed (.list (.atom "call" :: .atom ("$" ++ name) :: args))
        (foldedReport address) [(name, address)]
  /-- An empty list stays. -/
  | nil : Replaced removed (.list []) (.list []) []
  /-- In a list that is no such call, calls are replaced item by item. -/
  | cons {first first' : Sexpr} {rest rest' : List Sexpr} {sites others : List (String × UInt32)}
      (hcall : removedCall? removed (first :: rest) = none)
      (hfirst : Replaced removed first first' sites)
      (hrest : ReplacedIn removed rest rest' others) :
      Replaced removed (.list (first :: rest)) (.list (first' :: rest')) (sites ++ others)

/-- What follows the first item of a list, with its calls of removed functions replaced. -/
inductive ReplacedIn (removed : List String) :
    List Sexpr → List Sexpr → List (String × UInt32) → Prop
  /-- Nothing is left. -/
  | nil : ReplacedIn removed [] [] []
  /-- An unfolded call of a removed function is replaced. -/
  | unfolded {name : String} (hname : name ∈ removed) (address : UInt32)
      {rest rest' : List Sexpr} {others : List (String × UInt32)}
      (hrest : ReplacedIn removed rest rest' others) :
      ReplacedIn removed (.atom "call" :: .atom ("$" ++ name) :: rest)
        (unfoldedReport address ++ rest') ((name, address) :: others)
  /-- Another item is treated by itself. -/
  | cons {item item' : Sexpr} {rest rest' : List Sexpr} {sites others : List (String × UInt32)}
      (hcall : removedCall? removed (item :: rest) = none)
      (hitem : Replaced removed item item' sites) (hrest : ReplacedIn removed rest rest' others) :
      ReplacedIn removed (item :: rest) (item' :: rest') (sites ++ others)

end

mutual

/-- Replacing calls replaces all of them, and the addresses are those that the names are given. -/
theorem replaced_replaceCalls (removed : List String) (store : FrozenStore) :
    (t : Sexpr) → ∃ sites, Replaced removed t (replaceCalls removed store t).1 sites ∧
      Interns store sites (replaceCalls removed store t).2
  | .atom text => ⟨[], .atom text, .done store⟩
  | .list items => by
    cases hcall : removedCall? removed items with
    | some name =>
        obtain ⟨args, rfl, hmem⟩ := removedCall?_eq_some_iff.mp hcall
        simp only [replaceCalls, hcall]
        exact ⟨_, .folded hmem args _, .single store name⟩
    | none =>
        cases items with
        | nil =>
            simp only [replaceCalls, hcall]
            exact ⟨[], .nil, .done store⟩
        | cons first rest =>
            obtain ⟨sites, hfirst, hnames⟩ := replaced_replaceCalls removed store first
            obtain ⟨others, hrest, hothers⟩ :=
              replacedIn_replaceCallsIn removed (replaceCalls removed store first).2 rest
            simp only [replaceCalls, hcall]
            exact ⟨_, .cons hcall hfirst hrest, hnames.append hothers⟩

/-- Replacing calls behind the first item of a list replaces all of them. -/
theorem replacedIn_replaceCallsIn (removed : List String) (store : FrozenStore) :
    (items : List Sexpr) →
      ∃ sites, ReplacedIn removed items (replaceCallsIn removed store items).1 sites ∧
        Interns store sites (replaceCallsIn removed store items).2
  | [] => ⟨[], .nil, .done store⟩
  | [item] => by
    obtain ⟨sites, hitem, hnames⟩ := replaced_replaceCalls removed store item
    simp only [replaceCallsIn]
    exact ⟨_, .cons (removedCall?_singleton removed item) hitem .nil, hnames.append (.done _)⟩
  | item :: next :: rest => by
    cases hcall : removedCall? removed [item, next] with
    | some name =>
        obtain ⟨rfl, rfl, hmem⟩ := removedCall?_cons_cons_eq_some_iff.mp hcall
        obtain ⟨others, hrest, hothers⟩ :=
          replacedIn_replaceCallsIn removed (store.intern name).2 rest
        simp only [replaceCallsIn, hcall]
        exact ⟨_, .unfolded hmem _ hrest, .next name hothers⟩
    | none =>
        obtain ⟨sites, hitem, hnames⟩ := replaced_replaceCalls removed store item
        obtain ⟨others, hrest, hothers⟩ :=
          replacedIn_replaceCallsIn removed (replaceCalls removed store item).2 (next :: rest)
        simp only [replaceCallsIn, hcall]
        exact ⟨_, .cons ((removedCall?_cons_cons ..).trans hcall) hitem hrest,
          hnames.append hothers⟩

end

end WasmTrim.Sexpr
